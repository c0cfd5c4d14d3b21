import CrashDigest.Event.Panic
import CrashDigest.Proofs.FaultingThread
import CrashDigest.Proofs.Fields
import CrashDigest.Proofs.Monotone

/-!
# The signature of a panic

A console is read up to three times for its signature, by scans that have
nothing in common but the file. The first scan takes the stack of a hard lockup:
behind the line of the panic, or in it, a mark opens the stack, and the first
four lines behind the mark that are frames are kept. Lines that are none leave
no trace, not even in the budget. For a soft lockup the traces behind the two
banners are read by scans of their own.

`signature` puts them in an order: the stack of the lockup, and else the
pointer. `consoleFields_signature` says that this is what stands in the first
field, and that a console that cannot be read gives an error and no fields.
-/

namespace CrashDigest.Console

variable {lines : List Text} {line : Text} {s : Scan}

/-! ## The stack of a hard lockup -/

def opensStack (line : Text) : Bool :=
  line.includes "nmi_stack_correct"

/-- Whether a line in which the stack is opened is that of the panic or lies behind it. -/
def stackAt (lines : List Text) (j : Nat) : Bool :=
  Places.fromFirst panicAt lines j && lines[j]?.any opensStack

def isFrame (line : Text) : Bool :=
  !(KernelFrame.functionOf line).isEmpty

def frameAt (lines : List Text) (j : Nat) : Bool :=
  Places.behindFirst stackAt lines j && lines[j]?.any isFrame

/-- The frames that are kept: the first four behind the line that opens the stack. -/
def lockupFrames (lines : List Text) : List Text :=
  (Places.linesAt frameAt lines).take 4

def lockupText (lines : List Text) : Text :=
  (lockupFrames lines).flatMap KernelFrame.functionOf

theorem stackAt_looksBack : Places.LooksBack stackAt :=
  (Places.looksBack_fromFirst panicAt_looksBack).and (Places.looksBack_line opensStack)

theorem frameAt_looksBack : Places.LooksBack frameAt :=
  (Places.looksBack_behindFirst stackAt_looksBack).and (Places.looksBack_line isFrame)

theorem stackLine_concat (lines : List Text) (line : Text) :
    Places.first stackAt (lines ++ [line]) =
      (Places.first stackAt lines).or
        (if (panicLine (lines ++ [line])).isSome && opensStack line then some lines.length
          else none) := by
  rw [Places.first_concat stackAt_looksBack, stackAt, Places.fromFirst_concat,
    Places.any_concat_length]
  rfl

theorem lockupFrames_concat (lines : List Text) (line : Text) :
    lockupFrames (lines ++ [line]) =
      if ((Places.first stackAt lines).isSome && isFrame line) = true ∧
          (lockupFrames lines).length < frameBudget
      then lockupFrames lines ++ [line] else lockupFrames lines := by
  rw [lockupFrames, Places.take_linesAt_concat frameAt_looksBack, frameAt,
    Places.behindFirst_concat stackAt_looksBack, Places.any_concat_length, lockupFrames,
    frameBudget]

theorem stackLine_of_no_panic (h : panicLine lines = none) : Places.first stackAt lines = none := by
  refine List.find?_eq_none.mpr fun j _ => ?_
  rw [panicLine] at h
  rw [stackAt, Places.fromFirst, h]
  exact Bool.false_ne_true

theorem lockupFrames_of_no_stack (h : Places.first stackAt lines = none) :
    lockupFrames lines = [] := by
  have hnone : (List.range lines.length).filter (frameAt lines) = [] := by
    refine List.filter_eq_nil_iff.mpr fun j _ => ?_
    rw [frameAt, Places.behindFirst, h]
    exact Bool.false_ne_true
  rw [lockupFrames, Places.linesAt, hnone]
  rfl

theorem Scan.takeFrame_of_not_begun (s : Scan) (line : Text) (hhard : s.hardLockup = true)
    (hbegun : s.stackBegun = false) :
    s.takeFrame line = { s with stackBegun := opensStack line } := by
  rw [takeFrame, hhard, hbegun]
  rfl

theorem Scan.takeFrame_of_begun (s : Scan) (line : Text) (hhard : s.hardLockup = true)
    (hbegun : s.stackBegun = true) :
    s.takeFrame line =
      if isFrame line = true ∧ s.frameCount < frameBudget
      then { s with
        frames := s.frames ++ KernelFrame.functionOf line
        frameCount := s.frameCount + 1 }
      else s := by
  rw [takeFrame, if_neg (by simp [hhard]), if_neg (by simp [hbegun]), isFrame]
  by_cases hroom : s.frameCount < frameBudget
  · rw [if_pos hroom]
    cases KernelFrame.functionOf line <;> simp [hroom]
  · rw [if_neg hroom, if_neg fun h => hroom h.2]

/-- What the scan knows of the stack after some lines. It only looks for it in a hard lockup. -/
structure StackTold (lines : List Text) (s : Scan) : Prop where
  stackBegun : s.stackBegun = (isHardLockup lines && (Places.first stackAt lines).isSome)
  frames : s.frames = if isHardLockup lines then lockupText lines else []
  frameCount : s.frameCount = if isHardLockup lines then (lockupFrames lines).length else 0

namespace StackTold

theorem initial : StackTold [] .initial := ⟨rfl, rfl, rfl⟩

theorem takePointer (h : StackTold lines s) (line : Text) :
    StackTold lines (s.takePointer line) := by
  obtain ⟨_, _, _, hs⟩ := s.exists_takePointer line
  exact hs ▸ ⟨h.stackBegun, h.frames, h.frameCount⟩

theorem takeName (h : StackTold lines s) (line : Text) : StackTold lines (s.takeName line) := by
  obtain ⟨_, _, _, hs⟩ := s.exists_takeName line
  exact hs ▸ ⟨h.stackBegun, h.frames, h.frameCount⟩

theorem takePanic (h : StackTold lines s) (line : Text) : StackTold lines (s.takePanic line) := by
  obtain ⟨_, _, hs⟩ := s.exists_takePanic line
  exact hs ▸ ⟨h.stackBegun, h.frames, h.frameCount⟩

theorem of_hardLockup (h : StackTold lines s) (hhard : isHardLockup (lines ++ [line]) = true) :
    s.stackBegun = (Places.first stackAt lines).isSome ∧ s.frames = lockupText lines ∧
      s.frameCount = (lockupFrames lines).length := by
  rw [h.stackBegun, h.frames, h.frameCount]
  rcases isHardLockup_or_of_concat hhard with hbefore | hpanic
  · rw [hbefore]
    exact ⟨Bool.true_and _, if_pos rfl, if_pos rfl⟩
  · -- the panic is in the new line, and nothing can have been taken before
    have hstack := stackLine_of_no_panic hpanic
    rw [isHardLockup, hpanic, hstack, lockupText, lockupFrames_of_no_stack hstack]
    exact ⟨rfl, rfl, rfl⟩

theorem takeFrame_of_not_begun (h : StackTold lines s)
    (hlockup : isHardLockup (lines ++ [line]) = true) (hopen : Places.first stackAt lines = none) :
    StackTold (lines ++ [line]) { s with stackBegun := opensStack line } := by
  obtain ⟨-, hframes, hcount⟩ := h.of_hardLockup hlockup
  have hpanic : (panicLine (lines ++ [line])).isSome = true := Option.isSome_of_any hlockup
  have htaken : lockupFrames (lines ++ [line]) = lockupFrames lines := by
    rw [lockupFrames_concat, hopen]
    exact if_neg fun h => Bool.false_ne_true h.1
  refine ⟨?_, ?_, ?_⟩
  · rw [stackLine_concat, hopen, hlockup, hpanic]
    cases opensStack line <;> rfl
  · rw [hlockup, if_pos rfl, lockupText, htaken]
    exact hframes
  · rw [hlockup, if_pos rfl, htaken]
    exact hcount

theorem takeFrame_of_begun {m : Nat} (h : StackTold lines s)
    (hlockup : isHardLockup (lines ++ [line]) = true)
    (hopen : Places.first stackAt lines = some m) :
    StackTold (lines ++ [line])
      (if isFrame line = true ∧ s.frameCount < frameBudget
        then { s with
          frames := s.frames ++ KernelFrame.functionOf line
          frameCount := s.frameCount + 1 }
        else s) := by
  obtain ⟨hbegun, hframes, hcount⟩ := h.of_hardLockup hlockup
  have hstack : Places.first stackAt (lines ++ [line]) = some m := by
    rw [stackLine_concat, hopen, Option.some_or]
  have htaken := lockupFrames_concat lines line
  rw [hopen, Option.isSome_some, Bool.true_and, ← hcount] at htaken
  have hstill : s.stackBegun = (isHardLockup (lines ++ [line]) &&
      (Places.first stackAt (lines ++ [line])).isSome) := by
    rw [hbegun, hopen, hlockup, hstack]
    rfl
  split
  · next htakes =>
      rw [if_pos htakes] at htaken
      refine ⟨hstill, ?_, ?_⟩
      · rw [hlockup, if_pos rfl, lockupText, htaken, List.flatMap_append, List.flatMap_singleton]
        exact congrArg (· ++ KernelFrame.functionOf line) hframes
      · rw [hlockup, if_pos rfl, htaken, List.length_append, List.length_singleton]
        exact congrArg (· + 1) hcount
  · next hnot =>
      rw [if_neg hnot] at htaken
      refine ⟨hstill, ?_, ?_⟩
      · rw [hlockup, if_pos rfl, lockupText, htaken]
        exact hframes
      · rw [hlockup, if_pos rfl, htaken]
        exact hcount

theorem takeFrame (h : StackTold lines s) (line : Text)
    (hhard : s.hardLockup = isHardLockup (lines ++ [line])) :
    StackTold (lines ++ [line]) (s.takeFrame line) := by
  cases hlockup : isHardLockup (lines ++ [line]) with
  | false =>
      have hbefore := isHardLockup_of_concat_eq_false hlockup
      rw [Scan.takeFrame, hhard, hlockup, Bool.not_false, if_pos rfl]
      refine ⟨?_, ?_, ?_⟩
      · rw [h.stackBegun, hlockup, hbefore, Bool.false_and, Bool.false_and]
      · rw [h.frames, hlockup, hbefore]
        rfl
      · rw [h.frameCount, hlockup, hbefore]
        rfl
  | true =>
      have hbegun := (h.of_hardLockup hlockup).1
      rw [hlockup] at hhard
      cases hopen : Places.first stackAt lines with
      | none =>
          rw [hopen, Option.isSome_none] at hbegun
          rw [s.takeFrame_of_not_begun line hhard hbegun]
          exact h.takeFrame_of_not_begun hlockup hopen
      | some m =>
          rw [hopen, Option.isSome_some] at hbegun
          rw [s.takeFrame_of_begun line hhard hbegun]
          exact h.takeFrame_of_begun hlockup hopen

theorem step (h : StackTold lines s) (hpanic : PanicTold lines s) (line : Text) :
    StackTold (lines ++ [line]) (s.step line) :=
  (((h.takePointer line).takeName line).takePanic line).takeFrame line
    (((hpanic.takePointer line).takeName line).takePanic line).hardLockup

end StackTold

theorem stackTold (lines : List Text) : StackTold lines (lines.foldl Scan.step .initial) :=
  Places.foldl_told .initial (fun before line h => h.step (panicTold before) line) lines

theorem lockupFrames_scan (lines : List Text) :
    (scan lines).lockupFrames = if isHardLockup lines then some (lockupText lines) else none := by
  rw [scan, Scan.summary, (panicTold lines).hardLockup, (stackTold lines).frames]
  cases isHardLockup lines <;> rfl

/-! ## The signature -/

/-- The first text that is not empty, or the empty text. -/
def firstFilled (texts : List Text) : Text :=
  (texts.find? (· ≠ [])).getD []

/-- The stacks that a console may show for its lockup, in the order of preference. -/
def lockupStacks (lines : List Text) : List Text :=
  if isHardLockup lines then [lockupText lines]
  else if (panicText lines).includes "softlockup" then
    [StackTrace.ofLines .ipi lines, StackTrace.ofLines .soft lines]
  else []

/-- The stack of a lockup if the console shows one, and else the pointer. -/
def signature (lines : List Text) : Text :=
  firstFilled (lockupStacks lines ++ [pointerText lines])

theorem firstFilled_singleton (text : Text) : firstFilled [text] = text := by
  cases text <;> rfl

theorem firstFilled_append (texts more : List Text) :
    firstFilled (texts ++ more) =
      if firstFilled texts = [] then firstFilled more else firstFilled texts := by
  rw [firstFilled, List.find?_append, firstFilled]
  cases hfind : texts.find? (· ≠ []) with
  | none => rfl
  | some text =>
      have hne : text ≠ [] := by simpa using List.find?_some hfind
      rw [Option.some_or, Option.getD_some, if_neg hne]

theorem panic_scan (h : isHardLockup lines = false) : (scan lines).panic = panicText lines := by
  have htold := panicTold lines
  rw [scan, Scan.summary, htold.hardLockup, h, htold.panic]
  rfl

theorem softLockupStack_eq {ε : Type} (lines : List Text) :
    softLockupStack (⟨lines, none⟩ : Lines.Stream ε) =
      .ok (firstFilled [StackTrace.ofLines .ipi lines, StackTrace.ofLines .soft lines]) := by
  rw [softLockupStack, StackTrace.ofStream_of_lines]
  cases StackTrace.ofLines .ipi lines with
  | nil =>
      show StackTrace.ofStream .soft _ =
        .ok (firstFilled ([[]] ++ [StackTrace.ofLines .soft lines]))
      rw [StackTrace.ofStream_of_lines, firstFilled_append, firstFilled_singleton, if_pos rfl,
        firstFilled_singleton]
  | cons c text => rfl

theorem lockupStack_eq {ε : Type} (lines : List Text) :
    lockupStack (scan lines) (⟨lines, none⟩ : Lines.Stream ε) =
      .ok (firstFilled (lockupStacks lines)) := by
  rw [lockupStack, lockupFrames_scan, lockupStacks]
  cases hhard : isHardLockup lines with
  | true => exact congrArg Except.ok (firstFilled_singleton _).symm
  | false =>
      simp only [Bool.false_eq_true, if_false, Summary.isSoftLockup, panic_scan hhard]
      split
      · exact softLockupStack_eq lines
      · rfl

def foundIn (fileName : Text) (lines : List Text) : Fields :=
  ⟨[(.data 0, signature lines), (.data 1, (scan lines).comm), (.data 2, (scan lines).panic)] ++
    (memory? fileName).elim [] fun memory => [(.data 3, memory)]⟩

theorem fields_eq {ε : Type} (fileName : Text) (lines : List Text) :
    fields fileName (⟨lines, none⟩ : Lines.Stream ε) = .ok (foundIn fileName lines) := by
  have hsignature : (if firstFilled (lockupStacks lines) = [] then (scan lines).instruction
      else firstFilled (lockupStacks lines)) = signature lines := by
    rw [signature, firstFilled_append, firstFilled_singleton, instruction_scan]
  have hread : Lines.Stream.readAll (⟨lines, none⟩ : Lines.Stream ε) scan = .ok (scan lines) := rfl
  rw [fields, hread]
  simp only [bind, Except.bind, lockupStack_eq, hsignature]
  rw [foundIn]
  cases memory? fileName with
  | none => rfl
  | some memory => rfl

/-- The frames of a hard lockup are the first four behind the mark that opens its stack. The fields
of a console are its signature, its thread and its panic, and the memory if the name tells it; a
console that cannot be read to its end has none. -/
theorem consoleFields_signature (files : FileTree) (path : Path) :
    (∀ lines, (scan lines).lockupFrames =
      if isHardLockup lines then some (lockupText lines) else none) ∧
    Panic.consoleFields files path =
      (Artifact.stream files path).bind fun s =>
        match s.failure with
        | some why => .error (.read path why)
        | none => .ok (foundIn (path.fileName?.getD []) s.lines) := by
  refine ⟨lockupFrames_scan, ?_⟩
  rw [Panic.consoleFields]
  cases Artifact.stream files path with
  | error e => rfl
  | ok s =>
      obtain ⟨lines, failure⟩ := s
      cases failure with
      | some why => rfl
      | none => simp only [fields_eq, Except.bind]

end CrashDigest.Console
