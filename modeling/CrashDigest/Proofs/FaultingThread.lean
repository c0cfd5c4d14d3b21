import CrashDigest.Proofs.PanicMessage

/-!
# The thread that a console names

The scan of a console keeps one name and three flags for it, and the pointer
and the panic move the flags in an order that is fixed within each line. What
comes out can be said by places alone. A name is early if its line lies before
that of the pointer and not behind that of the panic. The last early name and
the first other one are the only ones that can be reported, and which of the two
it is depends on whether the pointer comes before the other one
(`nameLine`).

The flags say of the lines so far what these places say of the whole file:
`commWaits` that there is an early name, `commClosed` that no later line can
change the choice. `NameTold` keeps this along the scan.
-/

namespace CrashDigest.Console

variable {lines : List Text} {line : Text} {s : Scan}

/-! ## Places -/

/-- The pointer that a line gives behind some others. -/
def pointerBehind (before : List Text) (line : Text) : Option Text :=
  ((pointer32.read line).or (pointer64.read line)).or
    (if before.getLast?.any (·.includes "RIP") then Token.nth Token.frameEnd 1 line else none)

def pointerAt : List Text → Nat → Bool :=
  Places.given fun before line => (pointerBehind before line).isSome

def pointerLine (lines : List Text) : Option Nat :=
  Places.first pointerAt lines

def pointerFound (lines : List Text) : Option Text :=
  (pointerLine lines).bind (Places.valueAt pointerBehind lines)

def pointerText (lines : List Text) : Text :=
  (pointerFound lines).getD []

def namesThread (line : Text) : Bool :=
  (threadName.read line).isSome

def nameAt (lines : List Text) (j : Nat) : Bool :=
  lines[j]?.any namesThread

/-- Whether a place lies before the line of the pointer and not behind that of the panic. -/
def isEarly (lines : List Text) (j : Nat) : Bool :=
  !Places.fromFirst pointerAt lines j && !Places.behindFirst panicAt lines j

def earlyName (lines : List Text) : Option Nat :=
  Places.last (fun lines j => nameAt lines j && isEarly lines j) lines

def lateName (lines : List Text) : Option Nat :=
  Places.first (fun lines j => nameAt lines j && !isEarly lines j) lines

/-- The line whose name is reported. An early name is kept for the pointer if that comes before any
late name; else the late name counts if there is one. -/
def nameLine (lines : List Text) : Option Nat :=
  match earlyName lines, pointerLine lines with
  | some e, some i => if (lateName lines).any (· < i) then lateName lines else some e
  | e, _ => (lateName lines).or e

def nameText (lines : List Text) : Text :=
  ((nameLine lines).bind (Places.valueAt (fun _ => threadName.read) lines)).getD []

/-- A name up to its first slash, unless nothing stands before that. -/
def shortName (name : Text) : Text :=
  if name.upTo "/" = [] then name else name.upTo "/"

/-! ## One more line -/

theorem pointerLine_concat (lines : List Text) (line : Text) :
    pointerLine (lines ++ [line]) =
      (pointerLine lines).or
        (if (pointerBehind lines line).isSome then some lines.length else none) :=
  Places.firstRead_concat pointerBehind lines line

theorem pointerFound_concat (lines : List Text) (line : Text) :
    pointerFound (lines ++ [line]) = (pointerFound lines).or (pointerBehind lines line) :=
  Places.bind_firstRead_concat pointerBehind lines line

theorem isEarly_looksBack : Places.LooksBack isEarly :=
  (Places.looksBack_fromFirst (Places.looksBack_given _)).not.and
    (Places.looksBack_behindFirst panicAt_looksBack).not

/-- Whether the pointer or the panic is known when the name of a line is taken. -/
def isFaultKnown (lines : List Text) (line : Text) : Bool :=
  (pointerLine (lines ++ [line])).isSome || (panicLine lines).isSome

theorem isEarly_concat (lines : List Text) (line : Text) :
    isEarly (lines ++ [line]) lines.length = !isFaultKnown lines line := by
  rw [isEarly, Places.fromFirst_concat, Places.behindFirst_concat panicAt_looksBack,
    ← Bool.not_or]
  rfl

theorem nameAt_looksBack : Places.LooksBack nameAt :=
  Places.looksBack_line namesThread

theorem nameAt_concat (lines : List Text) (line : Text) :
    nameAt (lines ++ [line]) lines.length = namesThread line :=
  Places.any_concat_length namesThread lines line

theorem earlyName_concat (lines : List Text) (line : Text) :
    earlyName (lines ++ [line]) =
      if namesThread line && !isFaultKnown lines line then some lines.length
      else earlyName lines := by
  rw [earlyName, Places.last_concat (nameAt_looksBack.and isEarly_looksBack), nameAt_concat,
    isEarly_concat, earlyName]

theorem lateName_concat (lines : List Text) (line : Text) :
    lateName (lines ++ [line]) =
      (lateName lines).or
        (if namesThread line && isFaultKnown lines line then some lines.length else none) := by
  rw [lateName, Places.first_concat (nameAt_looksBack.and isEarly_looksBack.not), nameAt_concat,
    isEarly_concat, Bool.not_not, lateName]

/-- A name is late only because of a pointer or a panic. -/
theorem isFaultKnown_of_lateName {n : Nat} (h : lateName lines = some n) (line : Text) :
    isFaultKnown lines line = true := by
  have hnot := (Bool.and_eq_true_iff.mp (Places.holds_of_first h)).2
  rw [isFaultKnown, pointerLine_concat]
  cases hpointer : pointerLine lines with
  | some i => rfl
  | none =>
      cases hpanic : panicLine lines with
      | some p => exact Bool.or_true _
      | none =>
          rw [pointerLine] at hpointer
          rw [panicLine] at hpanic
          rw [isEarly, Places.fromFirst, hpointer, Places.behindFirst, hpanic] at hnot
          cases hnot

/-- Whether no later line can change which name is reported, once a pointer is known or not. -/
def isSettled (lines : List Text) (pointer : Option Nat) : Bool :=
  (lateName lines).isSome || (pointer.isSome && (earlyName lines).isSome)

/-- Nothing is settled before the fault is known. -/
theorem isFaultKnown_of_isSettled (h : isSettled lines (pointerLine (lines ++ [line])) = true) :
    isFaultKnown lines line = true := by
  cases hlate : lateName lines with
  | some n => exact isFaultKnown_of_lateName hlate line
  | none =>
      rw [isSettled, hlate, Option.isSome_none, Bool.false_or, Bool.and_eq_true] at h
      rw [isFaultKnown, h.1, Bool.true_or]

theorem nameLine_of_no_late (h : lateName lines = none) : nameLine lines = earlyName lines := by
  rw [nameLine, h]
  cases earlyName lines with
  | none => rfl
  | some e => cases pointerLine lines <;> rfl

theorem nameLine_concat (lines : List Text) (line : Text) :
    nameLine (lines ++ [line]) =
      if namesThread line && !isSettled lines (pointerLine (lines ++ [line]))
      then some lines.length else nameLine lines := by
  have hearly := earlyName_concat lines line
  have hlate := lateName_concat lines line
  cases hbefore : lateName lines with
  | some n =>
      have hn : n < lines.length := Places.first_lt hbefore
      rw [isFaultKnown_of_lateName hbefore line, Bool.not_true, Bool.and_false,
        if_neg Bool.false_ne_true] at hearly
      rw [hbefore, Option.some_or] at hlate
      rw [isSettled, hbefore, Option.isSome_some, Bool.true_or, Bool.not_true, Bool.and_false,
        if_neg Bool.false_ne_true, nameLine, nameLine, hearly, hlate, hbefore, pointerLine_concat]
      cases earlyName lines with
      | none => rfl
      | some e =>
          cases pointerLine lines with
          | some i => rfl
          | none => cases (pointerBehind lines line).isSome <;> simp [hn]
  | none =>
      rw [hbefore, Option.none_or] at hlate
      rw [isSettled, hbefore, Option.isSome_none, Bool.false_or, nameLine_of_no_late hbefore]
      cases hnames : namesThread line with
      | false =>
          rw [hnames] at hearly hlate
          exact (nameLine_of_no_late hlate).trans hearly
      | true =>
          rw [hnames, Bool.true_and] at hearly hlate
          cases hknown : isFaultKnown lines line with
          | false =>
              -- the name is early, and there is no pointer yet
              rw [hknown] at hearly hlate
              have hpointer := (Bool.or_eq_false_iff.mp hknown).1
              rw [hpointer]
              exact (nameLine_of_no_late hlate).trans hearly
          | true =>
              rw [hknown] at hearly hlate
              rw [nameLine, hlate, hearly]
              cases earlyName lines with
              | none => cases pointerLine (lines ++ [line]) <;> rfl
              | some e =>
                  cases hpointer : pointerLine (lines ++ [line]) with
                  | none => rfl
                  | some i =>
                      have hi := Places.first_lt hpointer
                      rw [List.length_append, List.length_singleton] at hi
                      have hnot : ¬ lines.length < i := by omega
                      simp [hnot]

theorem nameLine_lt {j : Nat} (h : nameLine lines = some j) : j < lines.length := by
  have hlate : lateName lines = some j → j < lines.length := Places.first_lt
  have hearly : earlyName lines = some j → j < lines.length := Places.last_lt
  rw [nameLine] at h
  split at h
  · next e i he _ =>
      split at h
      · exact hlate h
      · exact hearly (he.trans h)
  · rcases Option.or_eq_some_iff.mp h with hsome | ⟨_, hsome⟩
    · exact hlate hsome
    · exact hearly hsome

theorem nameText_concat (lines : List Text) (line : Text) :
    nameText (lines ++ [line]) =
      if namesThread line && !isSettled lines (pointerLine (lines ++ [line]))
      then (threadName.read line).getD [] else nameText lines := by
  rw [nameText, nameLine_concat]
  split
  · rw [Option.bind_some, Places.valueAt_concat]
  · rw [nameText]
    cases hname : nameLine lines with
    | none => rfl
    | some j => rw [Option.bind_some, Option.bind_some, Places.valueAt_of_lt (nameLine_lt hname)]

theorem isSettled_concat (lines : List Text) (line : Text) :
    isSettled (lines ++ [line]) (pointerLine (lines ++ [line])) =
      (isSettled lines (pointerLine (lines ++ [line])) ||
        (namesThread line && isFaultKnown lines line)) := by
  rw [isSettled, isSettled, lateName_concat, earlyName_concat]
  cases hpointer : (pointerLine (lines ++ [line])).isSome with
  | true =>
      have hknown : isFaultKnown lines line = true := by rw [isFaultKnown, hpointer, Bool.true_or]
      cases namesThread line <;> cases lateName lines <;> simp [hknown]
  | false =>
      cases namesThread line <;> cases isFaultKnown lines line <;> cases lateName lines <;> rfl

/-! ## The pointer -/

theorem isSome_pointerFound (lines : List Text) :
    (pointerFound lines).isSome = (pointerLine lines).isSome :=
  Places.isSome_bind_firstRead pointerBehind lines

/-- What the scan knows of the pointer after some lines. Once it is found, nothing else matters. -/
structure PointerTold (lines : List Text) (s : Scan) : Prop where
  instruction : s.instruction = .firstWith (pointerFound lines)
  behindRip : pointerFound lines = none →
    s.behindRip = lines.getLast?.any (·.includes "RIP")

namespace PointerTold

theorem initial : PointerTold [] .initial := ⟨rfl, fun _ => rfl⟩

theorem isFound (h : PointerTold lines s) : s.instruction.isFound = (pointerLine lines).isSome := by
  rw [h.instruction, ← isSome_pointerFound]
  rfl

theorem takePointer (h : PointerTold lines s) (line : Text) :
    PointerTold (lines ++ [line]) (s.takePointer line) := by
  have hfound := pointerFound_concat lines line
  cases hbefore : pointerFound lines with
  | some pointer =>
      rw [hbefore, Option.some_or] at hfound
      have hclosed : s.instruction.isOpen = false := by rw [h.instruction, hbefore]; rfl
      rw [Scan.takePointer, if_neg (by simp [hclosed])]
      refine ⟨?_, fun hnone => ?_⟩
      · rw [h.instruction, hbefore, hfound]
      · cases hfound.symm.trans hnone
  | none =>
      rw [hbefore, Option.none_or] at hfound
      have hopen : s.instruction.isOpen = true := by rw [h.instruction, hbefore]; rfl
      have hpointer : Scan.pointerOn s.behindRip line = pointerBehind lines line := by
        rw [h.behindRip hbefore]
        rfl
      rw [Scan.takePointer, if_pos hopen]
      refine ⟨?_, fun _ => ?_⟩
      · rw [hfound, ← hpointer, h.instruction, hbefore]
        exact Slot.offer_firstWith none _
      · rw [List.getLast?_concat]
        rfl

theorem takeName (h : PointerTold lines s) (line : Text) :
    PointerTold lines (s.takeName line) := by
  obtain ⟨_, _, _, hs⟩ := s.exists_takeName line
  exact hs ▸ ⟨h.instruction, h.behindRip⟩

theorem takePanic (h : PointerTold lines s) (line : Text) :
    PointerTold lines (s.takePanic line) := by
  obtain ⟨_, _, hs⟩ := s.exists_takePanic line
  exact hs ▸ ⟨h.instruction, h.behindRip⟩

theorem takeFrame (h : PointerTold lines s) (line : Text) :
    PointerTold lines (s.takeFrame line) := by
  obtain ⟨_, _, _, hs⟩ := s.exists_takeFrame line
  exact hs ▸ ⟨h.instruction, h.behindRip⟩

theorem step (h : PointerTold lines s) (line : Text) :
    PointerTold (lines ++ [line]) (s.step line) :=
  (((h.takePointer line).takeName line).takePanic line).takeFrame line

end PointerTold

/-! ## The name -/

/-- What the scan knows of the name after some lines, when a pointer is known or not. -/
structure NameTold (lines : List Text) (pointer : Option Nat) (s : Scan) : Prop where
  comm : s.comm = nameText lines
  commWaits : s.commWaits = (earlyName lines).isSome
  commClosed : s.commClosed = isSettled lines pointer

namespace NameTold

theorem initial : NameTold [] none .initial := ⟨rfl, rfl, rfl⟩

/-- The pointer settles a name that waits for it. -/
theorem takePointer (h : NameTold lines (pointerLine lines) s) (hpointer : PointerTold lines s)
    (line : Text) :
    NameTold lines (pointerLine (lines ++ [line])) (s.takePointer line) := by
  have hline := pointerLine_concat lines line
  have hsome := isSome_pointerFound lines
  cases hbefore : pointerFound lines with
  | some pointer =>
      rw [hbefore, eq_comm] at hsome
      obtain ⟨i, hi⟩ := Option.isSome_iff_exists.mp hsome
      have hclosed : s.instruction.isOpen = false := by rw [hpointer.instruction, hbefore]; rfl
      rw [Scan.takePointer, if_neg (by simp [hclosed]), hline, hi, Option.some_or, ← hi]
      exact h
  | none =>
      have hnone : pointerLine lines = none := by
        rw [hbefore, eq_comm] at hsome
        exact Option.isNone_iff_eq_none.mp (Option.isSome_eq_false_iff.mp hsome)
      have hopen : s.instruction.isOpen = true := by rw [hpointer.instruction, hbefore]; rfl
      have hread : Scan.pointerOn s.behindRip line = pointerBehind lines line := by
        rw [hpointer.behindRip hbefore]
        rfl
      rw [Scan.takePointer, if_pos hopen]
      refine ⟨h.comm, h.commWaits, ?_⟩
      simp only [hread]
      rw [h.commClosed, h.commWaits, hline, hnone, Option.none_or, hpointer.instruction, hbefore,
        Slot.takes_firstWith_none, isSettled, isSettled]
      cases (pointerBehind lines line).isSome <;> simp

/-- A name is final if the pointer or the panic is known by then. -/
theorem takeName (h : NameTold lines (pointerLine (lines ++ [line])) s)
    (hknown : (s.instruction.isFound || s.panic.isFound) = isFaultKnown lines line) :
    NameTold (lines ++ [line]) (pointerLine (lines ++ [line])) (s.takeName line) := by
  have hcomm := nameText_concat lines line
  have hwaits := earlyName_concat lines line
  have hclosed := isSettled_concat lines line
  rw [Scan.takeName, h.commClosed]
  cases hsettled : isSettled lines (pointerLine (lines ++ [line])) with
  | true =>
      rw [isFaultKnown_of_isSettled hsettled] at hwaits
      rw [hsettled] at hcomm hclosed
      refine ⟨h.comm.trans ?_, h.commWaits.trans ?_, h.commClosed.trans ?_⟩
      · simp [hcomm]
      · simp [hwaits]
      · simp [hsettled, hclosed]
  | false =>
      rw [hsettled] at hcomm hclosed
      cases hname : threadName.read line with
      | none =>
          have hnot : namesThread line = false := by rw [namesThread, hname]; rfl
          rw [hnot] at hcomm hwaits hclosed
          refine ⟨h.comm.trans ?_, h.commWaits.trans ?_, h.commClosed.trans ?_⟩
          · simp [hcomm]
          · simp [hwaits]
          · simp [hsettled, hclosed]
      | some name =>
          have hnames : namesThread line = true := by rw [namesThread, hname]; rfl
          rw [hnames] at hcomm hwaits hclosed
          rw [hname] at hcomm
          simp only [hknown]
          cases hfault : isFaultKnown lines line with
          | true =>
              rw [hfault] at hwaits hclosed
              exact ⟨hcomm.symm, h.commWaits.trans (by simp [hwaits]), hclosed.symm⟩
          | false =>
              rw [hfault] at hwaits hclosed
              exact ⟨hcomm.symm, by simp [hwaits], hclosed.symm⟩

theorem takePanic {pointer : Option Nat} (h : NameTold lines pointer s) (line : Text) :
    NameTold lines pointer (s.takePanic line) := by
  obtain ⟨_, _, hs⟩ := s.exists_takePanic line
  exact hs ▸ ⟨h.comm, h.commWaits, h.commClosed⟩

theorem takeFrame {pointer : Option Nat} (h : NameTold lines pointer s) (line : Text) :
    NameTold lines pointer (s.takeFrame line) := by
  obtain ⟨_, _, _, hs⟩ := s.exists_takeFrame line
  exact hs ▸ ⟨h.comm, h.commWaits, h.commClosed⟩

end NameTold

structure FaultTold (lines : List Text) (s : Scan) : Prop where
  pointer : PointerTold lines s
  panic : PanicTold lines s
  name : NameTold lines (pointerLine lines) s

theorem FaultTold.step (h : FaultTold lines s) (line : Text) :
    FaultTold (lines ++ [line]) (s.step line) := by
  have hpointer := h.pointer.takePointer line
  have hpanic := h.panic.takePointer line
  have hknown : ((s.takePointer line).instruction.isFound || (s.takePointer line).panic.isFound) =
      isFaultKnown lines line := by
    rw [hpointer.isFound, hpanic.isFound]
    rfl
  exact ⟨h.pointer.step line, h.panic.step line,
    (((h.name.takePointer h.pointer line).takeName hknown).takePanic line).takeFrame line⟩

theorem faultTold (lines : List Text) : FaultTold lines (lines.foldl Scan.step .initial) :=
  Places.foldl_told ⟨.initial, .initial, .initial⟩ (fun _ line h => h.step line) lines

theorem instruction_scan (lines : List Text) : (scan lines).instruction = pointerText lines :=
  congrArg Slot.text (faultTold lines).pointer.instruction

theorem finalName_eq (comm panic : Text) :
    finalName comm panic =
      if panic.includes "Fatal exception in interrupt" then [] else shortName comm := by
  rw [finalName, Token.slash, headOr_word (by decide), ← shortName]
  split
  · rfl
  · split
    · rfl
    · next hslash =>
        -- without a slash the name ends nowhere
        have hcut : comm.cut "/" = none := by simpa [Text.includes] using hslash
        rw [shortName, Text.upTo, hcut]
        exact (ite_self comm).symm

/-- The pointer of a console is that of the first line that gives one. The thread is named by the
line that the places of the pointer, the panic and the names choose, without the number of the
processor; a fault in an interrupt belongs to no thread. -/
theorem scan_names_thread (lines : List Text) :
    (scan lines).instruction = pointerText lines ∧
    (scan lines).comm =
      if (panicText lines).includes "Fatal exception in interrupt" then []
      else shortName (nameText lines) := by
  refine ⟨instruction_scan lines, ?_⟩
  have hcomm := (faultTold lines).name.comm
  have hpanic : (lines.foldl Scan.step .initial).panic.text = panicText lines :=
    congrArg Slot.text (panicTold lines).panic
  rw [scan, Scan.summary, finalName_eq, hcomm, hpanic]

end CrashDigest.Console
