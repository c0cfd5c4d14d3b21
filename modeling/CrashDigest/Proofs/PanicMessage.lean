import CrashDigest.Dump.Console
import CrashDigest.Proofs.Places
import CrashDigest.Proofs.SlotRow
import CrashDigest.Proofs.WordTokens

/-!
# The panic in a console

A line says panic if it has the words of the kernel in it, and then there is
always a message behind them, at least the space (`read_panicMessage`). So the
first message that the scan of a console finds is that of the first line that
says panic, and this line alone decides whether the panic is for a hard lockup.
`PanicTold` keeps both along the scan.
-/

namespace CrashDigest.Console

variable {lines : List Text} {line : Text} {s : Scan}

/-! ## The message in a line -/

def saysPanic (line : Text) : Bool :=
  line.includes "Kernel panic - not syncing: "

/-- The message is the text behind the first colon up to the next one. -/
theorem read_panicMessage (line : Text) :
    panicMessage.read line =
      (line.cut "Kernel panic - not syncing: ").map fun (_, after) =>
        Text.upTo (' ' :: after) ":" := by
  rw [Probe.read, panicMessage, Piece.of]
  cases line.cut "Kernel panic - not syncing: " with
  | none => rfl
  | some found =>
      obtain ⟨before, after⟩ := found
      have hwords : ("Kernel panic - not syncing: " : Text) =
          ("Kernel panic - not syncing" : Text) ++ [':', ' '] := by decide
      have hcolon : ':' ∉ ("Kernel panic - not syncing" : Text) := by decide
      have hcut : Text.cut ("Kernel panic - not syncing: ".toList ++ after) ":" =
          some (("Kernel panic - not syncing" : Text), ' ' :: after) := by
        rw [hwords, List.append_assoc]
        exact Text.cut_singleton_append hcolon (' ' :: after)
      have hne : Text.upTo (' ' :: after) ":" ≠ [] := by
        rw [Text.upTo]
        cases hcolon : Text.cut (' ' :: after) ":" with
        | none => exact List.cons_ne_nil _ _
        | some cut =>
            rintro hempty
            have hspace := Text.cut_eq_some hcolon
            rw [show cut.1 = [] from hempty] at hspace
            cases hspace
      exact (Token.nth_one_word (by decide) hne).mpr ⟨_, _, hcut, rfl⟩

theorem isSome_read_panicMessage (line : Text) :
    (panicMessage.read line).isSome = saysPanic line := by
  rw [read_panicMessage, Option.isSome_map, saysPanic, Text.includes]

/-- What stands before the first occurrence of a word, unless that is nothing. -/
theorem headOr_word {w : Text} (hw : w ≠ []) (text : Text) :
    headOr (.word w) text = if text.upTo w = [] then text else text.upTo w := by
  rw [headOr]
  split
  · next hnone =>
      split
      · rfl
      · next hne =>
          rw [(Token.nth_zero_word hw hne).mpr rfl] at hnone
          cases hnone
  · next hempty =>
      split
      · rfl
      · next hne =>
          rw [(Token.nth_zero_word hw hne).mpr rfl] at hempty
          exact absurd (Option.some.inj hempty) hne
  · next head hne hhead =>
      have hupTo := (Token.nth_zero_word hw hne).mp hhead
      rw [hupTo, if_neg hne]

/-! ## The line of the panic -/

def panicAt (lines : List Text) (j : Nat) : Bool :=
  lines[j]?.any saysPanic

def panicLine (lines : List Text) : Option Nat :=
  Places.first panicAt lines

def panicFound (lines : List Text) : Option Text :=
  (panicLine lines).bind (Places.valueAt (fun _ => panicMessage.read) lines)

def panicText (lines : List Text) : Text :=
  (panicFound lines).getD []

/-- Whether the line of the panic says that it is for a hard lockup. -/
def isHardLockup (lines : List Text) : Bool :=
  (panicLine lines).any fun p => lines[p]?.any (·.includes "hard LOCKUP")

theorem panicAt_looksBack : Places.LooksBack panicAt :=
  Places.looksBack_line saysPanic

theorem panicLine_concat (lines : List Text) (line : Text) :
    panicLine (lines ++ [line]) =
      (panicLine lines).or (if saysPanic line then some lines.length else none) := by
  rw [panicLine, Places.first_concat panicAt_looksBack, panicAt, Places.any_concat_length,
    panicLine]

/-- The line of the panic is the first one that a message can be read off. -/
theorem panicLine_eq (lines : List Text) :
    panicLine lines = Places.firstRead (fun _ => panicMessage.read) lines := by
  simp only [Places.firstRead, isSome_read_panicMessage]
  rfl

theorem panicFound_concat (lines : List Text) (line : Text) :
    panicFound (lines ++ [line]) = (panicFound lines).or (panicMessage.read line) := by
  rw [panicFound, panicLine_eq, Places.bind_firstRead_concat, ← panicLine_eq, panicFound]

theorem isSome_panicFound (lines : List Text) :
    (panicFound lines).isSome = (panicLine lines).isSome := by
  rw [panicFound, panicLine_eq, Places.isSome_bind_firstRead]

theorem isHardLockup_concat (lines : List Text) (line : Text) :
    isHardLockup (lines ++ [line]) =
      if (panicLine lines).isSome then isHardLockup lines
      else saysPanic line && line.includes "hard LOCKUP" := by
  rw [isHardLockup, panicLine_concat, isHardLockup]
  cases hpanic : panicLine lines with
  | some p =>
      rw [Option.some_or, Option.any_some, List.getElem?_append_left (Places.first_lt hpanic)]
      rfl
  | none =>
      rw [Option.none_or]
      cases saysPanic line with
      | true => exact Places.any_concat_length _ lines line
      | false => rfl

/-- A panic that is not for a hard lockup stays so, and one that is stays so as well. -/
theorem isHardLockup_of_concat_eq_false (h : isHardLockup (lines ++ [line]) = false) :
    isHardLockup lines = false := by
  rw [isHardLockup_concat] at h
  cases hpanic : panicLine lines with
  | some p => rwa [hpanic, Option.isSome_some, if_pos rfl] at h
  | none => rw [isHardLockup, hpanic]; rfl

theorem isHardLockup_or_of_concat (h : isHardLockup (lines ++ [line]) = true) :
    isHardLockup lines = true ∨ panicLine lines = none := by
  rw [isHardLockup_concat] at h
  cases hpanic : panicLine lines with
  | some p =>
      rw [hpanic, Option.isSome_some, if_pos rfl] at h
      exact .inl h
  | none => exact .inr rfl

/-! ## The scan

Each part of a step writes its own fields and leaves the others alone. -/

namespace Scan

theorem exists_takePointer (s : Scan) (line : Text) :
    ∃ instruction behindRip commClosed,
      s.takePointer line = { s with instruction, behindRip, commClosed } := by
  unfold takePointer
  split
  · exact ⟨_, _, _, rfl⟩
  · exact ⟨_, _, _, rfl⟩

theorem exists_takeName (s : Scan) (line : Text) :
    ∃ comm commWaits commClosed, s.takeName line = { s with comm, commWaits, commClosed } := by
  unfold takeName
  split
  · exact ⟨_, _, _, rfl⟩
  · split
    · exact ⟨_, _, _, rfl⟩
    · split
      · exact ⟨_, _, _, rfl⟩
      · exact ⟨_, _, _, rfl⟩

theorem exists_takePanic (s : Scan) (line : Text) :
    ∃ panic hardLockup, s.takePanic line = { s with panic, hardLockup } := by
  unfold takePanic
  simp only []
  split
  · exact ⟨_, _, rfl⟩
  · exact ⟨_, _, rfl⟩

theorem exists_takeFrame (s : Scan) (line : Text) :
    ∃ stackBegun frames frameCount,
      s.takeFrame line = { s with stackBegun, frames, frameCount } := by
  unfold takeFrame
  split
  · exact ⟨_, _, _, rfl⟩
  · split
    · exact ⟨_, _, _, rfl⟩
    · split
      · split
        · exact ⟨_, _, _, rfl⟩
        · exact ⟨_, _, _, rfl⟩
      · exact ⟨_, _, _, rfl⟩

end Scan

structure PanicTold (lines : List Text) (s : Scan) : Prop where
  panic : s.panic = .firstWith (panicFound lines)
  hardLockup : s.hardLockup = isHardLockup lines

namespace PanicTold

theorem initial : PanicTold [] .initial := ⟨rfl, rfl⟩

theorem isFound (h : PanicTold lines s) : s.panic.isFound = (panicLine lines).isSome := by
  rw [h.panic, ← isSome_panicFound]
  rfl

theorem takePointer (h : PanicTold lines s) (line : Text) :
    PanicTold lines (s.takePointer line) := by
  obtain ⟨_, _, _, hs⟩ := s.exists_takePointer line
  exact hs ▸ ⟨h.panic, h.hardLockup⟩

theorem takeName (h : PanicTold lines s) (line : Text) : PanicTold lines (s.takeName line) := by
  obtain ⟨_, _, _, hs⟩ := s.exists_takeName line
  exact hs ▸ ⟨h.panic, h.hardLockup⟩

theorem takePanic (h : PanicTold lines s) (line : Text) :
    PanicTold (lines ++ [line]) (s.takePanic line) := by
  have hpanic : (s.takePanic line).panic = s.panic.offer (panicMessage.read line) := by
    unfold Scan.takePanic Slot.offer
    simp only []
    split
    · rfl
    · rfl
  have htakes : s.panic.takes (panicMessage.read line) =
      (saysPanic line && (panicLine lines).isNone) := by
    rw [h.panic, Slot.takes, isSome_read_panicMessage, ← Option.not_isSome, ← isSome_panicFound,
      Option.not_isSome]
    rfl
  refine ⟨?_, ?_⟩
  · rw [hpanic, h.panic, Slot.offer_firstWith, panicFound_concat]
  · rw [isHardLockup_concat, Scan.takePanic, htakes, isHardLockup]
    cases hline : panicLine lines with
    | some p => simp [h.hardLockup, isHardLockup, hline]
    | none => cases hsays : saysPanic line <;> simp [h.hardLockup, isHardLockup, hline]

theorem takeFrame (h : PanicTold lines s) (line : Text) : PanicTold lines (s.takeFrame line) := by
  obtain ⟨_, _, _, hs⟩ := s.exists_takeFrame line
  exact hs ▸ ⟨h.panic, h.hardLockup⟩

theorem step (h : PanicTold lines s) (line : Text) :
    PanicTold (lines ++ [line]) (s.step line) :=
  (((h.takePointer line).takeName line).takePanic line).takeFrame line

end PanicTold

theorem panicTold (lines : List Text) : PanicTold lines (lines.foldl Scan.step .initial) :=
  Places.foldl_told .initial (fun _ line h => h.step line) lines

end CrashDigest.Console
