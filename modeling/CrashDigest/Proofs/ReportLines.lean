import CrashDigest.Dump.JavaCrash
import CrashDigest.Proofs.CharTokens
import CrashDigest.Proofs.Labelled
import CrashDigest.Proofs.Places
import CrashDigest.Proofs.SlotRow

/-!
# The lines of a Java report

One pass looks for four things, and a line may be several of them at once: a
cause or the process can pass for a frame as well, and is then the line before
the next one too. The four do not get in each other's way, and each is said by
the lines alone (`scan_of_lines`).

The line before the first frame is kept when the frame comes and not looked at
again. The frames have a budget, the causes have none: a cause that comes after
the last frame that is kept still counts.
-/

namespace CrashDigest.JavaCrash

variable {lines : List Text} {line token before after : Text} {s : Scan}

/-! ## What a line says -/

def isFrame (line : Text) : Bool :=
  (methodOf frame line).isSome

def startsCause (line : Text) : Bool :=
  line.startsWith "Caused by:"

/-- Everything behind the first colon. -/
def behindColon (line : Text) : Text :=
  (line.dropWhile (· ≠ ':')).tail

theorem behindColon_append (h : ':' ∉ before) (after : Text) :
    behindColon (before ++ ':' :: after) = after := by
  rw [behindColon, List.dropWhile_append_of_pos (Text.forall_ne_of_not_mem h)]
  simp

/-- The cause is what follows its own colon, whatever colons come later. -/
theorem read_causedBy (line : Text) :
    causedBy.read line = if startsCause line then some (behindColon line) else none := by
  rw [Probe.read, causedBy, Piece.of, startsCause]
  split
  · next hstart =>
      obtain ⟨message, rfl⟩ := Text.startsWith_iff.mp hstart
      have hcolon : ':' ∉ ("Caused by" : Text) := by decide
      have hline : ("Caused by:" : Text) ++ message = ("Caused by" : Text) ++ ':' :: message := rfl
      rw [hline, behindColon_append hcolon]
      exact Token.nthOnward_one (w := [':']) (List.cons_ne_nil _ _)
        (Text.cut_singleton_append hcolon message)
  · rfl

theorem findSome?_causedBy (lines : List Text) :
    lines.findSome? causedBy.read = (lines.find? startsCause).map behindColon := by
  induction lines with
  | nil => rfl
  | cons line lines ih =>
      rw [List.findSome?_cons, List.find?_cons, read_causedBy]
      cases startsCause line with
      | true => rfl
      | false => exact ih

/-- The process is the text between the first two colons of a line that speaks of one. -/
theorem read_processLine :
    processLine.read line = some token ↔
      ("Process:" : Text) <:+: line ∧ ∃ before after, line = before ++ ':' :: after ∧
        ':' ∉ before ∧ (∃ c ∈ after, c ≠ ':') ∧ token = after.takeWhile (· ≠ ':') := by
  have htoken : Token.nth Token.colon 1 line = some token ↔ _ :=
    Token.nth_one_char_eq_some_iff (c := ':')
  rw [← htoken, ← Text.includes_iff, Probe.read, processLine, Piece.of]
  split
  · next hword => exact (and_iff_right hword).symm
  · next hword => exact iff_of_false (Option.some_ne_none token).symm fun h => hword h.1

/-! ## The scan -/

/-- The methods of the frames in some lines. -/
def methods (lines : List Text) : List Text :=
  lines.filterMap (methodOf frame)

/-- The line before the first frame, if there is such a line. -/
def exceptionLine (lines : List Text) : Option Text :=
  match lines.findIdx? isFrame with
  | some (j + 1) => lines[j]?
  | _ => none

theorem exceptionLine_concat (lines : List Text) (line : Text) :
    exceptionLine (lines ++ [line]) =
      if lines.any isFrame then exceptionLine lines
      else if isFrame line then lines.getLast? else none := by
  have hany : lines.any isFrame = (lines.findIdx? isFrame).isSome := List.findIdx?_isSome.symm
  rw [exceptionLine, List.findIdx?_append, List.findIdx?_singleton, exceptionLine, hany]
  cases hfirst : lines.findIdx? isFrame with
  | some j =>
      have hj := (List.findIdx?_eq_some_iff_findIdx_eq.mp hfirst).1
      cases j with
      | zero => rfl
      | succ j => exact List.getElem?_append_left (Nat.lt_of_succ_lt hj)
  | none =>
      cases isFrame line with
      | false => rfl
      | true =>
          cases lines using List.reverseRecOn with
          | nil => rfl
          | append_singleton lines last => simp

theorem methods_eq_nil_iff : methods lines = [] ↔ lines.any isFrame = false := by
  rw [methods, List.filterMap_eq_nil_iff, List.any_eq_false]
  simp [isFrame]

theorem exceptionLine_of_no_frame (h : lines.any isFrame = false) : exceptionLine lines = none := by
  have hnone : lines.findIdx? isFrame = none := by
    rw [← Option.not_isSome_iff_eq_none, List.findIdx?_isSome, h]
    exact Bool.false_ne_true
  rw [exceptionLine, hnone]

namespace Scan

/-- A frame changes the frames and the line before them, and nothing else. -/
theorem exists_takeFrame (s : Scan) (line : Text) :
    ∃ exception frames,
      s.takeFrame line = { s with exception := exception, frames := frames } := by
  rw [takeFrame]
  split
  · split
    · exact ⟨_, _, rfl⟩
    · exact ⟨_, _, rfl⟩
  · exact ⟨_, _, rfl⟩

theorem process_takeFrame (s : Scan) (line : Text) : (s.takeFrame line).process = s.process := by
  obtain ⟨exception, frames, h⟩ := exists_takeFrame s line
  rw [h]

theorem cause_takeFrame (s : Scan) (line : Text) : (s.takeFrame line).cause = s.cause := by
  obtain ⟨exception, frames, h⟩ := exists_takeFrame s line
  rw [h]

theorem process_step (s : Scan) (line : Text) :
    (s.step line).process = s.process.offer (processLine.read line) :=
  process_takeFrame _ line

theorem cause_step (s : Scan) (line : Text) :
    (s.step line).cause = s.cause.offer (causedBy.read line) :=
  cause_takeFrame _ line

theorem frames_step (s : Scan) (line : Text) :
    (s.step line).frames =
      if s.frames.length < frameBudget then s.frames ++ (methodOf frame line).toList
      else s.frames := by
  simp only [step, takeFrame]
  split
  · cases methodOf frame line with
    | none => exact (List.append_nil s.frames).symm
    | some method => rfl
  · rfl

/-- The line before is kept with the first frame and never replaced. -/
theorem exception_step (s : Scan) (line : Text) :
    (s.step line).exception =
      if s.frames = [] ∧ isFrame line then s.previous else s.exception := by
  simp only [step, takeFrame]
  split
  · cases hmethod : methodOf frame line with
    | none => simp [isFrame, hmethod]
    | some method => simp [isFrame, hmethod]
  · next hfull =>
      have hsome : s.frames ≠ [] := fun hnone => hfull (by rw [hnone]; decide)
      rw [if_neg fun h => hsome h.1]

end Scan

structure ReportTold (lines : List Text) (s : Scan) : Prop where
  process : s.process = .firstWith (lines.findSome? processLine.read)
  cause : s.cause = .lastWith (lines.reverse.findSome? causedBy.read)
  frames : s.frames = (methods lines).take frameBudget
  exception : s.exception = (exceptionLine lines).getD []
  previous : s.previous = lines.getLast?.getD []

namespace ReportTold

theorem frames_eq_nil_iff (h : ReportTold lines s) : s.frames = [] ↔ lines.any isFrame = false := by
  rw [h.frames, List.take_eq_nil_iff, methods_eq_nil_iff]
  exact or_iff_right (by decide)

theorem step (h : ReportTold lines s) (line : Text) :
    ReportTold (lines ++ [line]) (s.step line) := by
  refine ⟨?_, ?_, ?_, ?_, ?_⟩
  · rw [s.process_step, h.process, Slot.offer_firstWith, List.findSome?_append,
      List.findSome?_singleton]
  · rw [s.cause_step, h.cause, Slot.offer_lastWith, List.reverse_concat, List.findSome?_cons]
    cases causedBy.read line <;> rfl
  · rw [s.frames_step, h.frames, methods, methods, Places.take_filterMap_concat]
  · simp only [s.exception_step, h.frames_eq_nil_iff, h.previous, h.exception,
      exceptionLine_concat]
    cases hany : lines.any isFrame with
    | true => simp
    | false => cases isFrame line <;> simp [exceptionLine_of_no_frame hany]
  · rw [List.getLast?_concat]
    rfl

end ReportTold

theorem reportTold (lines : List Text) :
    ReportTold lines (lines.foldl Scan.step .initial) :=
  Places.foldl_told ⟨rfl, rfl, rfl, rfl, rfl⟩ (fun _ line h => h.step line) lines

/-- The frames are the first four, the exception is the line before the first of them, the cause is
the last one, and the process is the first one that is named. No other line has any part in them. -/
theorem scan_of_lines (lines : List Text) :
    (scan lines).frames = Text.join " " ((lines.filterMap (methodOf frame)).take 4) ∧
    (scan lines).exception =
      (match lines.findIdx? fun line => (methodOf frame line).isSome with
        | some (j + 1) => lines[j]?.getD []
        | _ => []) ∧
    (scan lines).causedBy =
      ((lines.filter (·.startsWith "Caused by:")).getLast?.map behindColon).getD [] ∧
    (scan lines).process = (lines.findSome? processLine.read).getD [] ∧
    ∀ line token, processLine.read line = some token ↔
      ("Process:" : Text) <:+: line ∧ ∃ before after, line = before ++ ':' :: after ∧
        ':' ∉ before ∧ (∃ c ∈ after, c ≠ ':') ∧ token = after.takeWhile (· ≠ ':') := by
  have h := reportTold lines
  refine ⟨congrArg (Text.join " ") h.frames, h.exception.trans ?_, ?_,
    congrArg Slot.text h.process, fun _ _ => read_processLine⟩
  · show (exceptionLine lines).getD [] = match lines.findIdx? isFrame with
      | some (j + 1) => lines[j]?.getD []
      | _ => []
    rw [exceptionLine]
    split
    · rfl
    · rfl
  · show Slot.text _ = _
    rw [h.cause, List.getLast?_filter]
    exact congrArg (Option.getD · []) (findSome?_causedBy lines.reverse)

-- The last line is the cause and passes for a frame.
example :
    scan ["Process: maps", "boom", "Caused by: no room at A.f(A.java)"] =
      ⟨" maps", " no room at A.f(A.java)", "boom", "A.f"⟩ := by
  cbv

end CrashDigest.JavaCrash
