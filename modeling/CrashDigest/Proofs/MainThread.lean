import Mathlib.Data.List.Induction
import CrashDigest.Dump.Trace
import CrashDigest.Proofs.Places
import CrashDigest.Proofs.SlotRow

/-!
# The main thread of a trace

The scan of a trace goes through its three phases by what it has read so far:
the first command line with the process in it, then the first header of a main
thread behind that line, then frames. What is known of the process may still be
nothing when a command line comes, and then any command line will do.

`scanAnr_of_places` says what is reported in terms of these two places. Process
and subject are looked for in every line, whatever the phase, and are the same
in all three reports of the dropbox.

There is no phase behind the main thread. The frames of the next thread are
taken too as long as there is room, so what is reported belongs to the main
thread alone only if that thread fills the budget or no frame follows it
(`frames_of_main_iff`).
-/

namespace CrashDigest.Trace

/-! ## Places

Line `c` confirms the process if it is a command line with what is known of the
process by then, which is the empty text as long as no line has named it. The
main thread is opened by the first header of one behind that line, and its lines
are all that follow. -/

def knownProcess (lines : List Text) : Text :=
  (lines.findSome? processLine.read).getD []

def confirmedAt (lines : List Text) (c : Nat) : Bool :=
  lines[c]?.any (confirms (knownProcess (lines.take (c + 1))))

def confirmation (lines : List Text) : Option Nat :=
  Places.first confirmedAt lines

def opensMainBehind (c : Nat) (lines : List Text) (m : Nat) : Bool :=
  c < m && lines[m]?.any opensMain

def mainHeader (lines : List Text) : Option Nat :=
  (confirmation lines).bind fun c => Places.first (opensMainBehind c) lines

def mainLines (lines : List Text) : List Text :=
  (mainHeader lines).elim [] fun m => lines.drop (m + 1)

/-- The methods of the frames in some lines. -/
def methods (lines : List Text) : List Text :=
  lines.filterMap (methodOf threadFrame)

theorem confirmedAt_looksBack : Places.LooksBack confirmedAt := by
  intro lines line c hc
  rw [confirmedAt, List.take_append_of_le_length (Nat.succ_le_of_lt hc),
    List.getElem?_append_left hc, confirmedAt]

theorem opensMainBehind_looksBack (c : Nat) : Places.LooksBack (opensMainBehind c) := by
  intro lines line m hm
  rw [opensMainBehind, List.getElem?_append_left hm, opensMainBehind]

/-! ## One more line -/

theorem confirmation_concat (lines : List Text) (line : Text) :
    confirmation (lines ++ [line]) =
      (confirmation lines).or
        (if confirms (knownProcess (lines ++ [line])) line then some lines.length else none) := by
  rw [confirmation, Places.first_concat confirmedAt_looksBack, confirmedAt,
    Places.take_concat_length, Places.any_concat_length, confirmation]

theorem opensMainBehind_concat (c : Nat) (lines : List Text) (line : Text) :
    opensMainBehind c (lines ++ [line]) lines.length =
      (decide (c < lines.length) && opensMain line) := by
  rw [opensMainBehind, Places.any_concat_length]

theorem mainHeader_concat (lines : List Text) (line : Text) :
    mainHeader (lines ++ [line]) =
      (mainHeader lines).or
        (if (confirmation lines).isSome && opensMain line then some lines.length else none) := by
  have hfirst (c : Nat) := Places.first_concat (opensMainBehind_looksBack c) lines line
  rw [mainHeader, confirmation_concat, mainHeader]
  cases hconfirmed : confirmation lines with
  | some c =>
      have hc : c < lines.length := Places.first_lt hconfirmed
      rw [Option.some_or, Option.bind_some, hfirst, opensMainBehind_concat, decide_eq_true hc]
      rfl
  | none =>
      rw [Option.none_or, Option.bind_none, Option.isSome_none, Bool.false_and]
      split
      · -- a line that confirms the process is not taken for a header as well
        have hnone : Places.first (opensMainBehind lines.length) lines = none := by
          refine List.find?_eq_none.mpr fun m hm => ?_
          have hlt := List.mem_range.mp hm
          rw [opensMainBehind, decide_eq_false (by omega), Bool.false_and]
          exact Bool.false_ne_true
        rw [Option.bind_some, hfirst, opensMainBehind_concat, hnone,
          decide_eq_false (Nat.lt_irrefl _)]
        rfl
      · rfl

theorem mainLines_concat (lines : List Text) (line : Text) :
    mainLines (lines ++ [line]) =
      if (mainHeader lines).isSome then mainLines lines ++ [line] else [] := by
  rw [mainLines, mainHeader_concat, mainLines]
  cases hheader : mainHeader lines with
  | some m =>
      obtain ⟨c, _, hfirst⟩ := Option.bind_eq_some_iff.mp hheader
      have hm := Places.first_lt hfirst
      exact List.drop_append_of_le_length (Nat.succ_le_of_lt hm)
  | none =>
      rw [Option.none_or]
      split
      · exact List.drop_of_length_le (by simp)
      · rfl

/-! ## The scans

The header is fed in the same way by all three scans, and so is what they know
of process and subject. The phase is decided by the two places. -/

theorem header_watchdog (lines : List Text) :
    (lines.foldl WatchdogScan.step .initial).header = lines.foldl Header.step .initial :=
  (List.foldl_hom WatchdogScan.header fun _ _ => rfl).symm

theorem header_anr (lines : List Text) :
    (lines.foldl AnrScan.step .initial).header = lines.foldl Header.step .initial :=
  (List.foldl_hom AnrScan.header fun _ _ => rfl).symm

theorem header_eq (lines : List Text) :
    lines.foldl Header.step .initial =
      ⟨.firstWith (lines.findSome? processLine.read),
        .firstWith (lines.findSome? subjectLine.read)⟩ := by
  induction lines using List.reverseRecOn with
  | nil => rfl
  | append_singleton lines line ih =>
      rw [List.foldl_concat, ih, Header.step, Slot.offer_firstWith, Slot.offer_firstWith,
        List.findSome?_append, List.findSome?_append, List.findSome?_singleton,
        List.findSome?_singleton]

theorem cpu_eq (lines : List Text) :
    (lines.foldl AnrScan.step .initial).cpu = .firstWith (lines.findSome? cpuTotal.read) := by
  induction lines using List.reverseRecOn with
  | nil => rfl
  | append_singleton lines line ih =>
      rw [List.foldl_concat, AnrScan.step, ih, Slot.offer_firstWith, List.findSome?_append,
        List.findSome?_singleton]

/-- The phase after some lines. -/
def phaseAfter (lines : List Text) : Phase :=
  if (mainHeader lines).isSome then .inMain
  else if (confirmation lines).isSome then .seekingMain
  else .seekingProcess

theorem nextPhase_phaseAfter (lines : List Text) (line : Text) :
    AnrScan.nextPhase (phaseAfter lines) (knownProcess (lines ++ [line])) line =
      phaseAfter (lines ++ [line]) := by
  rw [phaseAfter, phaseAfter, mainHeader_concat, confirmation_concat]
  cases hheader : mainHeader lines with
  | some m => rfl
  | none =>
      cases hconfirmed : confirmation lines with
      | some c => cases hopens : opensMain line <;> simp [AnrScan.nextPhase, hopens]
      | none =>
          cases hconfirms : confirms (knownProcess (lines ++ [line])) line <;>
            simp [AnrScan.nextPhase, hconfirms]

theorem phase_eq (lines : List Text) :
    (lines.foldl AnrScan.step .initial).phase = phaseAfter lines := by
  induction lines using List.reverseRecOn with
  | nil => rfl
  | append_singleton lines line ih =>
      have hheader : (lines.foldl AnrScan.step .initial).header.step line =
          (lines ++ [line]).foldl Header.step .initial := by
        rw [header_anr, List.foldl_concat]
      have hprocess : ((lines.foldl AnrScan.step .initial).header.step line).process.text =
          knownProcess (lines ++ [line]) := by
        rw [hheader, header_eq]
        rfl
      rw [List.foldl_concat, ← nextPhase_phaseAfter, ← hprocess, ← ih]
      rfl

theorem takeFrame_take (lines : List Text) (line : Text) :
    takeFrame ((methods lines).take frameBudget) line =
      (methods (lines ++ [line])).take frameBudget := by
  rw [methods, methods, Places.take_filterMap_concat, takeFrame]

theorem frames_eq (lines : List Text) :
    (lines.foldl AnrScan.step .initial).frames = (methods (mainLines lines)).take frameBudget := by
  induction lines using List.reverseRecOn with
  | nil => rfl
  | append_singleton lines line ih =>
      rw [List.foldl_concat, mainLines_concat]
      show (if (lines.foldl AnrScan.step .initial).phase = .inMain
        then takeFrame (lines.foldl AnrScan.step .initial).frames line
        else (lines.foldl AnrScan.step .initial).frames) = _
      rw [phase_eq, phaseAfter, ih]
      cases hheader : mainHeader lines with
      | some m => exact takeFrame_take (mainLines lines) line
      | none =>
          have hbefore : mainLines lines = [] := by rw [mainLines, hheader]; rfl
          rw [hbefore]
          cases confirmation lines <;> rfl

/-- Frames are reported from behind the first header of a main thread that follows the confirmation
of the process. Process, subject and load are looked for in every line, and the first two are the
same in the other reports with this header. -/
theorem scanAnr_of_places (lines : List Text) :
    (scanAnr lines).report.frames =
      (match mainHeader lines with
        | none => []
        | some m => Text.join " " ((methods (lines.drop (m + 1))).take 8)) ∧
    (scanAnr lines).report.process = knownProcess lines ∧
    (scanWatchdog lines).process = (scanAnr lines).report.process ∧
    (scanHeader lines).process = (scanAnr lines).report.process ∧
    (scanAnr lines).report.subject = (lines.findSome? subjectLine.read).getD [] ∧
    (scanWatchdog lines).subject = (scanAnr lines).report.subject ∧
    (scanHeader lines).subject = (scanAnr lines).report.subject ∧
    (scanAnr lines).cpu = (lines.findSome? cpuTotal.read).getD [] := by
  have hanr := (header_anr lines).trans (header_eq lines)
  have hwatchdog := (header_watchdog lines).trans (header_anr lines).symm
  refine ⟨?_, congrArg (fun h : Header => h.process.text) hanr,
    congrArg (fun h : Header => h.process.text) hwatchdog,
    congrArg (fun h : Header => h.process.text) (header_anr lines).symm,
    congrArg (fun h : Header => h.subject.text) hanr,
    congrArg (fun h : Header => h.subject.text) hwatchdog,
    congrArg (fun h : Header => h.subject.text) (header_anr lines).symm,
    congrArg Slot.text (cpu_eq lines)⟩
  rw [scanAnr, Report.of, frames_eq, mainLines]
  cases mainHeader lines with
  | none => rfl
  | some m => rfl

/-! ## Threads -/

def opensThread (line : Text) : Bool :=
  line.startsWith "\""

theorem methods_append (lines more : List Text) :
    methods (lines ++ more) = methods lines ++ methods more :=
  List.filterMap_append

theorem take_append_eq_take_iff {α : Type} {items more : List α} {budget : Nat} :
    (items ++ more).take budget = items.take budget ↔ budget ≤ items.length ∨ more = [] := by
  rw [List.take_append, List.append_right_eq_self, List.take_eq_nil_iff, Nat.sub_eq_zero_iff_le]

/-- The frames that are reported are those of the main thread, up to the header of the next one, and
then the frames of the other threads as long as there is room. So they are the main thread's own
exactly if it has eight or no frame follows it. -/
theorem frames_of_main_iff (lines : List Text) :
    let block := (mainLines lines).takeWhile fun line => !opensThread line
    let others := (mainLines lines).dropWhile fun line => !opensThread line
    let taken := (lines.foldl AnrScan.step .initial).frames
    (scanAnr lines).report.frames = Text.join " " taken ∧
    taken = (methods block ++ methods others).take 8 ∧
    (taken = (methods block).take 8 ↔ 8 ≤ (methods block).length ∨ methods others = []) := by
  intro block others taken
  have htaken : taken = (methods block ++ methods others).take 8 := by
    rw [← methods_append, List.takeWhile_append_dropWhile]
    exact frames_eq lines
  refine ⟨rfl, htaken, ?_⟩
  rw [htaken]
  exact take_append_eq_take_iff

/-- A main thread with one frame, and another thread behind it. -/
def shortMain : List Text :=
  ["Process: p", "Cmd line: p", "\"main\" prio=5", "  at a.b(C.java:1)", "\"Binder_1\" prio=5",
    "  at d.e(F.java:2)"]

/-- The frame of the other thread is reported as well. -/
theorem frames_of_shortMain :
    (scanAnr shortMain).report.frames = ("a.b d.e" : Text) ∧
    (mainLines shortMain).takeWhile (fun line => !opensThread line) =
      (["  at a.b(C.java:1)"] : List Text) := by
  decide

end CrashDigest.Trace
