import Mathlib.Data.List.Induction
import CrashDigest.Proofs.SlotRow
import CrashDigest.Proofs.TombstoneLine
import CrashDigest.Proofs.Windows

/-!
# What a tombstone gives near its fingerprints

The scan of a tombstone runs two counters, one for the signal and one for the
stack, and gives each up when it has what it was looking for. What it finds can
be said without them: the signal is that of the first line in a window of five
lines that names one, and the frames are those of the first eight lines in
windows of fifteen that have one (`scan_near_fingerprints`).

The invariants go by what one more line does: `SignalTold` and `StackTold`
compare the state of the scan with the lines that it has read. Each names the
fields that it reads, is kept by the one part of the step that writes them, and
passes the other parts unseen.
-/

namespace CrashDigest.Tombstone

variable {lines : List Text} {line : Text} {s : Scan}

/-- The line that gives the signal: the first near a fingerprint that names one. -/
def signalSource (lines : List Text) : Option Text :=
  (near signalWindow lines).find? fun line => (signalOn line).isSome

/-- The lines whose frames are kept: the first near a fingerprint that have one. -/
def frameLines (lines : List Text) : List Text :=
  ((near stackWindow lines).filter isFrame).take frameBudget

def stackOf (frames : List Text) : Backtrace :=
  frames.foldl .push .empty

/-! ## One more line -/

theorem signalSource_concat (lines : List Text) (line : Text) :
    signalSource (lines ++ [line]) =
      (signalSource lines).or
        (if inWindow signalWindow (lines ++ [line]) lines.length && (signalOn line).isSome
          then some line else none) := by
  rw [signalSource, near_concat, List.find?_append, signalSource]
  cases inWindow signalWindow (lines ++ [line]) lines.length with
  | true => simp only [if_true, List.find?_singleton, Bool.true_and]
  | false => rfl

theorem frameLines_concat (lines : List Text) (line : Text) :
    frameLines (lines ++ [line]) =
      if (frameLines lines).length < frameBudget ∧
          (inWindow stackWindow (lines ++ [line]) lines.length && isFrame line) = true
      then frameLines lines ++ [line] else frameLines lines := by
  rw [frameLines, near_concat, List.filter_append]
  cases inWindow stackWindow (lines ++ [line]) lines.length with
  | false => simp [frameLines]
  | true =>
      rw [Places.take_append_one frameBudget (List.length_filter_le _ _), frameLines]
      cases hframe : isFrame line with
      | false => simp [hframe]
      | true => simp [hframe]

/-! ## The signal -/

theorem isSome_signalOn {source : Text} (h : signalSource lines = some source) :
    (signalOn source).isSome = true :=
  List.find?_some (p := fun line => (signalOn line).isSome) h

theorem isSome_bind_signalOn (lines : List Text) :
    ((signalSource lines).bind signalOn).isSome = (signalSource lines).isSome := by
  cases hsource : signalSource lines with
  | none => rfl
  | some source => exact isSome_signalOn hsource

/-- Where no line has given the signal yet, what is offered next is the signal of the line that
gives it then. -/
theorem bind_signalOn_concat (h : signalSource lines = none) (line : Text) :
    (signalSource (lines ++ [line])).bind signalOn =
      if inWindow signalWindow (lines ++ [line]) lines.length then signalOn line else none := by
  rw [signalSource_concat, h, Option.none_or]
  cases inWindow signalWindow (lines ++ [line]) lines.length with
  | false => rfl
  | true => cases hon : signalOn line <;> simp [hon]

theorem eq_of_mem_signalSource_concat (h : signalSource lines = none) {source : Text}
    (hsource : source ∈ signalSource (lines ++ [line])) : source = line := by
  rw [signalSource_concat, h, Option.none_or, Option.mem_ite_none_right] at hsource
  exact (Option.some.inj hsource.2).symm

/-- What the scan knows of the signal after some lines. The counter is given up once it is found. -/
structure SignalTold (lines : List Text) (s : Scan) : Prop where
  signal : s.signal = .firstWith ((signalSource lines).bind signalOn)
  faultAddress : s.faultAddress = (signalSource lines).elim [] faultAddressOn
  counter : signalSource lines = none → s.nearSignal.Tracks signalWindow lines

namespace SignalTold

theorem initial : SignalTold [] .initial :=
  ⟨rfl, rfl, fun _ => .closed _⟩

theorem withProcess (h : SignalTold lines s) (process : Slot) :
    SignalTold lines { s with process } :=
  ⟨h.signal, h.faultAddress, h.counter⟩

theorem takeSignal (h : SignalTold lines s) (line : Text) :
    SignalTold (lines ++ [line]) (s.takeSignal line) := by
  have hconcat := signalSource_concat lines line
  cases hsource : signalSource lines with
  | some source =>
      rw [hsource, Option.some_or] at hconcat
      have hclosed : s.signal.isOpen = false := by
        rw [h.signal, hsource]
        exact Option.isNone_eq_false_iff.mpr (isSome_signalOn hsource)
      rw [Scan.takeSignal, if_neg (by simp [hclosed])]
      refine ⟨?_, ?_, fun hnone => ?_⟩
      · rw [h.signal, hsource, hconcat]
      · rw [h.faultAddress, hsource, hconcat]
      · rw [hconcat] at hnone; cases hnone
  | none =>
      have hcounter := h.counter hsource
      have hsignal : s.signal = .firstWith none := by rw [h.signal, hsource]; rfl
      have hfault : s.faultAddress = [] := by rw [h.faultAddress, hsource]; rfl
      have hopen : s.signal.isOpen = true := by rw [hsignal]; rfl
      rw [Scan.takeSignal, if_pos hopen]
      simp only [hcounter.admits line, ← bind_signalOn_concat hsource line, hsignal,
        Slot.takes_firstWith_none, isSome_bind_signalOn]
      refine ⟨?_, ?_, fun _ => hcounter.advance (by decide) line⟩
      · exact (Slot.offer_firstWith _ _).trans (by rw [Option.none_or])
      · cases hnew : signalSource (lines ++ [line]) with
        | none => exact hfault
        | some source => rw [eq_of_mem_signalSource_concat hsource hnew]; rfl

theorem takeFrame (h : SignalTold lines s) (line : Text) :
    SignalTold lines (s.takeFrame line) := by
  unfold Scan.takeFrame
  split
  · exact ⟨h.signal, h.faultAddress, h.counter⟩
  · exact h

theorem takeAbort (h : SignalTold lines s) (line : Text) :
    SignalTold lines (s.takeAbort line) := by
  unfold Scan.takeAbort
  split
  · exact ⟨h.signal, h.faultAddress, h.counter⟩
  · exact h

theorem step (h : SignalTold lines s) (line : Text) :
    SignalTold (lines ++ [line]) (s.step line) :=
  (((h.withProcess _).takeSignal line).takeFrame line).takeAbort line

end SignalTold

theorem signalTold (lines : List Text) : SignalTold lines (lines.foldl Scan.step .initial) :=
  Places.foldl_told .initial (fun _ line h => h.step line) lines

/-! ## The stack -/

theorem frames_stackOf (frames : List Text) : (stackOf frames).frames = frames.length := by
  induction frames using List.reverseRecOn with
  | nil => rfl
  | append_singleton frames frame ih =>
      rw [stackOf, List.foldl_concat, List.length_append, ← ih, Backtrace.push]
      split <;> rfl

/-- What the scan knows of the stack after some lines. Once it has all its frames the counter stands
still, and the window stays open for good. -/
structure StackTold (lines : List Text) (s : Scan) : Prop where
  backtrace : s.backtrace = stackOf (frameLines lines)
  counter : (frameLines lines).length < frameBudget → s.nearStack.Tracks stackWindow lines
  stuck : ¬ (frameLines lines).length < frameBudget → s.nearStack.active = true

namespace StackTold

theorem initial : StackTold [] .initial :=
  ⟨rfl, fun _ => .closed _, fun hfull => absurd (by decide) hfull⟩

theorem withProcess (h : StackTold lines s) (process : Slot) :
    StackTold lines { s with process } :=
  ⟨h.backtrace, h.counter, h.stuck⟩

theorem frames_eq (h : StackTold lines s) : s.backtrace.frames = (frameLines lines).length := by
  rw [h.backtrace, frames_stackOf]

theorem takeFrame (h : StackTold lines s) (line : Text) :
    StackTold (lines ++ [line]) (s.takeFrame line) := by
  have hconcat := frameLines_concat lines line
  rw [Scan.takeFrame, h.frames_eq]
  split
  · next hroom =>
      have hcounter := h.counter hroom
      have htracks := hcounter.advance (by decide) line
      simp only [hroom, true_and] at hconcat
      simp only [hcounter.admits line]
      refine ⟨?_, fun _ => htracks, fun hfull => ?_⟩
      · show (if _ then s.backtrace.push line else s.backtrace) = _
        rw [hconcat, h.backtrace]
        split
        · rw [stackOf, stackOf, List.foldl_concat]
        · rfl
      · show (Window.advance _ _).active = true
        rw [htracks.active_eq]
        split at hconcat
        · next hnew => exact (Bool.and_eq_true_iff.mp hnew).1
        · exact absurd hroom (hconcat ▸ hfull)
  · next hfull =>
      rw [if_neg fun hnew => hfull hnew.1] at hconcat
      refine ⟨?_, ?_, fun _ => h.stuck hfull⟩
      · rw [h.backtrace, hconcat]
      · rw [hconcat]
        exact fun hroom => absurd hroom hfull

theorem takeSignal (h : StackTold lines s) (line : Text) : StackTold lines (s.takeSignal line) := by
  unfold Scan.takeSignal
  split
  · exact ⟨h.backtrace, h.counter, h.stuck⟩
  · exact h

theorem takeAbort (h : StackTold lines s) (line : Text) : StackTold lines (s.takeAbort line) := by
  unfold Scan.takeAbort
  split
  · exact ⟨h.backtrace, h.counter, h.stuck⟩
  · exact h

theorem step (h : StackTold lines s) (line : Text) : StackTold (lines ++ [line]) (s.step line) :=
  (((h.withProcess _).takeSignal line).takeFrame line).takeAbort line

end StackTold

theorem stackTold (lines : List Text) : StackTold lines (lines.foldl Scan.step .initial) :=
  Places.foldl_told .initial (fun _ line h => h.step line) lines

/-! ## Outside the windows -/

theorem signalSource_set {j : Nat} (hj : inWindow signalWindow lines j = false)
    (hline : isFingerprint line = false) :
    signalSource (lines.set j line) = signalSource lines := by
  rw [signalSource, near_set (by decide) hj hline, signalSource]

theorem frameLines_set {j : Nat} (hj : inWindow stackWindow lines j = false)
    (hline : isFingerprint line = false) : frameLines (lines.set j line) = frameLines lines := by
  rw [frameLines, near_set (by decide) hj hline, frameLines]

/-! ## Signal, address and frames -/

/-- Signal and address at fault come from the first line that names a signal in a window of the
signal, and the frames from the first eight lines with one in windows of the stack. A line outside
of the windows may be any other one without a fingerprint. -/
theorem scan_near_fingerprints (lines : List Text) :
    let source := (near 5 lines).find? fun line => (signalOn line).isSome
    let stack := stackOf (((near 15 lines).filter isFrame).take 8)
    (∀ j, inWindow 5 lines j = true ↔
      ∃ k ∈ latestFingerprint (lines.take (j + 1)), j - k ≤ 4) ∧
    (∀ j, inWindow 15 lines j = true ↔
      ∃ k ∈ latestFingerprint (lines.take (j + 1)), j - k ≤ 14) ∧
    (scan lines).signal = (source.bind signalOn).getD [] ∧
    (∀ a, a ≠ [] → ((scan lines).faultAddress = a ↔
      ∃ line ∈ source, labelledAddress line = some a ∧ HexNumber a)) ∧
    (lines.foldl Scan.step .initial).backtrace = stack ∧
    (scan lines).backtrace = withAbort (lines.foldl Scan.step .initial).abort.value stack.render ∧
    (∀ line, isFrame line = true ↔ ∃ d, '0' ≤ d ∧ d ≤ '7' ∧ ['#', '0', d] <:+: line) ∧
    ∀ j line, isFingerprint line = false →
      (inWindow 5 lines j = false →
        (scan (lines.set j line)).signal = (scan lines).signal ∧
        (scan (lines.set j line)).faultAddress = (scan lines).faultAddress) ∧
      (inWindow 15 lines j = false →
        ((lines.set j line).foldl Scan.step .initial).backtrace =
          (lines.foldl Scan.step .initial).backtrace) := by
  have hsignal (lines : List Text) :
      (scan lines).signal = ((signalSource lines).bind signalOn).getD [] :=
    congrArg Slot.text (signalTold lines).signal
  have hfault (lines : List Text) :
      (scan lines).faultAddress = (signalSource lines).elim [] faultAddressOn :=
    (signalTold lines).faultAddress
  have hstack (lines : List Text) := (stackTold lines).backtrace
  refine ⟨fun _ => inWindow_iff, fun _ => inWindow_iff, hsignal lines, fun a ha => ?_, hstack lines,
    congrArg (fun b : Backtrace => withAbort _ b.render) (hstack lines),
    fun _ => isFrame_iff, fun j line hline => ⟨fun hj => ?_, fun hj => ?_⟩⟩
  · rw [hfault]
    show _ ↔ ∃ line ∈ signalSource lines, _
    cases signalSource lines with
    | none => simp [ha.symm]
    | some source => simpa using faultAddressOn_eq_iff ha
  · rw [hsignal, hsignal, hfault, hfault, signalSource_set hj hline]
    exact ⟨rfl, rfl⟩
  · rw [hstack, hstack, frameLines_set hj hline]

/-- A signal before the fingerprint is not seen, and could be any other. -/
theorem scan_near_fingerprint_of_segv :
    let lines : List Text := ["signal 6 (SIGABRT)", "Build fingerprint: 'x'",
      "signal 11 (SIGSEGV), fault addr 0xdead", "#00 pc 1 libc.so (abort+58)"]
    (scan lines).signal = ("SIGSEGV" : Text) ∧ (scan lines).faultAddress = ("0xdead" : Text) ∧
    (scan (lines.set 0 "signal 7 (SIGBUS)")).signal = (scan lines).signal ∧
    ((lines.set 0 "#07 (main)").foldl Scan.step .initial).backtrace =
      (lines.foldl Scan.step .initial).backtrace := by
  intro lines
  obtain ⟨_, _, hsignal, hfault, _, _, _, hset⟩ := scan_near_fingerprints lines
  refine ⟨hsignal.trans (by decide +kernel), (hfault "0xdead" (by decide)).mpr ?_, ?_, ?_⟩
  · exact ⟨"signal 11 (SIGSEGV), fault addr 0xdead", by decide +kernel, by decide +kernel,
      isHexNumber_iff.mp (by decide)⟩
  · exact ((hset 0 "signal 7 (SIGBUS)" (by decide)).1 (by decide)).1
  · exact (hset 0 "#07 (main)" (by decide)).2 (by decide)

end CrashDigest.Tombstone
