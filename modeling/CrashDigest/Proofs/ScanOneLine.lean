import CrashDigest.Dump.Tombstone
import CrashDigest.Dump.Trace
import CrashDigest.Dump.JavaCrash
import CrashDigest.Dump.Console
import CrashDigest.Proofs.Fields
import CrashDigest.Proofs.SlotRow

/-!
# No scan makes a line feed

Every scan is a fold of one step over the lines of an artifact, and a step
stores nothing but pieces of its line and texts glued from such pieces. So each
scan has one invariant, that all the texts in its state stay within one line,
one lemma that its step keeps it, and one that follows from `foldl_of_oneLine`
for all the lines. The lines themselves are only assumed to be of one line;
where they come from is `OneLine.lean`'s business.

The families are collected in `Extracted.lean`: whatever the bytes of the
artifacts are, no extracted value holds a line feed.
-/

namespace CrashDigest

variable {line : Text} {lines : List Text}

theorem Lines.Stream.readAll_eq_ok {ε α : Type} {s : Lines.Stream ε}
    {scan : List Text → α} {a : α} (h : s.readAll scan = .ok a) :
    s.failure = none ∧ a = scan s.lines := by
  unfold readAll at h
  split at h
  · next hnone =>
      cases h
      exact ⟨hnone, rfl⟩
  · cases h

/-- What a scan starts with and no line without a line feed takes from it, it ends with. -/
theorem foldl_of_oneLine {σ : Type} {Inv : σ → Prop} {step : σ → Text → σ} {s : σ} (hs : Inv s)
    (hstep : ∀ {s line}, Inv s → line.OneLine → Inv (step s line))
    (hl : ∀ line ∈ lines, line.OneLine) : Inv (lines.foldl step s) :=
  List.foldlRecOn lines step hs fun _ h line hmem => hstep h (hl line hmem)

/-! ## Kernel frames and stack traces -/

theorem KernelFrame.oneLine_functionOf (hl : line.OneLine) :
    (functionOf line).OneLine := by
  unfold functionOf
  split
  · exact Text.OneLine.nil
  · exact Text.OneLine.nil
  · next before rest _ hcut =>
      simp only []
      split
      · exact Text.OneLine.nil
      · refine Text.OneLine.cons (by decide) (hl.of_isInfix ?_)
        exact ((List.suffix_append _ _).trans (Text.cut_snd_suffix hcut)).isInfix

namespace StackTrace

theorem oneLine_pointerOn (hl : line.OneLine) : ∀ v ∈ pointerOn line, v.OneLine := by
  intro v hv
  rcases Option.or_eq_some_iff.mp hv with h | ⟨_, h⟩
  · exact Probe.oneLine_of_read hl v h
  · exact Probe.oneLine_of_read hl v h

namespace Reader

theorem oneLine_takePointer {r : Reader} (hr : r.text.OneLine) (hl : line.OneLine) :
    (r.takePointer line).text.OneLine := by
  unfold takePointer
  split
  · exact hr
  · split
    · exact hr
    · next pointer hp =>
        exact (hr.append (oneLine_pointerOn hl pointer hp)).append
          (by decide : Text.OneLine " - ")

theorem oneLine_takeFrame {r : Reader} (hr : r.text.OneLine) (hl : line.OneLine) :
    (r.takeFrame line).text.OneLine := by
  unfold takeFrame
  split
  · exact hr
  · split
    · exact hr.append (.cons (by decide) (KernelFrame.oneLine_functionOf hl))
    · exact hr

theorem oneLine_step {banner : Banner} {r : Reader} (hr : r.text.OneLine)
    (hl : line.OneLine) : (r.step banner line).text.OneLine := by
  unfold step
  split
  · exact oneLine_takeFrame (oneLine_takePointer hr hl) hl
  · exact hr

theorem oneLine_run {banner : Banner} {r : Reader} (hr : r.text.OneLine)
    (hl : ∀ line ∈ lines, line.OneLine) : (r.run banner lines).text.OneLine := by
  induction lines generalizing r with
  | nil => exact hr
  | cons line lines ih =>
      rw [run]
      split
      · exact hr
      · exact ih (oneLine_step hr (hl line List.mem_cons_self))
          fun l hmem => hl l (List.mem_cons_of_mem _ hmem)

end Reader

theorem oneLine_of_ofStream {ε : Type} {banner : Banner} {s : Lines.Stream ε}
    (hs : ∀ line ∈ s.lines, line.OneLine) {text : Text}
    (h : ofStream banner s = .ok text) : text.OneLine := by
  have hrun : (Reader.initial.run banner s.lines).text.OneLine :=
    Reader.oneLine_run Text.OneLine.nil hs
  simp only [ofStream] at h
  split at h
  · cases h
    exact hrun
  · rw [(Lines.Stream.readAll_eq_ok h).2]
    exact hrun

end StackTrace

/-! ## Consoles -/

namespace Console

namespace Scan

/-- All the texts of the scan stay within one line. -/
structure OneLine (s : Scan) : Prop where
  instruction : s.instruction.OneLine
  comm : s.comm.OneLine
  panic : s.panic.OneLine
  frames : s.frames.OneLine

theorem oneLine_pointerOn (behindRip : Bool) (hl : line.OneLine) :
    ∀ v ∈ pointerOn behindRip line, v.OneLine := by
  intro v hv
  rcases Option.or_eq_some_iff.mp hv with h | ⟨_, h⟩
  · rcases Option.or_eq_some_iff.mp h with h | ⟨_, h⟩
    · exact Probe.oneLine_of_read hl v h
    · exact Probe.oneLine_of_read hl v h
  · split at h
    · exact Token.oneLine_of_nth hl v h
    · cases h

theorem OneLine.takePointer {s : Scan} (hs : s.OneLine) (hl : line.OneLine) :
    (s.takePointer line).OneLine := by
  unfold Scan.takePointer
  split
  · exact { hs with instruction := hs.instruction.offer (oneLine_pointerOn _ hl) }
  · exact hs

theorem OneLine.takeName {s : Scan} (hs : s.OneLine) (hl : line.OneLine) :
    (s.takeName line).OneLine := by
  unfold Scan.takeName
  split
  · exact hs
  · split
    · exact hs
    · next name hname =>
        have hcomm := Probe.oneLine_of_read hl name hname
        split
        · exact { hs with comm := hcomm }
        · exact { hs with comm := hcomm }

theorem OneLine.takePanic {s : Scan} (hs : s.OneLine) (hl : line.OneLine) :
    (s.takePanic line).OneLine := by
  simp only [Scan.takePanic]
  split
  · exact { hs with panic := hs.panic.offer (Probe.oneLine_of_read hl) }
  · exact hs

theorem OneLine.takeFrame {s : Scan} (hs : s.OneLine) (hl : line.OneLine) :
    (s.takeFrame line).OneLine := by
  unfold Scan.takeFrame
  split
  · exact hs
  · split
    · exact { hs with }
    · split
      · split
        · exact hs
        · exact { hs with frames := hs.frames.append (KernelFrame.oneLine_functionOf hl) }
      · exact hs

theorem OneLine.step {s : Scan} (hs : s.OneLine) (hl : line.OneLine) :
    (s.step line).OneLine :=
  (((hs.takePointer hl).takeName hl).takePanic hl).takeFrame hl

theorem oneLine_initial : initial.OneLine :=
  ⟨.first, Text.OneLine.nil, .first, Text.OneLine.nil⟩

end Scan

theorem oneLine_headOr {sep : Separator} {text : Text} (h : text.OneLine) :
    (headOr sep text).OneLine := by
  unfold headOr
  split
  · exact h
  · exact h
  · next head _ hhead => exact Token.oneLine_of_nth h head hhead

theorem oneLine_finalName {comm panic : Text} (h : comm.OneLine) :
    (finalName comm panic).OneLine := by
  unfold finalName
  split
  · exact Text.OneLine.nil
  · split
    · exact oneLine_headOr h
    · exact h

theorem oneLine_finalPanic {hardLockup : Bool} {panic : Text} (h : panic.OneLine) :
    (finalPanic hardLockup panic).OneLine := by
  unfold finalPanic
  split
  · exact oneLine_headOr h
  · exact h

/-- All the texts of the summary stay within one line. -/
structure Summary.OneLine (s : Summary) : Prop where
  instruction : s.instruction.OneLine
  comm : s.comm.OneLine
  panic : s.panic.OneLine
  lockupFrames : ∀ v ∈ s.lockupFrames, v.OneLine

theorem Scan.OneLine.summary {s : Scan} (hs : s.OneLine) : s.summary.OneLine where
  instruction := hs.instruction.text
  comm := oneLine_finalName hs.comm
  panic := oneLine_finalPanic hs.panic.text
  lockupFrames := by
    intro v hv
    simp only [Scan.summary, Option.mem_def] at hv
    split at hv
    · cases hv
      exact hs.frames
    · cases hv

theorem oneLine_scan (hl : ∀ line ∈ lines, line.OneLine) : (scan lines).OneLine :=
  Scan.OneLine.summary (foldl_of_oneLine Scan.oneLine_initial Scan.OneLine.step hl)

theorem oneLine_of_softLockupStack {ε : Type} {s : Lines.Stream ε}
    (hs : ∀ line ∈ s.lines, line.OneLine) {stack : Text}
    (h : softLockupStack s = .ok stack) : stack.OneLine := by
  unfold softLockupStack at h
  split at h
  · exact StackTrace.oneLine_of_ofStream hs h
  · exact StackTrace.oneLine_of_ofStream hs h

theorem oneLine_of_lockupStack {ε : Type} {summary : Summary} {s : Lines.Stream ε}
    (hsum : summary.OneLine) (hs : ∀ line ∈ s.lines, line.OneLine) {stack : Text}
    (h : lockupStack summary s = .ok stack) : stack.OneLine := by
  unfold lockupStack at h
  split at h
  · next frames hframes =>
      cases h
      exact hsum.lockupFrames _ hframes
  · split at h
    · exact oneLine_of_softLockupStack hs h
    · cases h
      exact Text.OneLine.nil

theorem oneLine_of_memory? {fileName memory : Text} (h : memory? fileName = some memory) :
    memory.OneLine := by
  unfold memory? at h
  split at h
  · cases h
    decide
  · split at h
    · cases h
      decide
    · cases h

/-- The three values of a console, and what the name of its file may add. -/
theorem fields_eq_ok {ε : Type} {fileName : Text} {s : Lines.Stream ε} {f : Fields}
    (h : fields fileName s = .ok f) :
    ∃ stack, lockupStack (scan s.lines) s = .ok stack ∧
      ∃ found, found = Fields.ofList
          [(.data 0, if stack = [] then (scan s.lines).instruction else stack),
            (.data 1, (scan s.lines).comm), (.data 2, (scan s.lines).panic)] ∧
        (f = found ∨ ∃ memory, memory? fileName = some memory ∧
          f = found.set (.data 3) memory) := by
  unfold fields at h
  cases hsum : s.readAll scan with
  | error e =>
      rw [hsum] at h
      cases h
  | ok summary =>
      rw [hsum] at h
      obtain rfl := (Lines.Stream.readAll_eq_ok hsum).2
      cases hstack : lockupStack (scan s.lines) s with
      | error e =>
          simp only [bind, Except.bind, hstack] at h
          cases h
      | ok stack =>
          simp only [bind, Except.bind, hstack, pure, Except.pure] at h
          refine ⟨stack, rfl, _, rfl, ?_⟩
          split at h
          · next memory hmem =>
              exact Or.inr ⟨memory, hmem, (Except.ok.inj h).symm⟩
          · exact Or.inl (Except.ok.inj h).symm

theorem oneLine_of_fields {ε : Type} {fileName : Text} {s : Lines.Stream ε} {f : Fields}
    (hs : ∀ line ∈ s.lines, line.OneLine) (h : fields fileName s = .ok f) :
    f.OneLine := by
  obtain ⟨stack, hstack, found, heq, hf⟩ := fields_eq_ok h
  have hsum := oneLine_scan hs
  have hsig : Text.OneLine
      (if stack = [] then (scan s.lines).instruction else stack) := by
    split
    · exact hsum.instruction
    · exact oneLine_of_lockupStack hsum hs hstack
  have hfound : found.OneLine := by
    rw [heq]
    exact Fields.oneLine_ofList (by simpa using ⟨hsig, hsum.comm, hsum.panic⟩)
  rcases hf with rfl | ⟨memory, hmem, rfl⟩
  · exact hfound
  · exact hfound.set (oneLine_of_memory? hmem)

end Console

/-! ## Tombstones -/

namespace Tombstone

theorem oneLine_faultAddressOn (hl : line.OneLine) : (faultAddressOn line).OneLine := by
  unfold faultAddressOn
  split
  · next address haddr =>
      split
      · exact Token.oneLine_of_nth hl address haddr
      · exact Text.OneLine.nil
  · exact Text.OneLine.nil

/-- Both forms of the stack stay within one line. -/
structure Backtrace.OneLine (b : Backtrace) : Prop where
  symbols : b.symbols.OneLine
  libraries : b.libraries.OneLine

namespace Backtrace

theorem oneLine_gap (b : Backtrace) : b.gap.OneLine := by
  unfold gap
  split <;> decide

theorem OneLine.push {b : Backtrace} (hb : b.OneLine) (hl : line.OneLine) :
    (b.push line).OneLine := by
  unfold Backtrace.push
  split
  · next symbol hsym =>
      obtain ⟨token, hopen, hclose⟩ := Option.bind_eq_some_iff.mp hsym
      have hsymbol := Token.oneLine_of_nth (Token.oneLine_of_nth hl token hopen) symbol hclose
      exact { hb with symbols := (hb.symbols.append b.oneLine_gap).append hsymbol }
  · refine ⟨hb.symbols.append b.oneLine_gap, (hb.libraries.append b.oneLine_gap).append ?_⟩
    cases hlib : libraryOf line with
    | none => exact Text.OneLine.nil
    | some library => exact hl.of_isInfix (Token.isInfix_of_nthCollapsed hlib)

theorem OneLine.render {b : Backtrace} (hb : b.OneLine) : b.render.OneLine := by
  unfold Backtrace.render
  split
  · exact hb.symbols
  · exact hb.libraries

end Backtrace

namespace Scan

/-- All the texts of the scan stay within one line. -/
structure OneLine (s : Scan) : Prop where
  process : s.process.OneLine
  signal : s.signal.OneLine
  faultAddress : s.faultAddress.OneLine
  backtrace : s.backtrace.OneLine
  abort : s.abort.OneLine

theorem oneLine_initial : initial.OneLine :=
  ⟨.first, .first, Text.OneLine.nil, ⟨Text.OneLine.nil, Text.OneLine.nil⟩, .first⟩

theorem OneLine.takeSignal {s : Scan} (hs : s.OneLine) (hl : line.OneLine) :
    (s.takeSignal line).OneLine := by
  unfold Scan.takeSignal
  split
  · have hfault (taken : Bool) :
        Text.OneLine (if taken then faultAddressOn line else s.faultAddress) := by
      cases taken
      · exact hs.faultAddress
      · exact oneLine_faultAddressOn hl
    refine { hs with signal := hs.signal.offer ?_, faultAddress := hfault _ }
    split
    · exact Probe.oneLine_of_read_nth hl
    · exact fun _ h => nomatch h
  · exact hs

theorem OneLine.takeFrame {s : Scan} (hs : s.OneLine) (hl : line.OneLine) :
    (s.takeFrame line).OneLine := by
  unfold Scan.takeFrame
  split
  · refine { hs with backtrace := ?_ }
    simp only []
    split
    · exact hs.backtrace.push hl
    · exact hs.backtrace
  · exact hs

theorem OneLine.takeAbort {s : Scan} (hs : s.OneLine) (hl : line.OneLine) :
    (s.takeAbort line).OneLine := by
  unfold Scan.takeAbort
  split
  · exact { hs with abort := hs.abort.offer (Probe.oneLine_of_read hl) }
  · exact hs

theorem OneLine.step {s : Scan} (hs : s.OneLine) (hl : line.OneLine) :
    (s.step line).OneLine := by
  have hprocess : OneLine { s with process := s.process.offer (processOn line) } :=
    { hs with process := hs.process.offer (Probe.oneLine_of_read_nth hl) }
  exact ((hprocess.takeSignal hl).takeFrame hl).takeAbort hl

end Scan

theorem oneLine_withAbort {abort : Option Text} {backtrace : Text}
    (ha : ∀ v ∈ abort, v.OneLine) (hb : backtrace.OneLine) :
    (withAbort abort backtrace).OneLine := by
  unfold withAbort
  split
  · next message => exact ((ha message rfl).append (by decide)).append hb
  · exact hb

theorem oneLine_fields_scan (hl : ∀ line ∈ lines, line.OneLine) :
    (fields (scan lines)).OneLine := by
  have hs : (lines.foldl Scan.step .initial).OneLine :=
    foldl_of_oneLine Scan.oneLine_initial Scan.OneLine.step hl
  refine Fields.oneLine_ofList ?_
  simp only [List.forall_mem_cons, List.not_mem_nil, false_imp_iff, implies_true, and_true]
  exact ⟨hs.process.text.of_isInfix (Text.trim_isInfix _), hs.signal.text,
    oneLine_withAbort hs.abort hs.backtrace.render, hs.faultAddress⟩

end Tombstone

/-! ## Java crashes -/

theorem oneLine_methodOf {frame : Probe} (hl : line.OneLine) :
    ∀ v ∈ methodOf frame line, v.OneLine :=
  Probe.oneLine_of_read_nth hl

namespace Address

theorem stripFrom_subset (n skip : Nat) (s : Text) : stripFrom n skip s ⊆ s := by
  fun_induction stripFrom n skip s with
  | case1 => exact List.Subset.refl _
  | case2 skip c s ih => exact List.subset_cons_of_subset c ih
  | case3 c s _ ih => exact List.subset_cons_of_subset c ih
  | case4 c s _ ih => exact List.cons_subset_cons c ih

theorem oneLine_strip {s : Text} (hs : s.OneLine) : (strip s).OneLine :=
  hs.of_subset (List.Subset.trans (stripFrom_subset 8 0 _) (stripFrom_subset 16 0 s))

end Address

namespace JavaCrash

namespace Scan

/-- All the texts of the scan stay within one line. -/
structure OneLine (s : Scan) : Prop where
  process : s.process.OneLine
  cause : s.cause.OneLine
  exception : s.exception.OneLine
  frames : ∀ frame ∈ s.frames, frame.OneLine
  previous : s.previous.OneLine

theorem oneLine_initial : initial.OneLine :=
  ⟨.first, .last, Text.OneLine.nil, List.forall_mem_nil _, Text.OneLine.nil⟩

theorem OneLine.takeFrame {s : Scan} (hs : s.OneLine) (hl : line.OneLine) :
    (s.takeFrame line).OneLine := by
  unfold Scan.takeFrame
  split
  · split
    · exact hs
    · next method hmethod =>
        refine { hs with exception := ?_, frames := ?_ }
        · simp only []
          split
          · exact hs.previous
          · exact hs.exception
        · intro frame hframe
          rcases List.mem_append.mp hframe with hold | hnew
          · exact hs.frames frame hold
          · obtain rfl := List.mem_singleton.mp hnew
            exact oneLine_methodOf hl frame hmethod
  · exact hs

theorem OneLine.step {s : Scan} (hs : s.OneLine) (hl : line.OneLine) :
    (s.step line).OneLine := by
  have hslots : OneLine { s with
      process := s.process.offer (processLine.read line)
      cause := s.cause.offer (causedBy.read line) } :=
    { hs with
      process := hs.process.offer (Probe.oneLine_of_read hl)
      cause := hs.cause.offer (Probe.oneLine_of_read hl) }
  exact { hslots.takeFrame hl with previous := hl }

end Scan

theorem oneLine_summaryFields {kind : JavaCrashKind} {summary : Text}
    (hs : summary.OneLine) : ∀ e ∈ summaryFields kind summary, e.2.OneLine := by
  unfold summaryFields
  split
  · have hprefix : Text.OneLine "app_native_crash" := by decide
    simpa using hprefix.append hs
  · split
    · have htrim := hs.of_isInfix (Text.trim_isInfix summary)
      have hsize := htrim.of_isInfix (List.drop_suffix (transactionTooLarge.length + 2) _).isInfix
      simpa using ⟨(by decide : transactionTooLarge.OneLine), hsize⟩
    · simpa using hs

theorem oneLine_fields_scan {kind : JavaCrashKind} (hl : ∀ line ∈ lines, line.OneLine) :
    (fields kind (scan lines)).OneLine := by
  have hs : (lines.foldl Scan.step .initial).OneLine :=
    foldl_of_oneLine Scan.oneLine_initial Scan.OneLine.step hl
  have hsummary : (scan lines).summary.OneLine := by
    refine Address.oneLine_strip ?_
    split
    · exact hs.exception
    · exact hs.cause.text
  refine Fields.oneLine_ofList fun e he => ?_
  rcases List.mem_append.mp he with hfront | hframes
  · rcases List.mem_cons.mp hfront with rfl | hsum
    · exact Address.oneLine_strip hs.process.text
    · exact oneLine_summaryFields hsummary e hsum
  · obtain rfl := List.mem_singleton.mp hframes
    exact Address.oneLine_strip (Text.OneLine.join (by decide) hs.frames)

end JavaCrash

/-! ## Traces -/

namespace Trace

/-- Both slots of the header stay within one line. -/
structure Header.OneLine (h : Header) : Prop where
  process : h.process.OneLine
  subject : h.subject.OneLine

theorem Header.oneLine_initial : Header.initial.OneLine := ⟨.first, .first⟩

theorem Header.OneLine.step {h : Header} (hh : h.OneLine) (hl : line.OneLine) :
    (h.step line).OneLine :=
  ⟨hh.process.offer (Probe.oneLine_of_read hl), hh.subject.offer (Probe.oneLine_of_read hl)⟩

theorem oneLine_takeFrame {frames : List Text} (hf : ∀ frame ∈ frames, frame.OneLine)
    (hl : line.OneLine) : ∀ frame ∈ takeFrame frames line, frame.OneLine := by
  unfold takeFrame
  split
  · intro frame hframe
    rcases List.mem_append.mp hframe with hold | hnew
    · exact hf frame hold
    · exact oneLine_methodOf hl frame (Option.mem_toList.mp hnew)
  · exact hf

/-- All the texts of the report stay within one line. -/
structure Report.OneLine (r : Report) : Prop where
  process : r.process.OneLine
  subject : r.subject.OneLine
  frames : r.frames.OneLine

theorem Report.oneLine_of {h : Header} {frames : List Text} (hh : h.OneLine)
    (hf : ∀ frame ∈ frames, frame.OneLine) : (Report.of h frames).OneLine :=
  ⟨hh.process.text, hh.subject.text, Text.OneLine.join (by decide) hf⟩

theorem oneLine_scanHeader (hl : ∀ line ∈ lines, line.OneLine) :
    (scanHeader lines).OneLine :=
  Report.oneLine_of
    (foldl_of_oneLine Header.oneLine_initial Header.OneLine.step hl)
    (List.forall_mem_nil _)

/-- Header and frames of the watchdog's scan stay within one line. -/
structure WatchdogScan.OneLine (s : WatchdogScan) : Prop where
  header : s.header.OneLine
  frames : ∀ frame ∈ s.frames, frame.OneLine

theorem WatchdogScan.OneLine.step {s : WatchdogScan} (hs : s.OneLine) (hl : line.OneLine) :
    (s.step line).OneLine :=
  ⟨hs.header.step hl, oneLine_takeFrame hs.frames hl⟩

theorem oneLine_scanWatchdog (hl : ∀ line ∈ lines, line.OneLine) :
    (scanWatchdog lines).OneLine := by
  have hs : (lines.foldl WatchdogScan.step .initial).OneLine :=
    foldl_of_oneLine ⟨Header.oneLine_initial, List.forall_mem_nil _⟩ WatchdogScan.OneLine.step hl
  exact Report.oneLine_of hs.header hs.frames

/-- All the texts of a trace's scan stay within one line. -/
structure AnrScan.OneLine (s : AnrScan) : Prop where
  header : s.header.OneLine
  cpu : s.cpu.OneLine
  frames : ∀ frame ∈ s.frames, frame.OneLine

theorem AnrScan.OneLine.step {s : AnrScan} (hs : s.OneLine) (hl : line.OneLine) :
    (s.step line).OneLine where
  header := hs.header.step hl
  cpu := hs.cpu.offer (Probe.oneLine_of_read hl)
  frames := by
    simp only [AnrScan.step]
    split
    · exact oneLine_takeFrame hs.frames hl
    · exact hs.frames

theorem oneLine_assertionFields {r : Report} (hr : r.OneLine) :
    (assertionFields r).OneLine :=
  Fields.oneLine_ofList (by simpa using ⟨hr.process, hr.subject⟩)

theorem oneLine_watchdogFields {r : Report} (hr : r.OneLine) :
    (watchdogFields r).OneLine :=
  Fields.oneLine_ofList (by simpa using ⟨hr.process, hr.subject, hr.frames⟩)

theorem oneLine_anrFields_scanAnr (hl : ∀ line ∈ lines, line.OneLine) :
    (anrFields (scanAnr lines)).OneLine := by
  have hs : (lines.foldl AnrScan.step .initial).OneLine :=
    foldl_of_oneLine ⟨Header.oneLine_initial, .first, List.forall_mem_nil _⟩
      AnrScan.OneLine.step hl
  have hreport := oneLine_watchdogFields (Report.oneLine_of hs.header hs.frames)
  exact hreport.set (Text.OneLine.append (by decide) hs.cpu.text)

end Trace

/-! ## Coredumps -/

/-- What a search through the lines finds stays within one line if every find does. -/
theorem Text.oneLine_findSome? {read : Text → Option Text}
    (hread : ∀ line ∈ lines, ∀ v ∈ read line, OneLine v) :
    OneLine ((lines.findSome? read).getD []) := by
  cases h : lines.findSome? read with
  | none => exact OneLine.nil
  | some v =>
      obtain ⟨line, hmem, hv⟩ := List.exists_of_findSome?_eq_some h
      exact hread line hmem v hv

namespace Coredump

theorem oneLine_firstMatches {probes : List Probe} (hl : ∀ line ∈ lines, line.OneLine) :
    ∀ v ∈ firstMatches probes lines, v.OneLine := by
  intro v hv
  rw [firstMatches_eq] at hv
  obtain ⟨probe, _, rfl⟩ := List.mem_map.mp hv
  exact Text.oneLine_findSome? fun line hmem => Probe.oneLine_of_read (hl line hmem)

theorem oneLine_scanPassed (hl : ∀ line ∈ lines, line.OneLine) :
    (scanPassed lines).OneLine :=
  Fields.oneLine_ofList_zip (oneLine_firstMatches hl)

theorem oneLine_trapFields (hl : ∀ line ∈ lines, line.OneLine) :
    (trapFields lines).OneLine :=
  Fields.oneLine_ofList_zip (oneLine_firstMatches hl)

theorem oneLine_placeOf {line file : Text} (hline : line.OneLine) (hfile : file.OneLine) :
    (placeOf line file).OneLine := by
  have htrim {s : Text} (hs : s.OneLine) : s.trim.OneLine := hs.of_isInfix (Text.trim_isInfix s)
  have hid : Text.OneLine "id: l:" := by decide
  exact ((hid.append (htrim hline)).append (by decide)).append (htrim hfile)

theorem oneLine_modemFields (hl : ∀ line ∈ lines, line.OneLine) :
    (modemFields lines).OneLine := by
  have hmatches : ∀ v ∈ firstMatches [fileName, lineNumber, vector] lines, v.OneLine :=
    oneLine_firstMatches hl
  unfold modemFields
  split
  · next file line vector hfound =>
      simp only [hfound, List.forall_mem_cons] at hmatches
      obtain ⟨hfile, hline, hvector, _⟩ := hmatches
      refine Fields.oneLine_ofList ?_
      simpa using ⟨oneLine_placeOf hline hfile, hvector, (by decide : Text.OneLine "CD_INFO")⟩
  · exact Fields.oneLine_empty

end Coredump

/-! ## Fabric dumps -/

namespace Fabric

theorem oneLine_scanRegisters (hl : ∀ line ∈ lines, line.OneLine) :
    (scanRegisters lines).OneLine := by
  rw [scanRegisters_eq]
  refine Fields.oneLine_ofList_zip fun v hv => ?_
  obtain ⟨register, _, rfl⟩ := List.mem_map.mp hv
  exact Text.oneLine_findSome? fun line hmem v hv => (hl line hmem).of_isInfix (Piece.isInfix_of hv)

/-- All the texts of the scan for errors stay within one line. -/
structure ErrorScan.OneLine (s : ErrorScan) : Prop where
  headline : s.headline.OneLine
  errors : ∀ error ∈ s.errors, error.OneLine

theorem ErrorScan.OneLine.step {s : ErrorScan} (hs : s.OneLine) (hl : line.OneLine) :
    (s.step line).OneLine := by
  unfold ErrorScan.step
  split
  · exact ⟨hs.headline.offer (Token.oneLine_of_nth hl), List.forall_mem_cons.mpr ⟨hl, hs.errors⟩⟩
  · exact hs

theorem ErrorScan.oneLine_second {errors : List Text} (he : ∀ error ∈ errors, error.OneLine) :
    (second errors).OneLine := by
  unfold second
  split
  · exact Text.OneLine.nil
  · next only => exact he only (by simp)
  · next first second rest => exact he second (by simp)

theorem ErrorScan.OneLine.fields {s : ErrorScan} (hs : s.OneLine) : s.fields.OneLine := by
  have herrors : ∀ error ∈ s.errors.reverse, error.OneLine :=
    fun error h => hs.errors error (List.mem_reverse.mp h)
  have hsecond : Text.OneLine
      ((Token.nth Token.openParen 0 (second s.errors.reverse)).getD []) := by
    cases h : Token.nth Token.openParen 0 (second s.errors.reverse) with
    | none => exact Text.OneLine.nil
    | some head => exact Token.oneLine_of_nth (oneLine_second herrors) head h
  have hdetail : ∀ error ∈ (s.errors.reverse.drop 2).take detailLines, error.OneLine :=
    fun error h => herrors error (List.mem_of_mem_drop (List.mem_of_mem_take h))
  refine Fields.oneLine_ofList ?_
  simp only [List.forall_mem_cons]
  exact ⟨hs.headline.text, hsecond, Text.OneLine.join (by decide) hdetail,
    List.forall_mem_nil _⟩

theorem oneLine_scanErrors (hl : ∀ line ∈ lines, line.OneLine) :
    (scanErrors lines).OneLine := by
  have hs : (lines.foldl ErrorScan.step .initial).OneLine :=
    foldl_of_oneLine ⟨.first, List.forall_mem_nil _⟩ ErrorScan.OneLine.step hl
  exact hs.fields

theorem oneLine_scanLegacy (hl : ∀ line ∈ lines, line.OneLine) :
    (scanLegacy lines).OneLine := by
  unfold scanLegacy scanFlat
  split
  · exact oneLine_scanRegisters hl
  · exact oneLine_scanErrors hl

theorem Section.oneLine_feed {s : Section} (hs : ∀ kept ∈ s.lines, kept.OneLine)
    (hl : line.OneLine) : ∀ kept ∈ (s.feed line).lines, kept.OneLine := by
  unfold feed
  split
  · split
    · exact List.forall_mem_nil _
    · exact hs
  · split
    · exact hs
    · split
      · exact hs
      · exact List.forall_mem_append.mpr ⟨hs, List.forall_mem_singleton.mpr hl⟩
  · exact hs

/-- All the texts of the scan for sections stay within one line. -/
structure SectionScan.OneLine (s : SectionScan) : Prop where
  summary : ∀ kept ∈ s.summary.lines, kept.OneLine
  hole : ∀ kept ∈ s.hole.lines, kept.OneLine
  errorLog : ∀ kept ∈ s.errorLog.lines, kept.OneLine
  registers : s.registers.OneLine
  length : s.length.OneLine

namespace SectionScan

theorem oneLine_feedSummary {summary errorLog : Section}
    (hs : ∀ kept ∈ summary.lines, kept.OneLine) (hl : line.OneLine) :
    ∀ kept ∈ (feedSummary summary errorLog line).lines, kept.OneLine := by
  have hfed : ∀ current : Section, current.lines = summary.lines →
      ∀ kept ∈ (current.feed line).lines, kept.OneLine :=
    fun current h => Section.oneLine_feed (h ▸ hs) hl
  simp only [feedSummary]
  repeat' split
  all_goals exact hfed _ rfl

theorem OneLine.step {controller : Bool} {s : SectionScan} (hs : s.OneLine)
    (hl : line.OneLine) : (s.step controller line).OneLine where
  summary := oneLine_feedSummary hs.summary hl
  hole := Section.oneLine_feed hs.hole hl
  errorLog := Section.oneLine_feed hs.errorLog hl
  registers := by
    simp only [SectionScan.step]
    split
    · exact (hs.registers.append hl).append (by decide)
    · exact hs.registers
  length := hs.length.offer (Probe.oneLine_of_read hl)

theorem OneLine.detail {controller : Bool} {s : SectionScan} (hs : s.OneLine) :
    (s.detail controller).OneLine := by
  have hglue : lineGlue.OneLine := by decide
  unfold SectionScan.detail
  split
  · exact hs.registers
  · split
    · exact Text.OneLine.join hglue hs.errorLog
    · exact Text.OneLine.append (by decide) (Text.OneLine.join hglue hs.hole)

end SectionScan

theorem oneLine_scanSectioned {controller : Bool} (hl : ∀ line ∈ lines, line.OneLine) :
    (scanSectioned controller lines).OneLine := by
  have hs : (lines.foldl (SectionScan.step controller) .initial).OneLine :=
    foldl_of_oneLine
      ⟨List.forall_mem_nil _, List.forall_mem_nil _, List.forall_mem_nil _,
        Text.OneLine.nil, .first⟩
      SectionScan.OneLine.step hl
  have hglue : lineGlue.OneLine := by decide
  refine Fields.oneLine_ofList ?_
  simp only [List.forall_mem_cons]
  exact ⟨Text.OneLine.join hglue fun kept h => hs.summary kept (List.mem_of_mem_take h),
    Text.OneLine.join hglue fun kept h => hs.summary kept (List.mem_of_mem_drop h),
    hs.detail, hs.length.text, List.forall_mem_nil _⟩

end Fabric

end CrashDigest
