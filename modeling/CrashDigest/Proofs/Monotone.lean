import Mathlib.Data.List.Infix
import CrashDigest.Dump.Console
import CrashDigest.Dump.Tombstone
import CrashDigest.Dump.Trace
import CrashDigest.Proofs.Fields
import CrashDigest.Proofs.Growth
import CrashDigest.Proofs.SlotRow

/-!
# More lines never change what was found

Each scan is compared with itself on a longer file. Its state grows with every
line: the slots keep their values, and the texts that collect frames are only
added to. What the states do not show by themselves are the flags beside the
slots. The kind of a panic and the address of a fault are written together with
a slot and never again, so each order below also says that they stay once the
slot is found, and that they are not set before it is.

The orders on the states are carried over to what the scans give, and
`scans_monotone` collects the scans.
-/

namespace CrashDigest

variable {line : Text}

/-! ## Consoles -/

namespace Console

namespace Scan

/-- What a scan of more lines keeps. -/
structure Grows (s s' : Scan) : Prop where
  instruction : s.instruction.Kept s'.instruction
  panic : s.panic.Kept s'.panic
  hardLockup : s.panic.capture = .first → s.panic.isFound = true → s'.hardLockup = s.hardLockup
  frames : s.frames <+: s'.frames
  /-- The kind of the panic is not set before the panic is found. -/
  found : (s.hardLockup = true → s.panic.isFound = true) →
    s'.hardLockup = true → s'.panic.isFound = true

theorem Grows.refl (s : Scan) : s.Grows s :=
  ⟨.refl _, .refl _, fun _ _ => rfl, List.prefix_rfl, fun h => h⟩

theorem Grows.trans {s s' s'' : Scan} (h : s.Grows s') (h' : s'.Grows s'') : s.Grows s'' where
  instruction := h.instruction.trans h'.instruction
  panic := h.panic.trans h'.panic
  hardLockup hs hf :=
    (h'.hardLockup (h.panic.capture.trans hs) (h.panic.found hf)).trans (h.hardLockup hs hf)
  frames := h.frames.trans h'.frames
  found := fun hs => h'.found (h.found hs)

theorem grows_takePointer (s : Scan) (line : Text) : s.Grows (s.takePointer line) := by
  unfold takePointer
  split
  · exact { Grows.refl s with instruction := s.instruction.kept_offer _ }
  · exact Grows.refl s

theorem grows_takeName (s : Scan) (line : Text) : s.Grows (s.takeName line) := by
  unfold takeName
  split
  · exact Grows.refl s
  · split
    · exact Grows.refl s
    · split
      · exact { Grows.refl s with }
      · exact { Grows.refl s with }

theorem grows_takePanic (s : Scan) (line : Text) : s.Grows (s.takePanic line) := by
  simp only [takePanic]
  split
  · next htakes =>
      exact { Grows.refl s with
        panic := s.panic.kept_offer _
        hardLockup := fun hs hf => absurd htakes (Slot.not_takes hs hf)
        found := fun _ _ => Slot.isFound_offer htakes }
  · exact Grows.refl s

theorem grows_takeFrame (s : Scan) (line : Text) : s.Grows (s.takeFrame line) := by
  unfold takeFrame
  split
  · exact Grows.refl s
  · split
    · exact { Grows.refl s with }
    · split
      · split
        · exact Grows.refl s
        · exact { Grows.refl s with frames := List.prefix_append _ _ }
      · exact Grows.refl s

theorem grows_step (s : Scan) (line : Text) : s.Grows (s.step line) :=
  (((grows_takePointer s line).trans (grows_takeName _ line)).trans
    (grows_takePanic _ line)).trans (grows_takeFrame _ line)

end Scan

/-- What the summary of more lines keeps. -/
structure Summary.Grows (a b : Summary) : Prop where
  instruction : a.instruction.Kept b.instruction
  panic : a.panic.Kept b.panic
  lockupFrames : ∀ frames ∈ a.lockupFrames, ∃ more ∈ b.lockupFrames, frames <+: more

theorem Scan.Grows.summary {s s' : Scan} (h : s.Grows s')
    (hinstruction : s.instruction.capture = .first) (hpanic : s.panic.capture = .first)
    (hfound : s.hardLockup = true → s.panic.isFound = true) :
    s.summary.Grows s'.summary where
  instruction := h.instruction.text hinstruction
  panic := by
    intro hne
    cases hf : s.panic.isFound with
    | true =>
        simp only [Scan.summary, Slot.text, h.panic.value_eq hpanic hf, h.hardLockup hpanic hf]
    | false =>
        have hhard : s.hardLockup = false := by
          cases hlock : s.hardLockup with
          | false => rfl
          | true => exact absurd (hfound hlock) (by simp [hf])
        have hempty := Slot.text_of_not_found hf
        exact absurd (by simp [Scan.summary, finalPanic, hhard, hempty]) hne
  lockupFrames := by
    intro frames hframes
    simp only [Scan.summary, Option.mem_def] at hframes ⊢
    split at hframes
    · next hlock =>
        cases hframes
        rw [h.hardLockup hpanic (hfound hlock), if_pos hlock]
        exact ⟨s'.frames, rfl, h.frames⟩
    · cases hframes

theorem scan_grows (s t : List Text) : (scan s).Grows (scan (s ++ t)) := by
  obtain ⟨hs, ht⟩ := foldl_append_grows Scan.Grows.refl Scan.Grows.trans Scan.grows_step
    .initial s t
  exact ht.summary hs.instruction.capture hs.panic.capture (hs.found fun h => nomatch h)

end Console

/-! ## Stacks of soft lockups -/

namespace StackTrace

namespace Reader

variable {banner : Banner}

theorem prefix_step (r : Reader) (line : Text) : r.text <+: (r.step banner line).text := by
  have hpointer : r.text <+: (r.takePointer line).text := by
    unfold takePointer
    split
    · exact List.prefix_rfl
    · split
      · exact List.prefix_rfl
      · rw [List.append_assoc]
        exact List.prefix_append _ _
  have hframe (r : Reader) : r.text <+: (r.takeFrame line).text := by
    unfold takeFrame
    split
    · exact List.prefix_rfl
    · split
      · exact List.prefix_append _ _
      · exact List.prefix_rfl
  unfold step
  split
  · exact hpointer.trans (hframe _)
  · exact List.prefix_rfl

theorem prefix_run (r : Reader) (lines : List Text) : r.text <+: (r.run banner lines).text := by
  induction lines generalizing r with
  | nil => exact List.prefix_rfl
  | cons line lines ih =>
      rw [run]
      split
      · exact List.prefix_rfl
      · exact (prefix_step r line).trans (ih _)

theorem run_of_isDone {r : Reader} (h : r.isDone = true) (lines : List Text) :
    r.run banner lines = r := by
  cases lines with
  | nil => rfl
  | cons line lines => rw [run, if_pos h]

theorem run_append (r : Reader) (s t : List Text) :
    r.run banner (s ++ t) = (r.run banner s).run banner t := by
  induction s generalizing r with
  | nil => rfl
  | cons line s ih =>
      rw [List.cons_append, run, run]
      split
      · next hdone => exact (run_of_isDone hdone t).symm
      · exact ih _

end Reader

theorem ofLines_isPrefix (banner : Banner) (s t : List Text) :
    ofLines banner s <+: ofLines banner (s ++ t) := by
  rw [ofLines, ofLines, Reader.run_append]
  exact Reader.prefix_run _ t

/-- A file that can be read to its end gives the trace of its lines. -/
theorem ofStream_of_lines {ε : Type} (banner : Banner) (lines : List Text) :
    ofStream banner (⟨lines, none⟩ : Lines.Stream ε) = .ok (ofLines banner lines) := by
  simp only [ofStream]
  split <;> rfl

end StackTrace

/-! ## Tombstones -/

namespace Tombstone

namespace Scan

/-- What a scan of more lines keeps. -/
structure Grows (s s' : Scan) : Prop where
  process : s.process.Kept s'.process
  signal : s.signal.Kept s'.signal
  faultAddress : s.signal.capture = .first → s.signal.isFound = true →
    s'.faultAddress = s.faultAddress
  /-- The address is not set before the signal is found. -/
  found : (s.faultAddress ≠ [] → s.signal.isFound = true) →
    s'.faultAddress ≠ [] → s'.signal.isFound = true

theorem Grows.refl (s : Scan) : s.Grows s :=
  ⟨.refl _, .refl _, fun _ _ => rfl, fun h => h⟩

theorem Grows.trans {s s' s'' : Scan} (h : s.Grows s') (h' : s'.Grows s'') : s.Grows s'' where
  process := h.process.trans h'.process
  signal := h.signal.trans h'.signal
  faultAddress hs hf :=
    (h'.faultAddress (h.signal.capture.trans hs) (h.signal.found hf)).trans
      (h.faultAddress hs hf)
  found := fun hs => h'.found (h.found hs)

theorem grows_takeSignal (s : Scan) (line : Text) : s.Grows (s.takeSignal line) := by
  unfold takeSignal
  split
  · simp only []
    generalize (if (s.nearSignal.anchor (isFingerprint line)).admits signalWindow then
      signalOn line else none) = candidate
    refine { Grows.refl s with signal := s.signal.kept_offer _, faultAddress := ?_, found := ?_ }
    · intro hs hf
      exact if_neg (Slot.not_takes hs hf)
    · intro hbefore hne
      by_cases htakes : s.signal.takes candidate = true
      · exact Slot.isFound_offer htakes
      · simp only [if_neg htakes] at hne
        exact (s.signal.kept_offer _).found (hbefore hne)
  · exact Grows.refl s

theorem grows_takeFrame (s : Scan) (line : Text) : s.Grows (s.takeFrame line) := by
  unfold takeFrame
  split
  · exact { Grows.refl s with }
  · exact Grows.refl s

theorem grows_takeAbort (s : Scan) (line : Text) : s.Grows (s.takeAbort line) := by
  unfold takeAbort
  split
  · exact { Grows.refl s with }
  · exact Grows.refl s

theorem grows_step (s : Scan) (line : Text) : s.Grows (s.step line) := by
  have hprocess : s.Grows { s with process := s.process.offer (processOn line) } :=
    { Grows.refl s with process := s.process.kept_offer _ }
  exact ((hprocess.trans (grows_takeSignal _ line)).trans (grows_takeFrame _ line)).trans
    (grows_takeAbort _ line)

end Scan

/-- What the summary of more lines keeps. -/
structure Summary.Grows (a b : Summary) : Prop where
  process : a.process.Kept b.process
  signal : a.signal.Kept b.signal
  faultAddress : a.faultAddress.Kept b.faultAddress

theorem scan_grows (s t : List Text) : (scan s).Grows (scan (s ++ t)) := by
  obtain ⟨hs, ht⟩ := foldl_append_grows Scan.Grows.refl Scan.Grows.trans Scan.grows_step
    .initial s t
  refine ⟨?_, ht.signal.text hs.signal.capture, ?_⟩
  · intro hne
    have htext := ht.process.text hs.process.capture
      (by rintro hempty; exact hne (by rw [scan, Scan.summary, hempty]; rfl))
    simp only [scan, Scan.summary, htext]
  · intro hne
    exact ht.faultAddress hs.signal.capture (hs.found (fun h => absurd rfl h) hne)

end Tombstone

/-! ## Java crashes -/

namespace JavaCrash

namespace Scan

/-- What a scan of more lines keeps. -/
structure Grows (s s' : Scan) : Prop where
  process : s.process.Kept s'.process
  frames : s.frames <+: s'.frames

theorem Grows.refl (s : Scan) : s.Grows s := ⟨.refl _, List.prefix_rfl⟩

theorem Grows.trans {s s' s'' : Scan} (h : s.Grows s') (h' : s'.Grows s'') : s.Grows s'' :=
  ⟨h.process.trans h'.process, h.frames.trans h'.frames⟩

theorem grows_takeFrame (s : Scan) (line : Text) : s.Grows (s.takeFrame line) := by
  unfold takeFrame
  split
  · split
    · exact Grows.refl s
    · exact { Grows.refl s with frames := List.prefix_append _ _ }
  · exact Grows.refl s

theorem grows_step (s : Scan) (line : Text) : s.Grows (s.step line) := by
  have hslots : s.Grows { s with
      process := s.process.offer (processLine.read line)
      cause := s.cause.offer (causedBy.read line) } :=
    { Grows.refl s with process := s.process.kept_offer _ }
  exact { hslots.trans (grows_takeFrame _ line) with }

end Scan

/-- What the report of more lines keeps. -/
structure Report.Grows (a b : Report) : Prop where
  process : a.process.Kept b.process
  frames : a.frames <+: b.frames

theorem scan_grows (s t : List Text) : (scan s).Grows (scan (s ++ t)) := by
  obtain ⟨hs, ht⟩ := foldl_append_grows Scan.Grows.refl Scan.Grows.trans Scan.grows_step
    .initial s t
  exact ⟨ht.process.text hs.process.capture, Text.join_isPrefix ht.frames⟩

end JavaCrash

/-! ## Traces -/

namespace Trace

theorem takeFrame_isPrefix (frames : List Text) (line : Text) :
    frames <+: takeFrame frames line := by
  unfold takeFrame
  split
  · exact List.prefix_append _ _
  · exact List.prefix_rfl

/-- What the header of more lines keeps. -/
structure Header.Grows (h h' : Header) : Prop where
  process : h.process.Kept h'.process
  subject : h.subject.Kept h'.subject

theorem Header.Grows.refl (h : Header) : h.Grows h := ⟨.refl _, .refl _⟩

theorem Header.Grows.trans {a b c : Header} (h : a.Grows b) (h' : b.Grows c) : a.Grows c :=
  ⟨h.process.trans h'.process, h.subject.trans h'.subject⟩

theorem Header.grows_step (h : Header) (line : Text) : h.Grows (h.step line) :=
  ⟨h.process.kept_offer _, h.subject.kept_offer _⟩

/-- What the report of more lines keeps. -/
structure Report.Grows (a b : Report) : Prop where
  process : a.process.Kept b.process
  subject : a.subject.Kept b.subject
  frames : a.frames <+: b.frames

theorem Report.grows_of {h h' : Header} {frames more : List Text} (hinit : Header.initial.Grows h)
    (hgrows : h.Grows h') (hframes : frames <+: more) : (of h frames).Grows (of h' more) :=
  ⟨hgrows.process.text hinit.process.capture, hgrows.subject.text hinit.subject.capture,
    Text.join_isPrefix hframes⟩

theorem scanHeader_grows (s t : List Text) : (scanHeader s).Grows (scanHeader (s ++ t)) := by
  obtain ⟨hs, ht⟩ := foldl_append_grows Header.Grows.refl Header.Grows.trans Header.grows_step
    .initial s t
  exact Report.grows_of hs ht List.prefix_rfl

/-- What the watchdog's scan of more lines keeps. -/
structure WatchdogScan.Grows (s s' : WatchdogScan) : Prop where
  header : s.header.Grows s'.header
  frames : s.frames <+: s'.frames

namespace WatchdogScan

theorem Grows.refl (s : WatchdogScan) : s.Grows s := ⟨.refl _, List.prefix_rfl⟩

theorem Grows.trans {a b c : WatchdogScan} (h : a.Grows b) (h' : b.Grows c) : a.Grows c :=
  ⟨h.header.trans h'.header, h.frames.trans h'.frames⟩

theorem grows_step (s : WatchdogScan) (line : Text) : s.Grows (s.step line) :=
  ⟨s.header.grows_step line, takeFrame_isPrefix _ line⟩

end WatchdogScan

theorem scanWatchdog_grows (s t : List Text) :
    (scanWatchdog s).Grows (scanWatchdog (s ++ t)) := by
  obtain ⟨hs, ht⟩ := foldl_append_grows WatchdogScan.Grows.refl WatchdogScan.Grows.trans
    WatchdogScan.grows_step .initial s t
  exact Report.grows_of hs.header ht.header ht.frames

/-- What the scan of a longer trace keeps. -/
structure AnrScan.Grows (s s' : AnrScan) : Prop where
  header : s.header.Grows s'.header
  cpu : s.cpu.Kept s'.cpu
  frames : s.frames <+: s'.frames

namespace AnrScan

theorem Grows.refl (s : AnrScan) : s.Grows s := ⟨.refl _, .refl _, List.prefix_rfl⟩

theorem Grows.trans {a b c : AnrScan} (h : a.Grows b) (h' : b.Grows c) : a.Grows c :=
  ⟨h.header.trans h'.header, h.cpu.trans h'.cpu, h.frames.trans h'.frames⟩

theorem grows_step (s : AnrScan) (line : Text) : s.Grows (s.step line) where
  header := s.header.grows_step line
  cpu := s.cpu.kept_offer _
  frames := by
    simp only [step]
    split
    · exact takeFrame_isPrefix _ line
    · exact List.prefix_rfl

end AnrScan

/-- What the report of a longer trace keeps. -/
structure AnrReport.Grows (a b : AnrReport) : Prop where
  report : a.report.Grows b.report
  cpu : a.cpu.Kept b.cpu

theorem scanAnr_grows (s t : List Text) : (scanAnr s).Grows (scanAnr (s ++ t)) := by
  obtain ⟨hs, ht⟩ := foldl_append_grows AnrScan.Grows.refl AnrScan.Grows.trans
    AnrScan.grows_step .initial s t
  exact ⟨Report.grows_of hs.header ht.header ht.frames, ht.cpu.text hs.cpu.capture⟩

end Trace

/-! ## Fields -/

namespace Fields

/-- Whether the value under a name is there and kept. -/
def KeptAt (f g : Fields) (key : FieldKey) : Prop :=
  ∃ v w, f.get? key = some v ∧ g.get? key = some w ∧ v.Kept w

/-- Whether the value under a name is there and only added to. -/
def GrowsAt (f g : Fields) (key : FieldKey) : Prop :=
  ∃ v w, f.get? key = some v ∧ g.get? key = some w ∧ v <+: w

/-- Under each of some names stands what is made of the place of the same number. -/
theorem exists_lookup_zip {ρ : Type} {keys : List FieldKey} {places : List ρ} {key : FieldKey}
    (hlen : keys.length ≤ places.length) (hkey : key ∈ keys) :
    ∃ place ∈ places, ∀ value : ρ → Text,
      (keys.zip (places.map value)).lookup key = some (value place) := by
  induction keys generalizing places with
  | nil => cases hkey
  | cons k keys ih =>
      rcases places with _ | ⟨place, places⟩
      · cases hlen
      · by_cases heq : key = k
        · subst heq
          exact ⟨place, List.mem_cons_self, fun value => by simp⟩
        · obtain ⟨p, hmem, hp⟩ := ih (Nat.le_of_succ_le_succ hlen)
            ((List.mem_cons.mp hkey).resolve_left heq)
          refine ⟨p, List.mem_cons_of_mem _ hmem, fun value => ?_⟩
          rw [List.map_cons, List.zip_cons_cons, List.lookup_cons, beq_eq_false_iff_ne.mpr heq]
          exact hp value

/-- Values that are found by searches are kept. -/
theorem keptAt_searches {ρ : Type} {keys : List FieldKey} {places : List ρ}
    (read : ρ → Text → Option Text) (hnodup : keys.Nodup) (hlen : keys.length ≤ places.length)
    (s t : List Text) {key : FieldKey} (hkey : key ∈ keys) :
    KeptAt (ofList (keys.zip (places.map fun place => (s.findSome? (read place)).getD [])))
      (ofList (keys.zip (places.map fun place => ((s ++ t).findSome? (read place)).getD [])))
      key := by
  obtain ⟨place, _, hlookup⟩ := exists_lookup_zip hlen hkey
  have hget (value : ρ → Text) :
      (ofList (keys.zip (places.map value))).get? key = some (value place) := by
    rw [get?, entries_ofList, hlookup]
    rwa [List.map_fst_zip (by rwa [List.length_map])]
  exact ⟨_, _, hget _, hget _, Text.kept_findSome? (read place) s t⟩

end Fields

theorem Coredump.scanPassed_keptAt (s t : List Text) :
    ∀ key ∈ passedKeys, (scanPassed s).KeptAt (scanPassed (s ++ t)) key := by
  intro key hkey
  rw [scanPassed, scanPassed, firstMatches_eq, firstMatches_eq]
  exact Fields.keptAt_searches Probe.read (by decide) (by decide) s t hkey

/-! ## Fabric dumps -/

namespace Fabric

theorem scanRegisters_keptAt (s t : List Text) :
    ∀ key ∈ ([.data 0, .data 1, .data 2] : List FieldKey),
      (scanRegisters s).KeptAt (scanRegisters (s ++ t)) key := by
  intro key hkey
  rw [scanRegisters_eq, scanRegisters_eq]
  exact Fields.keptAt_searches (fun register => (Piece.lineWith register).of) (by decide)
    (by decide) s t hkey

theorem ErrorScan.kept_headline (s : ErrorScan) (line : Text) :
    s.headline.Kept (s.step line).headline := by
  unfold step
  split
  · exact s.headline.kept_offer _
  · exact .refl _

theorem scanErrors_keptAt (s t : List Text) :
    (scanErrors s).KeptAt (scanErrors (s ++ t)) (.data 0) := by
  obtain ⟨hs, ht⟩ := foldl_append_grows
    (R := fun a b : ErrorScan => a.headline.Kept b.headline) (fun _ => .refl _)
    (fun h h' => h.trans h') ErrorScan.kept_headline .initial s t
  exact ⟨_, _, rfl, rfl, ht.text hs.capture⟩

namespace Section

/-- Whether a section has no lines before its title. -/
def Fresh (s : Section) : Prop := s.progress = .seeking → s.lines = []

/-- Whether a section, if it was sound, is sound and has only been added to. -/
structure Grows (s s' : Section) : Prop where
  fresh : s.Fresh → s'.Fresh
  lines : s.Fresh → s.lines <+: s'.lines

theorem Grows.refl (s : Section) : s.Grows s := ⟨fun h => h, fun _ => List.prefix_rfl⟩

theorem Grows.trans {a b c : Section} (h : a.Grows b) (h' : b.Grows c) : a.Grows c :=
  ⟨fun ha => h'.fresh (h.fresh ha), fun ha => (h.lines ha).trans (h'.lines (h.fresh ha))⟩

theorem grows_close (s : Section) : s.Grows s.close :=
  ⟨fun _ h => (nomatch h), fun _ => List.prefix_rfl⟩

theorem grows_feed (s : Section) (line : Text) : s.Grows (s.feed line) := by
  unfold feed
  split
  · next hseeking =>
      split
      · refine ⟨fun _ h => (nomatch h), fun hfresh => ?_⟩
        rw [hfresh hseeking]
      · exact Grows.refl s
  · next hcapturing =>
      split
      · exact Grows.refl s
      · split
        · exact grows_close s
        · exact ⟨fun _ h => absurd (hcapturing.symm.trans h) (by decide),
            fun _ => List.prefix_append _ _⟩
  · exact Grows.refl s

end Section

namespace SectionScan

/-- What a scan of more lines keeps. -/
structure Grows (s s' : SectionScan) : Prop where
  summary : s.summary.Grows s'.summary
  length : s.length.Kept s'.length

theorem Grows.refl (s : SectionScan) : s.Grows s := ⟨.refl _, .refl _⟩

theorem Grows.trans {a b c : SectionScan} (h : a.Grows b) (h' : b.Grows c) : a.Grows c :=
  ⟨h.summary.trans h'.summary, h.length.trans h'.length⟩

theorem grows_feedSummary (summary errorLog : Section) (line : Text) :
    summary.Grows (feedSummary summary errorLog line) := by
  have hcurrent : summary.Grows
      (if summary.progress = .capturing && errorLog.started then summary.close else summary) := by
    split
    · exact summary.grows_close
    · exact .refl _
  simp only [feedSummary]
  generalize (if summary.progress = .capturing && errorLog.started then summary.close
    else summary) = current at hcurrent ⊢
  have hfed := hcurrent.trans (Section.grows_feed _ line)
  split
  · exact hfed.trans (Section.grows_close _)
  · exact hfed

theorem grows_step (controller : Bool) (s : SectionScan) (line : Text) :
    s.Grows (s.step controller line) :=
  ⟨grows_feedSummary _ _ line, s.length.kept_offer _⟩

end SectionScan

theorem scanSectioned_grows (controller : Bool) (s t : List Text) :
    (scanSectioned controller s).GrowsAt (scanSectioned controller (s ++ t)) (.data 0) ∧
      (scanSectioned controller s).GrowsAt (scanSectioned controller (s ++ t)) (.data 1) ∧
      (scanSectioned controller s).KeptAt (scanSectioned controller (s ++ t)) (.data 4) := by
  obtain ⟨hs, ht⟩ := foldl_append_grows SectionScan.Grows.refl SectionScan.Grows.trans
    (SectionScan.grows_step controller) .initial s t
  have hlines := ht.summary.lines (hs.summary.fresh fun _ => rfl)
  exact ⟨⟨_, _, rfl, rfl, Text.join_isPrefix (hlines.take 2)⟩,
    ⟨_, _, rfl, rfl, Text.join_isPrefix (hlines.drop 2)⟩,
    ⟨_, _, rfl, rfl, ht.length.text hs.length.capture⟩⟩

end Fabric

/-! ## All the scans -/

/-- What a scan has found in the lines `s` it finds in `s ++ t` too. -/
theorem scans_monotone (s t : List Text) :
    (Console.scan s).Grows (Console.scan (s ++ t)) ∧
    (Tombstone.scan s).Grows (Tombstone.scan (s ++ t)) ∧
    (JavaCrash.scan s).Grows (JavaCrash.scan (s ++ t)) ∧
    (Trace.scanAnr s).Grows (Trace.scanAnr (s ++ t)) ∧
    (Trace.scanWatchdog s).Grows (Trace.scanWatchdog (s ++ t)) ∧
    (Trace.scanHeader s).Grows (Trace.scanHeader (s ++ t)) ∧
    (∀ key ∈ Coredump.passedKeys,
      (Coredump.scanPassed s).KeptAt (Coredump.scanPassed (s ++ t)) key) ∧
    (∀ controller,
      (Fabric.scanSectioned controller s).GrowsAt
        (Fabric.scanSectioned controller (s ++ t)) (.data 0) ∧
      (Fabric.scanSectioned controller s).GrowsAt
        (Fabric.scanSectioned controller (s ++ t)) (.data 1) ∧
      (Fabric.scanSectioned controller s).KeptAt
        (Fabric.scanSectioned controller (s ++ t)) (.data 4)) ∧
    (Fabric.scanFlat false s).KeptAt (Fabric.scanFlat false (s ++ t)) (.data 0) ∧
    (∀ key ∈ ([.data 0, .data 1, .data 2] : List FieldKey),
      (Fabric.scanFlat true s).KeptAt (Fabric.scanFlat true (s ++ t)) key) ∧
    ∀ (ε : Type) (banner : Banner), ∃ trace more,
      StackTrace.ofStream banner (⟨s, none⟩ : Lines.Stream ε) = .ok trace ∧
      StackTrace.ofStream banner (⟨s ++ t, none⟩ : Lines.Stream ε) = .ok more ∧ trace <+: more :=
  ⟨Console.scan_grows s t, Tombstone.scan_grows s t, JavaCrash.scan_grows s t,
    Trace.scanAnr_grows s t, Trace.scanWatchdog_grows s t, Trace.scanHeader_grows s t,
    Coredump.scanPassed_keptAt s t, fun controller => Fabric.scanSectioned_grows controller s t,
    Fabric.scanErrors_keptAt s t, Fabric.scanRegisters_keptAt s t,
    fun _ banner => ⟨_, _, StackTrace.ofStream_of_lines banner s,
      StackTrace.ofStream_of_lines banner (s ++ t), StackTrace.ofLines_isPrefix banner s t⟩⟩

end CrashDigest
