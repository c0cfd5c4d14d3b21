import CrashDigest.Event.Extract
import CrashDigest.Proofs.ScanOneLine

/-!
# What an extraction can give

`Family.Gives` lists, family by family, the fields that an extraction may end
with when it does not fail: those of a scan over lines that hold no line feed,
and the few that are told without a scan. It leaves out which artifact the
lines came from, since nothing below asks.

Two facts about the fields are read off this list. Every value stays within one
line, and the names come in one of a handful of layouts, in which no name is
repeated. The layouts of the families that an old tag can lead to begin with
`DATA0` and go on with `DATA1`, which is what keeps the mark of a lost dropbox
entry apart from a value.
-/

namespace CrashDigest

theorem exists_of_map_eq_ok {ε α β : Type} {x : Except ε α} {f : α → β} {b : β}
    (h : x.map f = .ok b) : ∃ a, x = .ok a ∧ f a = b := by
  cases x with
  | error e => cases h
  | ok a => exact ⟨a, rfl, Except.ok.inj h⟩

/-- The fields that the extraction of a family can give. -/
inductive Family.Gives : Family → Fields → Prop where
  | nothing {family : Family} (h : family ≠ .panic) : Gives family .empty
  | console {found : Fields} (h : found.OneLine) : Gives .panic (Panic.filled found)
  | tooLittle : Gives .panic (Fields.empty.set (.data 0) Panic.insufficientData)
  | header :
      Gives .panic ((Fields.empty.set (.data 0) Panic.insufficientData).set (.data 3) "emmc_hdr")
  | flat {lines : List Text} (hl : ∀ line ∈ lines, line.OneLine) :
      Gives .fabric (Fabric.scanLegacy lines)
  | sectioned {lines : List Text} (controller : Bool) (hl : ∀ line ∈ lines, line.OneLine) :
      Gives .fabric (Fabric.scanSectioned controller lines)
  | tombstone {lines : List Text} (hl : ∀ line ∈ lines, line.OneLine) :
      Gives .tombstone (Tombstone.fields (Tombstone.scan lines))
  | java {lines : List Text} (kind : JavaCrashKind) (hl : ∀ line ∈ lines, line.OneLine) :
      Gives .java (JavaCrash.fields kind (JavaCrash.scan lines))
  | anr {lines : List Text} (hl : ∀ line ∈ lines, line.OneLine) :
      Gives .anr (Trace.anrFields (Trace.scanAnr lines))
  | watchdog {lines : List Text} (hl : ∀ line ∈ lines, line.OneLine) :
      Gives .watchdog (Trace.watchdogFields (Trace.scanWatchdog lines))
  | assertion {lines : List Text} (hl : ∀ line ∈ lines, line.OneLine) :
      Gives .assertion (Trace.assertionFields (Trace.scanHeader lines))
  | passed {family : Family} {lines : List Text}
      (h : family ∈ ([.modemPanic, .coredump, .generic] : List Family))
      (hl : ∀ line ∈ lines, line.OneLine) : Gives family (Coredump.scanPassed lines)
  | modem {lines : List Text} (hl : ∀ line ∈ lines, line.OneLine) :
      Gives .modemPanic (Coredump.modemFields lines)
  | trap {lines : List Text} (hl : ∀ line ∈ lines, line.OneLine) :
      Gives .coredump (Coredump.trapFields lines)

/-! ## The trial of the consoles -/

namespace Panic

theorem oneLine_of_consoleFields {files : FileTree} {path : Path} {f : Fields}
    (h : consoleFields files path = .ok f) : f.OneLine := by
  unfold consoleFields at h
  split at h
  · cases h
  · next s hstream =>
      split at h
      · next fields hfields =>
          cases h
          exact Console.oneLine_of_fields (Artifact.oneLine_of_stream hstream) hfields
      · cases h

/-- What the trial takes is what one of the places gave. -/
theorem exists_read_of_tryAll {κ : Type} {read : κ → Option (Except ArtifactError Fields)}
    {places : List κ} {f : Fields} (h : (tryAll read places).found = some f) :
    ∃ place ∈ places, read place = some (.ok f) := by
  induction places with
  | nil => cases h
  | cons place places ih =>
      rw [tryAll] at h
      have hrest : (tryAll read places).found = some f →
          ∃ p ∈ place :: places, read p = some (.ok f) := fun hfound =>
        let ⟨p, hmem, hp⟩ := ih hfound
        ⟨p, List.mem_cons_of_mem _ hmem, hp⟩
      split at h
      · exact hrest h
      · next fields hread =>
          split at h
          · cases h
            exact ⟨place, List.mem_cons_self, hread⟩
          · exact hrest h
      · exact hrest h

theorem gives_of_extract {e : Event} {x : Extraction} (h : extract e = .ok x) :
    Family.Gives .panic x.fields := by
  simp only [extract] at h
  obtain ⟨f, hf, rfl⟩ := exists_of_map_eq_ok h
  unfold Trial.fields at hf
  split at hf
  · next found _ hfound =>
      cases hf
      obtain ⟨pattern, _, hread⟩ := exists_read_of_tryAll hfound
      obtain ⟨path, _, hpath⟩ := Option.map_eq_some_iff.mp hread
      exact .console (oneLine_of_consoleFields hpath)
  · cases hf
  · cases hf
    simp only [Extraction.of]
    split
    · exact .header
    · exact .tooLittle

end Panic

/-! ## The other families -/

namespace Event

variable {e : Event} {x : Extraction} {family : Family}

/-- A scan that succeeds is that of some lines, none of which holds a line feed. -/
theorem exists_lines_of_scan {α : Type} {path : Path} {scan : List Text → α} {a : α}
    (h : e.scan path scan = .ok a) :
    ∃ lines, (∀ line ∈ lines, Text.OneLine line) ∧ a = scan lines := by
  unfold Event.scan Artifact.scan at h
  split at h
  · cases h
  · next s hstream =>
      split at h
      · next b hread =>
          cases h
          exact ⟨s.lines, Artifact.oneLine_of_stream hstream,
            (Lines.Stream.readAll_eq_ok hread).2⟩
      · cases h

theorem gives_of_map_scan {α : Type} {path : Path} {scan : List Text → α}
    {make : α → Extraction}
    (hmake : ∀ lines, (∀ line ∈ lines, Text.OneLine line) →
      family.Gives (make (scan lines)).fields)
    (h : (e.scan path scan).map make = .ok x) : family.Gives x.fields := by
  obtain ⟨a, ha, rfl⟩ := exists_of_map_eq_ok h
  obtain ⟨lines, hl, rfl⟩ := exists_lines_of_scan ha
  exact hmake lines hl

theorem gives_of_fromArtifact {patterns : List Pattern} {fields : List Text → Fields}
    (hfamily : family ≠ .panic)
    (hfields : ∀ lines, (∀ line ∈ lines, Text.OneLine line) → family.Gives (fields lines))
    (h : e.fromArtifact patterns fields = .ok x) : family.Gives x.fields := by
  unfold fromArtifact at h
  split at h
  · cases h
    exact .nothing hfamily
  · exact gives_of_map_scan hfields h

theorem gives_of_generic
    (hfamily : family ∈ ([.modemPanic, .coredump, .generic] : List Family))
    (h : e.generic = .ok x) : family.Gives x.fields := by
  refine gives_of_fromArtifact ?_ (fun _ hl => .passed hfamily hl) h
  rintro rfl
  exact absurd hfamily (by decide)

theorem gives_of_fabric (h : e.fabric = .ok x) : Family.Gives .fabric x.fields := by
  refine gives_of_fromArtifact (by decide) (fun lines hl => ?_) h
  split
  · exact .flat hl
  · exact .sectioned _ hl

theorem gives_of_tombstone (h : e.tombstone = .ok x) : Family.Gives .tombstone x.fields := by
  unfold Event.tombstone at h
  split at h
  · cases h
    exact .nothing (by decide)
  · exact gives_of_map_scan (fun _ hl => .tombstone hl) h

theorem gives_of_java (h : e.java = .ok x) : Family.Gives .java x.fields := by
  unfold Event.java at h
  split at h
  · cases h
    exact .nothing (by decide)
  · exact gives_of_map_scan (fun _ hl => .java _ hl) h

theorem gives_of_modemPanic (h : e.modemPanic = .ok x) :
    Family.Gives .modemPanic x.fields := by
  unfold Event.modemPanic at h
  split at h
  · exact gives_of_generic (by decide) h
  · exact gives_of_map_scan (fun _ hl => .modem hl) h

theorem gives_of_coredump (h : e.coredump = .ok x) : Family.Gives .coredump x.fields := by
  unfold Event.coredump at h
  split at h
  · exact gives_of_generic (by decide) h
  · exact gives_of_map_scan (fun _ hl => .trap hl) h

theorem gives_of_extract (h : e.extract family = .ok x) : family.Gives x.fields := by
  cases family with
  | panic => exact Panic.gives_of_extract h
  | fabric => exact gives_of_fabric h
  | tombstone => exact gives_of_tombstone h
  | java => exact gives_of_java h
  | anr => exact gives_of_fromArtifact (by decide) (fun _ hl => .anr hl) h
  | watchdog => exact gives_of_fromArtifact (by decide) (fun _ hl => .watchdog hl) h
  | assertion => exact gives_of_fromArtifact (by decide) (fun _ hl => .assertion hl) h
  | modemPanic => exact gives_of_modemPanic h
  | coredump => exact gives_of_coredump h
  | generic => exact gives_of_generic (by decide) h

end Event

/-! ## Values of one line -/

theorem Panic.oneLine_filled {found : Fields} (hf : found.OneLine) :
    (filled found).OneLine := by
  refine Fields.oneLine_ofList fun e he => ?_
  obtain ⟨key, _, rfl⟩ := List.mem_map.mp he
  simp only []
  cases h : found.get? key with
  | none => exact Text.OneLine.nil
  | some value => exact hf.of_get? h

theorem Family.Gives.oneLine {family : Family} {f : Fields} (h : family.Gives f) :
    f.OneLine := by
  have htold : (Fields.empty.set (.data 0) Panic.insufficientData).OneLine :=
    Fields.oneLine_empty.set (by decide)
  cases h with
  | nothing => exact Fields.oneLine_empty
  | console hf => exact Panic.oneLine_filled hf
  | tooLittle => exact htold
  | header => exact htold.set (by decide)
  | flat hl => exact Fabric.oneLine_scanLegacy hl
  | sectioned _ hl => exact Fabric.oneLine_scanSectioned hl
  | tombstone hl => exact Tombstone.oneLine_fields_scan hl
  | java _ hl => exact JavaCrash.oneLine_fields_scan hl
  | anr hl => exact Trace.oneLine_anrFields_scanAnr hl
  | watchdog hl => exact Trace.oneLine_watchdogFields (Trace.oneLine_scanWatchdog hl)
  | assertion hl => exact Trace.oneLine_assertionFields (Trace.oneLine_scanHeader hl)
  | passed _ hl => exact Coredump.oneLine_scanPassed hl
  | modem hl => exact Coredump.oneLine_modemFields hl
  | trap hl => exact Coredump.oneLine_trapFields hl

/-! ## Layouts of the names -/

/-- The lists of names that the fields of a family can have. -/
def Family.layouts : Family → List (List FieldKey)
  | .panic => [[.data 0, .data 1, .data 2, .data 3], [.data 0], [.data 0, .data 3]]
  | .fabric => [[], [.data 0, .data 1, .data 2], [.data 0, .data 1, .data 2, .data 4]]
  | .tombstone => [[], [.data 0, .data 1, .data 2, .data 3]]
  | .java =>
      [[], [.data 0, .data 1, .data 2], [.data 0, .data 1, .data 3, .data 2]]
  | .anr => [[], [.data 0, .data 1, .data 2, .data 3]]
  | .watchdog => [[], [.data 0, .data 1, .data 2]]
  | .assertion => [[], [.data 0, .data 1]]
  | .modemPanic => [[], [.data 0, .data 1, .data 3], Coredump.passedKeys]
  | .coredump => [[], [.data 0, .data 1, .data 2], Coredump.passedKeys]
  | .generic => [[], Coredump.passedKeys]

theorem Family.nodup_of_mem_layouts {family : Family} {layout : List FieldKey}
    (h : layout ∈ family.layouts) : layout.Nodup := by
  cases family <;> revert layout <;> decide

/-- Fields made of a list have a layout if the list has. -/
theorem Family.keys_mem_layouts {family : Family} {entries : List (FieldKey × Text)}
    (layout : List FieldKey) (hfst : entries.map Prod.fst = layout)
    (h : layout ∈ family.layouts) : (Fields.ofList entries).keys ∈ family.layouts := by
  subst hfst
  rwa [Fields.keys_ofList (nodup_of_mem_layouts h)]

theorem Coredump.length_firstMatches (probes : List Probe) (lines : List Text) :
    (firstMatches probes lines).length = probes.length := by
  rw [firstMatches_eq, List.length_map]

theorem Coredump.map_fst_scanPassed (lines : List Text) :
    (passedKeys.zip (firstMatches (passedKeys.map fun key => .labelled key.name "=")
      lines)).map Prod.fst = passedKeys := by
  refine List.map_fst_zip (Nat.le_of_eq ?_)
  rw [length_firstMatches, List.length_map]

theorem Coredump.keys_modemFields (lines : List Text) :
    (modemFields lines).keys ∈ Family.modemPanic.layouts := by
  unfold modemFields
  split
  · exact Family.keys_mem_layouts [.data 0, .data 1, .data 3] rfl (by decide)
  · decide

theorem JavaCrash.keys_fields (kind : JavaCrashKind) (r : Report) :
    (fields kind r).keys ∈ Family.java.layouts := by
  unfold fields summaryFields
  split
  · exact Family.keys_mem_layouts [.data 0, .data 1, .data 2] rfl (by decide)
  · split
    · exact Family.keys_mem_layouts [.data 0, .data 1, .data 3, .data 2] rfl (by decide)
    · exact Family.keys_mem_layouts [.data 0, .data 1, .data 2] rfl (by decide)

theorem Fabric.keys_scanLegacy (lines : List Text) :
    (scanLegacy lines).keys ∈ Family.fabric.layouts := by
  unfold scanLegacy scanFlat
  split
  · rw [scanRegisters_eq]
    exact Family.keys_mem_layouts [.data 0, .data 1, .data 2]
      (List.map_fst_zip (by rw [List.length_map]; decide)) (by decide)
  · exact Family.keys_mem_layouts [.data 0, .data 1, .data 2] rfl (by decide)

theorem Trace.keys_anrFields (r : AnrReport) :
    (anrFields r).keys = [.data 0, .data 1, .data 2, .data 3] := by
  have hreport : (watchdogFields r.report).entries.map Prod.fst = [.data 0, .data 1, .data 2] :=
    Fields.keys_ofList (by simp)
  rw [anrFields, Fields.keys, Fields.set, Assoc.keys_put, hreport]
  decide

/-- The names come in one of the layouts of the family. -/
theorem Family.Gives.keys_mem_layouts {family : Family} {f : Fields} (h : family.Gives f) :
    f.keys ∈ family.layouts := by
  cases h with
  | nothing hne =>
      cases family
      case panic => exact absurd rfl hne
      all_goals exact List.mem_cons_self
  | console _ =>
      exact Family.keys_mem_layouts [.data 0, .data 1, .data 2, .data 3] rfl (by decide)
  | tooLittle => decide
  | header => decide
  | flat _ => exact Fabric.keys_scanLegacy _
  | sectioned _ _ =>
      exact Family.keys_mem_layouts [.data 0, .data 1, .data 2, .data 4] rfl (by decide)
  | tombstone _ =>
      exact Family.keys_mem_layouts [.data 0, .data 1, .data 2, .data 3] rfl (by decide)
  | java kind _ => exact JavaCrash.keys_fields kind _
  | anr _ =>
      rw [Trace.keys_anrFields]
      decide
  | watchdog _ => exact Family.keys_mem_layouts [.data 0, .data 1, .data 2] rfl (by decide)
  | assertion _ => exact Family.keys_mem_layouts [.data 0, .data 1] rfl (by decide)
  | passed hfamily _ =>
      refine Family.keys_mem_layouts Coredump.passedKeys (Coredump.map_fst_scanPassed _) ?_
      revert family
      decide
  | modem _ => exact Coredump.keys_modemFields _
  | trap _ =>
      refine Family.keys_mem_layouts [.data 0, .data 1, .data 2] (List.map_fst_zip ?_) (by decide)
      rw [Coredump.length_firstMatches]
      decide

end CrashDigest
