import CrashDigest.Event.Extract

/-!
# What an extraction looks at

An extraction sees its files in two ways only: it asks for the file that a
pattern finds, and it reads the lines of a file that was found. So two events
that find the same files with the patterns of a family, and the same lines in
them, give the same fields, whatever else their trees hold. The patterns asked for are those
of `Family.artifacts`, which is checked here family by family.
-/

namespace CrashDigest

/-- Whether the patterns find the same files in two events, with the same lines. -/
structure Event.AgreeOn (patterns : List Pattern) (e e' : Event) : Prop where
  dir : e'.dir = e.dir
  tag : e'.tag = e.tag
  legacyFabric : e'.legacyFabric = e.legacyFabric
  find : ∀ pattern ∈ patterns, e'.files.find? e'.dir pattern = e.files.find? e.dir pattern
  stream : ∀ pattern ∈ patterns, ∀ path, e.files.find? e.dir pattern = some path →
    Artifact.stream e'.files path = Artifact.stream e.files path

theorem Artifact.stream_congr {files files' : FileTree} {path : Path}
    (h : files'.read path = files.read path) : stream files' path = stream files path := by
  rw [stream, stream, open?, open?, h]

namespace Event

variable {e e' : Event} {patterns asked : List Pattern} {path : Path}

theorem find?_cons (e : Event) (pattern : Pattern) (asked : List Pattern) :
    e.find? (pattern :: asked) = (e.files.find? e.dir pattern).or (e.find? asked) := by
  rw [find?, FileTree.findFirst?, List.findSome?_cons]
  cases e.files.find? e.dir pattern <;> rfl

namespace AgreeOn

theorem mono (h : AgreeOn patterns e e') (hsub : asked ⊆ patterns) : AgreeOn asked e e' :=
  { h with
    find := fun pattern hmem => h.find pattern (hsub hmem)
    stream := fun pattern hmem => h.stream pattern (hsub hmem) }

theorem find? (h : AgreeOn patterns e e') : e'.find? patterns = e.find? patterns := by
  induction patterns with
  | nil => rfl
  | cons pattern patterns ih =>
      rw [find?_cons, find?_cons, h.find pattern List.mem_cons_self,
        ih (h.mono (List.subset_cons_self _ _))]

theorem stream_found (h : AgreeOn patterns e e') (hpath : e.find? patterns = some path) :
    Artifact.stream e'.files path = Artifact.stream e.files path := by
  obtain ⟨pattern, hmem, hfind⟩ := List.exists_of_findSome?_eq_some hpath
  exact h.stream pattern hmem path hfind

theorem scan {α : Type} (h : AgreeOn patterns e e') (hpath : e.find? patterns = some path)
    (scan : List Text → α) : e'.scan path scan = e.scan path scan := by
  rw [Event.scan, Event.scan, Artifact.scan, Artifact.scan, h.stream_found hpath]

theorem fromArtifact (h : AgreeOn patterns e e') (fields : List Text → Fields) :
    e'.fromArtifact patterns fields = e.fromArtifact patterns fields := by
  rw [Event.fromArtifact, Event.fromArtifact, h.find?]
  split
  · rfl
  · next path hpath => rw [h.scan hpath]

theorem tombstone (h : AgreeOn ArtifactName.tombstones e e') : e'.tombstone = e.tombstone := by
  rw [Event.tombstone, Event.tombstone, h.find?]
  split
  · rfl
  · next path hpath => rw [h.scan hpath, h.tag]

theorem findSome?_reports {reports : List (JavaCrashKind × List Pattern)}
    (h : ∀ report ∈ reports, AgreeOn report.2 e e') :
    (reports.findSome? fun (kind, patterns) => (e'.find? patterns).map (kind, ·)) =
      reports.findSome? fun (kind, patterns) => (e.find? patterns).map (kind, ·) := by
  induction reports with
  | nil => rfl
  | cons report reports ih =>
      obtain ⟨kind, patterns⟩ := report
      have hfind : e'.find? patterns = e.find? patterns := (h _ List.mem_cons_self).find?
      have hrest := ih fun report hmem => h report (List.mem_cons_of_mem _ hmem)
      rw [List.findSome?_cons, List.findSome?_cons, hrest]
      simp only [hfind]

theorem java (h : AgreeOn Family.java.artifacts e e') : e'.java = e.java := by
  have hreports : ∀ report ∈ javaReports, AgreeOn report.2 e e' := by
    simp only [javaReports, List.forall_mem_cons]
    refine ⟨h.mono ?_, h.mono ?_, h.mono ?_, List.forall_mem_nil _⟩
    · exact List.subset_append_of_subset_left _ (List.subset_append_left _ _)
    · exact List.subset_append_of_subset_left _ (List.subset_append_right _ _)
    · exact List.subset_append_right _ _
  rw [Event.java, Event.java, findSome?_reports hreports]
  cases hfound : javaReports.findSome? fun (kind, patterns) =>
      (e.find? patterns).map (kind, ·) with
  | none => rfl
  | some found =>
      obtain ⟨report, hmem, hpath⟩ := List.exists_of_findSome?_eq_some hfound
      obtain ⟨path, hfind, rfl⟩ := Option.map_eq_some_iff.mp hpath
      simp only [(hreports report hmem).scan hfind]

/-- A summary, or without one what another program has extracted. -/
theorem summaryOrPassed {summary : List Pattern} (h : AgreeOn (summary ++ ArtifactName.passed) e e')
    (fields : List Text → Fields) :
    (match e'.find? summary with
      | none => e'.generic
      | some path => (e'.scan path fields).map .of) =
    match e.find? summary with
      | none => e.generic
      | some path => (e.scan path fields).map .of := by
  have hsummary : AgreeOn summary e e' := h.mono (List.subset_append_left _ _)
  have hpassed : AgreeOn ArtifactName.passed e e' := h.mono (List.subset_append_right _ _)
  rw [hsummary.find?]
  split
  · exact hpassed.fromArtifact _
  · next path hpath => rw [hsummary.scan hpath]

theorem fabric (h : AgreeOn Family.fabric.artifacts e e') : e'.fabric = e.fabric := by
  rw [Event.fabric, Event.fabric, h.legacyFabric, h.tag]
  exact h.fromArtifact _

end AgreeOn

end Event

/-! ## The trial of the consoles -/

namespace Panic

theorem tryAll_congr {κ : Type} {read read' : κ → Option (Except ArtifactError Fields)}
    {places : List κ} (h : ∀ place ∈ places, read' place = read place) :
    tryAll read' places = tryAll read places := by
  induction places with
  | nil => rfl
  | cons place places ih =>
      rw [tryAll, tryAll, h place List.mem_cons_self,
        ih fun p hmem => h p (List.mem_cons_of_mem _ hmem)]

theorem consoleFields_congr {files files' : FileTree} {path : Path}
    (h : Artifact.stream files' path = Artifact.stream files path) :
    consoleFields files' path = consoleFields files path := by
  rw [consoleFields, consoleFields, h]

theorem extract_congr {e e' : Event} (h : Event.AgreeOn Family.panic.artifacts e e') :
    extract e' = extract e := by
  have hone {pattern : Pattern} (hmem : pattern ∈ Family.panic.artifacts) :
      Event.AgreeOn [pattern] e e' :=
    h.mono (List.cons_subset.mpr ⟨hmem, List.nil_subset _⟩)
  have hread : ∀ pattern ∈ ArtifactName.consoles,
      (e'.find? [pattern]).map (consoleFields e'.files) =
        (e.find? [pattern]).map (consoleFields e.files) := by
    intro pattern hmem
    have hpattern := hone (List.mem_append_left _ hmem)
    rw [hpattern.find?]
    cases hpath : e.find? [pattern] with
    | none => rfl
    | some path => exact congrArg some (consoleFields_congr (hpattern.stream_found hpath))
  have hheader := hone (List.mem_append_right _ List.mem_cons_self)
  simp only [extract]
  rw [tryAll_congr hread, hheader.find?]

end Panic

namespace Event

/-- Events that agree on the artifacts of a family give the same for it. -/
theorem extract_congr {e e' : Event} {family : Family} (h : AgreeOn family.artifacts e e') :
    e'.extract family = e.extract family := by
  cases family with
  | panic => exact Panic.extract_congr h
  | fabric => exact h.fabric
  | tombstone => exact h.tombstone
  | java => exact h.java
  | anr => exact h.fromArtifact _
  | watchdog => exact h.fromArtifact _
  | assertion => exact h.fromArtifact _
  | modemPanic => exact h.summaryOrPassed _
  | coredump => exact h.summaryOrPassed _
  | generic => exact h.fromArtifact _

end Event

end CrashDigest
