import CrashDigest.Event.Extract

/-!
# The artifact of an extraction

Every family but one reads one artifact: the first that its patterns find, in
their order. There is no more to an extraction than a function of the lines of
that artifact, and `Selected` says so, together with what the function gives.
What is proved about extractions in general takes `extract_selected` apart and
has two cases instead of one for each family.

Three families go through their patterns in groups. Trying the groups one after
the other is trying all of the patterns (`find?_append`), only the function is
another one for each group.
-/

namespace CrashDigest.Event

/-- Whether the result of an extraction is nothing if the patterns find nothing, and else what a
function makes of the lines of the first artifact that they find, which is always `good`. -/
inductive Selected (e : Event) (patterns : List Pattern) (good : Extraction → Prop) :
    Except ArtifactError Extraction → Prop where
  | nothing (hfind : e.find? patterns = none) : Selected e patterns good (.ok .empty)
  | scanned {path : Path} {make : List Text → Extraction} (hfind : e.find? patterns = some path)
      (hgood : ∀ lines, good (make lines)) : Selected e patterns good (e.scan path make)

variable {e : Event} {patterns : List Pattern} {good : Extraction → Prop}

theorem map_scan {α β : Type} (path : Path) (scan : List Text → α) (make : α → β) :
    (e.scan path scan).map make = e.scan path fun lines => make (scan lines) := by
  rw [Event.scan, Event.scan, Artifact.scan, Artifact.scan]
  cases Artifact.stream e.files path with
  | error why => rfl
  | ok s =>
      simp only [Lines.Stream.readAll]
      cases s.failure <;> rfl

theorem find?_append (e : Event) (front back : List Pattern) :
    e.find? (front ++ back) = (e.find? front).or (e.find? back) := by
  rw [find?, FileTree.findFirst?, List.findSome?_append]
  rfl

/-- Fields that leave it to the tag whether an event is critical. -/
theorem selected_fromArtifact (hgood : ∀ fields, good (.of fields))
    (fields : List Text → Fields) : Selected e patterns good (e.fromArtifact patterns fields) := by
  rw [fromArtifact]
  cases hfind : e.find? patterns with
  | none => exact .nothing hfind
  | some path =>
      simp only [map_scan]
      exact .scanned hfind fun lines => hgood _

/-- A summary, or without one what another program has extracted. -/
theorem selected_summaryOrPassed {summary : List Pattern} (hgood : ∀ fields, good (.of fields))
    (fields : List Text → Fields) :
    Selected e (summary ++ ArtifactName.passed) good
      (match e.find? summary with
        | none => e.generic
        | some path => (e.scan path fields).map .of) := by
  have hall := find?_append e summary ArtifactName.passed
  cases hsummary : e.find? summary with
  | none =>
      rw [hsummary, Option.none_or] at hall
      have hpassed : Selected e ArtifactName.passed good e.generic :=
        selected_fromArtifact hgood Coredump.scanPassed
      simp only []
      generalize e.generic = result at hpassed ⊢
      cases hpassed with
      | nothing hfind => exact .nothing (hall.trans hfind)
      | scanned hfind hmake => exact .scanned (hall.trans hfind) hmake
  | some path =>
      rw [hsummary, Option.some_or] at hall
      simp only [map_scan]
      exact .scanned hall fun lines => hgood _

/-- The report that is read is the first that any of the patterns finds. -/
theorem snd_findSome?_reports (reports : List (JavaCrashKind × List Pattern)) :
    (reports.findSome? fun (kind, patterns) => (e.find? patterns).map (kind, ·)).map Prod.snd =
      e.find? (reports.flatMap Prod.snd) := by
  induction reports with
  | nil => rfl
  | cons report reports ih =>
      obtain ⟨kind, patterns⟩ := report
      rw [List.findSome?_cons, List.flatMap_cons, find?_append, ← ih]
      cases hfind : e.find? patterns with
      | none => simp only [hfind, Option.map_none, Option.none_or]
      | some path => simp only [hfind, Option.map_some, Option.some_or]

theorem selected_java (hgood : ∀ fields, good (.of fields)) :
    Selected e Family.java.artifacts good e.java := by
  have hfind : (javaReports.findSome? fun (kind, patterns) =>
      (e.find? patterns).map (kind, ·)).map Prod.snd = e.find? Family.java.artifacts :=
    snd_findSome?_reports javaReports
  rw [java]
  cases hfound : javaReports.findSome? fun (kind, patterns) =>
      (e.find? patterns).map (kind, ·) with
  | none =>
      rw [hfound] at hfind
      exact .nothing hfind.symm
  | some found =>
      rw [hfound] at hfind
      simp only [map_scan]
      exact .scanned hfind.symm fun lines => hgood _

/-- What a tombstone says about being critical: it is so under the tag for native crashes, if its
process is that of the system server. The other artifacts do not speak of it. -/
def SaysCritical (e : Event) (family : Family) (x : Extraction) : Prop :=
  x.critical = true ↔ family = .tombstone ∧ e.tag = ("TOMBSTONE" : Text) ∧
    x.fields.get? (.data 0) = some ("system_server" : Text)

theorem selected_tombstone :
    Selected e Family.tombstone.artifacts (SaysCritical e .tombstone) e.tombstone := by
  have hartifacts : Family.tombstone.artifacts = ArtifactName.tombstones := rfl
  rw [tombstone, hartifacts]
  cases hfind : e.find? ArtifactName.tombstones with
  | none => exact .nothing hfind
  | some path =>
      simp only [map_scan]
      refine .scanned hfind fun lines => ?_
      have hprocess : (Tombstone.fields (Tombstone.scan lines)).get? (.data 0) =
          some (Tombstone.scan lines).process := by rfl
      simp only [SaysCritical, hprocess, decide_eq_true_iff, Option.some.injEq, true_and]

/-- A family but that of panics reads the first artifact that its patterns find. -/
theorem extract_selected {family : Family} (hfamily : family ≠ .panic) :
    Selected e family.artifacts (SaysCritical e family) (e.extract family) := by
  have hother (htombstone : family ≠ .tombstone) (fields : Fields) :
      SaysCritical e family (.of fields) :=
    ⟨nofun, fun h => absurd h.1 htombstone⟩
  cases family with
  | panic => exact absurd rfl hfamily
  | tombstone => exact selected_tombstone
  | java => exact selected_java (hother nofun)
  | modemPanic => exact selected_summaryOrPassed (hother nofun) _
  | coredump => exact selected_summaryOrPassed (hother nofun) _
  | fabric | anr | watchdog | assertion | generic => exact selected_fromArtifact (hother nofun) _

end CrashDigest.Event
