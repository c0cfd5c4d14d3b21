import CrashDigest.Proofs.Replaced
import CrashDigest.Proofs.Selected
import CrashDigest.Proofs.Utf8Codec

/-!
# What makes a record critical

Two things do: the table of critical tags, and a native crash of the system
server under the tag for native crashes. The second is said by the artifact,
which has to be read for it, so a run that could not read its artifact goes by
the table alone.

Of all the extractions only that of tombstones ever speaks of it
(`critical_of_extract`). It puts the process it judges by into the field
`DATA0`, so the outcome shows why it is critical (`critical_outcomeAt`). The
tags are compared in two ways: the table ignores blanks around a tag, and the
choice of a family does not.

A record may have several lines `CRITICAL=…`, if a text of the request has
line feeds in it. The one that counts is the last, which is the run's own.
-/

namespace CrashDigest

/-! ## The line of a record -/

namespace Record

/-- What a record says in the last of its lines with this key. -/
def lastOf (key : Text) (text : Text) : Option Text :=
  (pairsIn text).reverse.lookup key

/-- Whatever stands before them, the lines for the outcome are the last. -/
theorem lastOf_critical_whole (front : List (Text × Text)) (critical : Bool) :
    lastOf "CRITICAL" (whole (front ++ outcomeLines critical)) =
      some ((if critical then "YES" else "NO") : Text) := by
  rw [lastOf, pairsIn, linesOf_whole, List.dropLast_concat, List.flatMap_append, List.map_append,
    List.reverse_append]
  cases critical <;> rfl

end Record

/-! ## The outcome of an extraction -/

namespace Event

variable {e : Event} {x : Extraction}

/-- Every extraction but that of tombstones leaves it to the tag. -/
theorem critical_of_extract {family : Family} (h : e.extract family = .ok x) :
    SaysCritical e family x := by
  by_cases hfamily : family = .panic
  · subst hfamily
    obtain ⟨fields, _, rfl⟩ := exists_of_map_eq_ok h
    exact ⟨nofun, fun h => nomatch h.1⟩
  · have hselected := extract_selected (e := e) hfamily
    generalize e.extract family = result at h hselected
    cases hselected with
    | nothing _ =>
        cases h
        exact ⟨nofun, fun h => nomatch h.2.2⟩
    | scanned _ hgood =>
        obtain ⟨lines, _, rfl⟩ := exists_lines_of_scan h
        exact hgood lines

end Event

namespace Engine

variable {s : Settings} {r : Request} {t : FileTree} {serial : Text} {place : Place}

/-- Whether the table makes the plain tag of a request critical. -/
def InTable (s : Settings) (r : Request) : Prop :=
  (Tag.normalize r.tag).tag.trim ∈ s.criticalTags

theorem isCritical_iff : Tag.isCritical (Tag.normalize r.tag).tag s.criticalTags = true ↔
    InTable s r :=
  List.contains_iff_mem

theorem critical_extraction {x : Extraction} {tag : Text} (h : extraction s r tag t = .ok x) :
    x.critical = true ↔
      tag = ("TOMBSTONE" : Text) ∧ x.fields.get? (.data 0) = some ("system_server" : Text) := by
  unfold extraction at h
  split at h
  · cases h
    exact ⟨nofun, fun h => nomatch h.2⟩
  · next family hfamily =>
      refine (Event.critical_of_extract h).trans (and_iff_right_of_imp fun ⟨htag, _⟩ => ?_)
      obtain rfl : tag = ("TOMBSTONE" : Text) := htag
      exact Option.some.inj (hfamily.symm.trans (by decide))

/-- The outcome shows why it is critical, if it is. -/
theorem critical_outcomeAt : (outcomeAt s r t place).critical = true ↔
    InTable s r ∨ (Tag.normalize r.tag).tag = ("TOMBSTONE" : Text) ∧
      (outcomeAt s r t place).fields.get? (.data 0) = some ("system_server" : Text) := by
  simp only [outcomeAt, outcome, Bool.or_eq_true, isCritical_iff]
  cases hextraction : extraction s r (Tag.normalize r.tag).tag (t.put place (.file [])) with
  | error why =>
      refine ⟨fun h => Or.inl (h.resolve_left Bool.false_ne_true),
        fun h => Or.inr (h.resolve_right ?_)⟩
      rintro ⟨_, hnone⟩
      cases hnone
  | ok x => rw [critical_extraction hextraction, or_comm]

/-- Without the process of a tombstone the table decides. -/
theorem critical_outcomeAt_of_ne (h : (Tag.normalize r.tag).tag ≠ ("TOMBSTONE" : Text)) :
    (outcomeAt s r t place).critical = Tag.isCritical (Tag.normalize r.tag).tag s.criticalTags := by
  rw [Bool.eq_iff_iff, critical_outcomeAt, isCritical_iff]
  exact or_iff_left fun hprocess => h hprocess.1

/-! ## The record of a run -/

/-- What the record of a request says about being critical, if it is there and is text. -/
def recordCritical (r : Request) (t : FileTree) : Option Text :=
  match t.open? (recordPath r) with
  | .ok (.file content) => (Utf8.decode? content).bind (Record.lastOf "CRITICAL")
  | _ => none

theorem recordCritical_congr {t' : FileTree}
    (h : t'.open? (recordPath r) = t.open? (recordPath r)) :
    recordCritical r t' = recordCritical r t := by
  rw [recordCritical, recordCritical, h]

theorem recordCritical_of_prepare (h : prepare s r t = .ok (serial, place)) :
    recordCritical r (parse s r t).2 =
      some ((if (outcomeAt s r t place).critical then "YES" else "NO") : Text) := by
  have hopen : (parse s r t).2.open? (recordPath r) =
      .ok (.file (Utf8.encode (recordText r serial (outcomeAt s r t place)))) := by
    rw [parse_eq_prepare, h]
    exact FileTree.open?_put_of_writable (prepare_eq_ok.mp h).1.place
  rw [recordCritical, hopen]
  simp only [Utf8.decode?_eq_some_iff.mpr rfl, Option.bind_some]
  rw [recordText, Record.pairs, ← List.append_assoc]
  exact Record.lastOf_critical_whole _ _

theorem recordCritical_eq_yes_iff (h : prepare s r t = .ok (serial, place)) :
    recordCritical r (parse s r t).2 = some ("YES" : Text) ↔
      (outcomeAt s r t place).critical = true := by
  rw [recordCritical_of_prepare h]
  cases (outcomeAt s r t place).critical <;> decide

theorem parse_of_prepare_error {why : ParseError} (h : prepare s r t = .error why) :
    parse s r t = (.error why, t) := by
  rw [parse_eq_prepare, h]

theorem exists_prepare_of_completed (h : Completed (parse s r t).1) :
    ∃ serial place, prepare s r t = .ok (serial, place) ∧
      (parse s r t).1 = judge s.strictness (outcomeAt s r t place) := by
  cases hprepare : prepare s r t with
  | error why =>
      rw [parse_of_prepare_error hprepare] at h
      exact absurd h (not_completed_of_prepare hprepare)
  | ok found =>
      refine ⟨found.1, found.2, rfl, ?_⟩
      rw [parse_eq_prepare, hprepare]

/-- A run that failed for its artifacts went by the table. -/
theorem critical_of_extraction_error {tag : Text} {why : ArtifactError}
    (h : judge s.strictness (outcomeAt s r t place) = .error (.extraction tag why)) :
    (outcomeAt s r t place).critical = true ↔ InTable s r := by
  rcases judge_cases s.strictness (outcomeAt s r t place) with ⟨hok, _⟩ | ⟨_, _, hextraction, _⟩
  · rw [hok] at h
    cases h
  · rw [← isCritical_iff]
    exact Bool.eq_iff_iff.mp (bare_of_extractionError hextraction).2

/-- A longer table takes nothing back. -/
theorem recordCritical_mono {tags : List Text} (htags : s.criticalTags ⊆ tags)
    (h : recordCritical r (parse s r t).2 = some ("YES" : Text)) :
    recordCritical r (parse { s with criticalTags := tags } r t).2 = some ("YES" : Text) := by
  have hsame : prepare { s with criticalTags := tags } r t = prepare s r t := rfl
  cases hprepare : prepare s r t with
  | error why =>
      rw [parse_of_prepare_error hprepare] at h
      rw [parse_of_prepare_error (hsame.trans hprepare), h]
  | ok found =>
      rw [recordCritical_eq_yes_iff hprepare, critical_outcomeAt] at h
      rw [recordCritical_eq_yes_iff (hsame.trans hprepare), critical_outcomeAt]
      exact h.imp_left fun hmem => htags hmem

/-- The content of a file that is not named like a tombstone says nothing about it. -/
theorem Holds.recordCritical_put {home : Place} {name : Text} {old : Bytes}
    (h : Holds r t home name old) (hserial : t.follow s.serialPath ≠ .ok (home ++ [name]))
    (hname : ∀ pattern ∈ Family.tombstone.artifacts, pattern.isIn name = false) (new : Bytes) :
    recordCritical r (parse s r (t.put (home ++ [name]) (.file new))).2 =
      recordCritical r (parse s r t).2 := by
  by_cases htag : (Tag.normalize r.tag).tag = ("TOMBSTONE" : Text)
  · have hartifacts : Tag.artifacts r.tag = Family.tombstone.artifacts := by
      rw [Tag.artifacts, htag]
      rfl
    refine recordCritical_congr (h.record_put hserial fun pattern hpattern hmatch => ?_).2
    rw [hname pattern (hartifacts ▸ hpattern)] at hmatch
    cases hmatch
  · have hsame : prepare s r (t.put (home ++ [name]) (.file new)) = prepare s r t :=
      h.prepare_put hserial
    cases hprepare : prepare s r t with
    | error why =>
        rw [parse_of_prepare_error hprepare, parse_of_prepare_error (hsame.trans hprepare)]
        exact recordCritical_congr
          (open?_recordPath_put h.follow h.directory h.file h.ne_record new)
    | ok found =>
        rw [recordCritical_of_prepare hprepare, recordCritical_of_prepare (hsame.trans hprepare),
          critical_outcomeAt_of_ne htag, critical_outcomeAt_of_ne htag]

/-- A record is critical by the table or by the process of a tombstone, which the outcome shows; a
run that could not read its artifacts goes by the table alone. So a longer table takes nothing back,
and no artifact but a tombstone has a say. -/
theorem criticality :
    (∀ (s : Settings) (r : Request) (t : FileTree) (o : Outcome), (parse s r t).1 = .ok o →
      (o.critical = true ↔ recordCritical r (parse s r t).2 = some ("YES" : Text)) ∧
      (o.critical = true ↔
        (Tag.normalize r.tag).tag.trim ∈ s.criticalTags ∨
          (Tag.normalize r.tag).tag = ("TOMBSTONE" : Text) ∧
            o.fields.get? (.data 0) = some ("system_server" : Text))) ∧
    (∀ (s : Settings) (r : Request) (t : FileTree) (tag : Text) (why : ArtifactError),
      (parse s r t).1 = .error (.extraction tag why) →
      (recordCritical r (parse s r t).2 = some ("YES" : Text) ↔
        (Tag.normalize r.tag).tag.trim ∈ s.criticalTags)) ∧
    (∀ (s : Settings) (r : Request) (t : FileTree) (tags : List Text), s.criticalTags ⊆ tags →
      recordCritical r (parse s r t).2 = some ("YES" : Text) →
      recordCritical r (parse { s with criticalTags := tags } r t).2 = some ("YES" : Text)) ∧
    (∀ (s : Settings) (r : Request) (t t' : FileTree),
      (Tag.normalize r.tag).tag ≠ ("TOMBSTONE" : Text) →
      Completed (parse s r t).1 → Completed (parse s r t').1 →
      recordCritical r (parse s r t').2 = recordCritical r (parse s r t).2) ∧
    ∀ (s : Settings) (r : Request) (t : FileTree) (home : Place) (name : Text) (old new : Bytes),
      Holds r t home name old → t.follow s.serialPath ≠ .ok (home ++ [name]) →
      (∀ pattern ∈ Family.tombstone.artifacts, pattern.isIn name = false) →
      recordCritical r (parse s r (t.put (home ++ [name]) (.file new))).2 =
        recordCritical r (parse s r t).2 := by
  refine ⟨fun s r t o h => ?_, fun s r t tag why h => ?_, fun s r t tags htags h => ?_,
    fun s r t t' htag h h' => ?_, fun s r t home name old new h hserial hname => ?_⟩
  · obtain ⟨serial, place, hprepare, hresult⟩ := exists_prepare_of_completed (Or.inl ⟨o, h⟩)
    obtain rfl := eq_of_judge_eq_ok (hresult.symm.trans h)
    exact ⟨(recordCritical_eq_yes_iff hprepare).symm, critical_outcomeAt⟩
  · obtain ⟨serial, place, hprepare, hresult⟩ :=
      exists_prepare_of_completed (Or.inr ⟨tag, why, h⟩)
    rw [recordCritical_eq_yes_iff hprepare]
    exact critical_of_extraction_error (hresult.symm.trans h)
  · exact recordCritical_mono htags h
  · obtain ⟨_, _, hprepare, _⟩ := exists_prepare_of_completed h
    obtain ⟨_, _, hprepare', _⟩ := exists_prepare_of_completed h'
    rw [recordCritical_of_prepare hprepare, recordCritical_of_prepare hprepare',
      critical_outcomeAt_of_ne htag, critical_outcomeAt_of_ne htag]
  · exact h.recordCritical_put hserial hname new

/-- A crash of the system server is critical though its tag is in no table, and it is not when its
tombstone cannot be read to its end. -/
theorem criticality_of_tombstone :
    let request := { plainRequest "x" with tag := "TOMBSTONE" }
    let s := Settings.forRoot "/"
    let tags : List Text := "X" :: s.criticalTags
    let tombstone := Utf8.encode "pid: 1, name: main >>> system_server <<<\n"
    let t := plainFiles.put ["e", "tombstone_00"] (.file tombstone)
    let broken := plainFiles.put ["e", "tombstone_00.gz"] (.file tombstone)
    let noted := t.put ["e", "notes"] (.file tombstone)
    recordCritical request (parse s request t).2 = some ("YES" : Text) ∧
    recordCritical request (parse { s with criticalTags := tags } request t).2 =
      some ("YES" : Text) ∧
    recordCritical request (parse s request broken).2 ≠ some ("YES" : Text) ∧
    recordCritical (plainRequest "x") (parse s (plainRequest "x") t).2 =
      recordCritical (plainRequest "x") (parse s (plainRequest "x") plainFiles).2 ∧
    recordCritical request (parse s request (noted.put ["e", "notes"] (.file []))).2 =
      recordCritical request (parse s request noted).2 := by
  intro request s tags tombstone t broken noted
  obtain ⟨hok, herror, htable, htag, hfile⟩ := criticality
  have hyes : recordCritical request (parse s request t).2 = some ("YES" : Text) := by
    have hresult : (parse s request t).1.map Outcome.critical = .ok true := by decide +kernel
    obtain ⟨o, ho, hcritical⟩ := exists_of_map_eq_ok hresult
    exact (hok _ _ _ o ho).1.mp hcritical
  refine ⟨hyes, htable _ _ _ _ (List.subset_cons_self _ _) hyes, ?_, ?_, ?_⟩
  · have hbroken : (parse s request broken).1 =
        .error (.extraction "TOMBSTONE" (.read "/e/tombstone_00.gz" (.damaged .badHeader))) := by
      decide +kernel
    exact fun h => absurd ((herror _ _ _ _ _ hbroken).mp h) (by decide +kernel)
  · exact htag s (plainRequest "x") plainFiles t (by decide) (Or.inl ⟨_, rfl⟩) (Or.inl ⟨_, rfl⟩)
  · have hholds : Holds request noted ["e"] "notes" tombstone :=
      ⟨by rfl, by rfl, by rfl, by decide +kernel, by decide⟩
    exact hfile s request noted ["e"] "notes" tombstone [] hholds (by decide +kernel)
      (by decide +kernel)

end Engine

end CrashDigest
