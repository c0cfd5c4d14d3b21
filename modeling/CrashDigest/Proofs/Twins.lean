import CrashDigest.Proofs.Run

/-!
# Runs that differ in one word

Two words of what a run is given change next to nothing of what it does. The
strictness of the settings is asked for once, when the record is finished, so
the record cannot show it: a strict run is the lenient one, judged afterwards
(`parse_eq_judge`). And a tag that says that the dropbox entry was lost is
replaced by the plain tag before anything else looks at it; all that is left of
it is one line, which stands in front of whatever the artifacts give.

Both are read off `parse_eq_prepare`. What a run needs to begin its record
depends on neither word, so the two runs either stop at the same place with the
same error, or their records are written side by side.
-/

namespace CrashDigest.Engine

variable {s : Settings} {r : Request} {t : FileTree} {place : Place} {o o' : Outcome}

/-! ## Strict and lenient -/

theorem judge_strict_eq_ok :
    judge .strict o = .ok o' ↔ o = o' ∧ o'.extractionError = none := by
  cases h : o.extractionError with
  | none =>
      have hok : judge .strict o = .ok o := by simp only [judge, h]
      rw [hok, Except.ok.injEq]
      exact ⟨fun heq => ⟨heq, heq ▸ h⟩, And.left⟩
  | some e =>
      have herror : judge .strict o = .error (.extraction o.tag e) := by simp only [judge, h]
      rw [herror]
      constructor
      · rintro ⟨⟩
      · rintro ⟨rfl, hnone⟩
        cases h.symm.trans hnone

theorem judge_strict_eq_error {why : ParseError} :
    judge .strict o = .error why ↔
      ∃ e, o.extractionError = some e ∧ why = .extraction o.tag e := by
  cases h : o.extractionError with
  | none =>
      have hok : judge .strict o = .ok o := by simp only [judge, h]
      rw [hok]
      constructor
      · rintro ⟨⟩
      · rintro ⟨e, ⟨⟩, _⟩
  | some e =>
      have herror : judge .strict o = .error (.extraction o.tag e) := by simp only [judge, h]
      rw [herror]
      constructor
      · rintro ⟨⟩
        exact ⟨e, rfl, rfl⟩
      · rintro ⟨_, ⟨⟩, rfl⟩
        rfl

/-- Strictness decides nothing before the record is finished. -/
theorem parse_eq_judge (s : Settings) (strictness : Strictness) (r : Request) (t : FileTree) :
    parse { s with strictness } r t =
      ((parse { s with strictness := .lenient } r t).1 >>= judge strictness,
        (parse { s with strictness := .lenient } r t).2) := by
  have hprepare (x : Strictness) : prepare { s with strictness := x } r t = prepare s r t := rfl
  rw [parse_eq_prepare, parse_eq_prepare, hprepare strictness, hprepare .lenient]
  cases prepare s r t <;> rfl

theorem bare_of_parse (s : Settings) (h : (parse s r t).1 = .ok o) {e : ArtifactError}
    (he : o.extractionError = some e) :
    o.fields = .empty ∧ o.critical = Tag.isCritical o.tag s.criticalTags := by
  obtain ⟨_, place, _, hresult, _⟩ := open?_of_completed (Or.inl ⟨o, h⟩)
  obtain rfl := eq_of_judge_eq_ok (hresult.symm.trans h)
  exact bare_of_extractionError he

theorem parse_lenient_ne_extraction (tag : Text) (e : ArtifactError) :
    (parse { s with strictness := .lenient } r t).1 ≠ .error (.extraction tag e) := by
  rw [parse_eq_prepare]
  cases h : prepare { s with strictness := .lenient } r t with
  | error why =>
      rintro ⟨⟩
      exact prepare_ne_extraction tag e h
  | ok found => rintro ⟨⟩

/-- Strict and lenient runs leave the same tree. An artifact that cannot be read is an error of the
strict one and a note in the outcome of the lenient one, whose fields are none and which is critical
only for its tag. Everything else comes out the same. -/
theorem strict_iff_lenient (s : Settings) (r : Request) (t : FileTree) :
    let strict := parse { s with strictness := .strict } r t
    let lenient := parse { s with strictness := .lenient } r t
    strict.2 = lenient.2 ∧
    (∀ o, strict.1 = .ok o ↔ lenient.1 = .ok o ∧ o.extractionError = none) ∧
    (∀ tag e, strict.1 = .error (.extraction tag e) ↔
      ∃ o, lenient.1 = .ok o ∧ o.tag = tag ∧ o.extractionError = some e) ∧
    (∀ o e, lenient.1 = .ok o → o.extractionError = some e →
      o.fields = .empty ∧ o.critical = Tag.isCritical o.tag s.criticalTags ∧
      o.toJson = .object (o.summary ++ [(("extraction_error" : Text), .string e.message)]) ∧
      ∃ why, strict.1 = .error why ∧
        why.message = o.tag ++ (" extraction failed: " : Text) ++ e.message) ∧
    (∀ why, (∀ tag e, why ≠ .extraction tag e) →
      (strict.1 = .error why ↔ lenient.1 = .error why)) ∧
    ∀ tag e, lenient.1 ≠ .error (.extraction tag e) := by
  intro strict lenient
  have hstrict : strict = (lenient.1 >>= judge .strict, lenient.2) := parse_eq_judge s .strict r t
  have hbare (o : Outcome) (e : ArtifactError) (hok : lenient.1 = .ok o)
      (he : o.extractionError = some e) :
      o.fields = .empty ∧ o.critical = Tag.isCritical o.tag s.criticalTags :=
    bare_of_parse { s with strictness := .lenient } hok he
  have hnever (tag : Text) (e : ArtifactError) : lenient.1 ≠ .error (.extraction tag e) :=
    parse_lenient_ne_extraction tag e
  -- Nothing else about the two runs matters from here on.
  clear_value strict lenient
  subst hstrict
  obtain ⟨result, files⟩ := lenient
  refine ⟨rfl, fun o => ?_, fun tag e => ?_, fun o e hok he => ?_, fun why hwhy => ?_, hnever⟩
  · cases result with
    | error why =>
        constructor
        · rintro ⟨⟩
        · rintro ⟨⟨⟩, _⟩
    | ok found =>
        show judge .strict found = .ok o ↔ _
        rw [judge_strict_eq_ok, Except.ok.injEq]
  · cases result with
    | error why =>
        refine iff_of_false (hnever tag e) ?_
        rintro ⟨_, ⟨⟩, _⟩
    | ok found =>
        refine judge_strict_eq_error.trans ⟨?_, ?_⟩
        · rintro ⟨_, he, ⟨⟩⟩
          exact ⟨found, rfl, rfl, he⟩
        · rintro ⟨_, ⟨⟩, rfl, he⟩
          exact ⟨e, he, rfl⟩
  · obtain ⟨hfields, hcritical⟩ := hbare o e hok he
    refine ⟨hfields, hcritical, by rw [Outcome.toJson, he], .extraction o.tag e, ?_, rfl⟩
    show result >>= judge .strict = _
    rw [show result = .ok o from hok]
    exact judge_strict_eq_error.mpr ⟨e, he, rfl⟩
  · cases result with
    | error other => exact Iff.rfl
    | ok found =>
        constructor
        · intro h
          obtain ⟨e, _, rfl⟩ := judge_strict_eq_error.mp h
          exact absurd rfl (hwhy _ _)
        · rintro ⟨⟩

/-! ## A tag of a lost entry and the plain tag -/

section Lost

variable {raw plain : Text} (h : (raw, plain) ∈ Tag.aliases)

include h

theorem normalize_of_mem_aliases :
    Tag.normalize raw = ⟨plain, true⟩ ∧ Tag.normalize plain = ⟨plain, false⟩ := by
  have hall : ∀ e ∈ Tag.aliases,
      Tag.normalize e.1 = ⟨e.2, true⟩ ∧ Tag.normalize e.2 = ⟨e.2, false⟩ := by decide
  exact hall _ h

theorem outcomeAt_lost (s : Settings) (r : Request) (t : FileTree) (place : Place) :
    outcomeAt s { r with tag := raw } t place =
      { outcomeAt s { r with tag := plain } t place with fullDropbox := true } := by
  obtain ⟨hraw, hplain⟩ := normalize_of_mem_aliases h
  simp only [outcomeAt, hraw, hplain]
  rfl

theorem fullDropbox_outcomeAt_plain (s : Settings) (r : Request) (t : FileTree) (place : Place) :
    (outcomeAt s { r with tag := plain } t place).fullDropbox = false := by
  simp only [outcomeAt, (normalize_of_mem_aliases h).2]
  rfl

theorem recordHeader_lost (r : Request) (serial : Text) :
    recordHeader { r with tag := raw } serial = recordHeader { r with tag := plain } serial := by
  obtain ⟨hraw, hplain⟩ := normalize_of_mem_aliases h
  simp only [recordHeader, hraw, hplain]

/-- The two records, cut behind the line of the operator. -/
theorem recordText_lost (r : Request) (serial : Text) (ho : o.fullDropbox = false) :
    ∃ rest,
      recordText { r with tag := plain } serial o =
        Record.block (Record.headerLines (recordHeader { r with tag := plain } serial)) ++ rest ∧
      recordText { r with tag := raw } serial { o with fullDropbox := true } =
        Record.block (Record.headerLines (recordHeader { r with tag := plain } serial)) ++
          Record.line "DATA0" "full dropbox" ++ rest := by
  refine ⟨Record.whole (Record.fieldLines o.fields.entries ++ Record.outcomeLines o.critical),
    ?_, ?_⟩
  · simp only [recordText, Record.pairs, Record.whole, shown, ho, Record.block_append,
      List.append_assoc]
    rfl
  · simp only [recordText, recordHeader_lost h, Record.pairs, Record.whole, shown,
      Record.fieldLines, List.map_append, Record.block_append, List.append_assoc]
    rfl

end Lost

theorem judge_mark (strictness : Strictness) (o : Outcome) :
    judge strictness { o with fullDropbox := true } =
      (judge strictness o).map fun o => { o with fullDropbox := true } := by
  cases strictness with
  | lenient => rfl
  | strict =>
      obtain ⟨_, _, _, _, _, _, error⟩ := o
      cases error <;> rfl

/-- A tag of a lost entry gives what the plain tag gives, but for the mark in the outcome and its
line in the record, which stands behind the lines for the event and before those of the fields. -/
theorem lost_adds_mark {raw plain : Text} (h : (raw, plain) ∈ Tag.aliases) (s : Settings)
    (r : Request) (t : FileTree) :
    let lost := parse s { r with tag := raw } t
    let kept := parse s { r with tag := plain } t
    ((∃ why, lost.1 = .error why ∧ kept.1 = .error why) ∨
      ∃ o, kept.1 = .ok o ∧ o.fullDropbox = false ∧
        lost.1 = .ok { o with fullDropbox := true }) ∧
    (¬ Completed kept.1 → lost.2 = t ∧ kept.2 = t) ∧
    (Completed kept.1 → ∃ serial rest, readSerial t s.serialPath = .ok serial ∧
      kept.2.open? (recordPath r) = .ok (.file (Utf8.encode
        (Record.block (Record.headerLines (recordHeader { r with tag := plain } serial)) ++
          rest))) ∧
      lost.2.open? (recordPath r) = .ok (.file (Utf8.encode
        (Record.block (Record.headerLines (recordHeader { r with tag := plain } serial)) ++
          Record.line "DATA0" "full dropbox" ++ rest)))) := by
  intro lost kept
  have hlost : lost = _ := parse_eq_prepare s { r with tag := raw } t
  have hkept : kept = _ := parse_eq_prepare s { r with tag := plain } t
  have hprepare (tag : Text) : prepare s { r with tag } t = prepare s r t := rfl
  rw [hprepare] at hlost hkept
  clear_value lost kept
  cases hr : prepare s r t with
  | error why =>
      rw [hr] at hlost hkept
      subst hlost hkept
      exact ⟨Or.inl ⟨why, rfl, rfl⟩, fun _ => ⟨rfl, rfl⟩,
        fun hcompleted => absurd hcompleted (not_completed_of_prepare hr)⟩
  | ok found =>
      obtain ⟨serial, place⟩ := found
      rw [hr] at hlost hkept
      simp only [outcomeAt_lost h] at hlost hkept
      have hmark := fullDropbox_outcomeAt_plain h s r t place
      generalize outcomeAt s { r with tag := plain } t place = o at hlost hkept hmark
      obtain ⟨rest, hplain, hraw⟩ := recordText_lost h r serial hmark
      have hready := (prepare_eq_ok.mp hr).1
      subst hlost hkept
      refine ⟨?_, fun hnot => absurd (completed_judge _ _) hnot,
        fun _ => ⟨serial, rest, hready.serial, ?_, ?_⟩⟩
      · rw [judge_mark]
        cases hjudge : judge s.strictness o with
        | error why => exact Or.inl ⟨why, rfl, rfl⟩
        | ok o' =>
            obtain rfl := eq_of_judge_eq_ok hjudge
            exact Or.inr ⟨o', rfl, hmark, rfl⟩
      · rw [FileTree.open?_put_of_writable hready.place, hplain]
      · rw [FileTree.open?_put_of_writable hready.place, hraw]

/-- A trace that gives a first field of its own, under both tags. -/
theorem lost_adds_mark_anr :
    let t := plainFiles.put ["e", "x_app_anr.txt"] (.file (Utf8.encode "Process: a\n"))
    (("LOST_DROPBOX_ANR", "ANR") : Text × Text) ∈ Tag.aliases ∧
    ∃ o, (parse (.forRoot "/") { plainRequest "x" with tag := "ANR" } t).1 = .ok o ∧
      o.fullDropbox = false ∧ o.fields.get? (.data 0) = some " a" ∧
      (parse (.forRoot "/") { plainRequest "x" with tag := "LOST_DROPBOX_ANR" } t).1 =
        .ok { o with fullDropbox := true } := by
  intro t
  have hmem : (("LOST_DROPBOX_ANR", "ANR") : Text × Text) ∈ Tag.aliases := by decide
  have hfirst : (parse (.forRoot "/") { plainRequest "x" with tag := "ANR" } t).1.toOption.bind
      (·.fields.get? (.data 0)) = some " a" := by decide +kernel
  refine ⟨hmem, ?_⟩
  rcases (lost_adds_mark hmem (.forRoot "/") (plainRequest "x") t).1 with
    ⟨why, _, herror⟩ | ⟨o, hkept, hmark, hlost⟩
  · rw [herror] at hfirst
    cases hfirst
  · rw [hkept] at hfirst
    exact ⟨o, hkept, hmark, hfirst, hlost⟩

end CrashDigest.Engine
