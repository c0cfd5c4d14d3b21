import CrashDigest.Proofs.Run

/-!
# The end mark of a record

A reader takes a record for whole once it has seen a line `_END`. Every record
that a run completes has this line at its end, and none of what is read from
the artifacts or from the serial file can put another one before it. The texts
of the request can: they are written as they are given, and one with a line
feed followed by `_END` ends the record for its reader in the middle of the
header. `endMark_once_iff` says that this is the only way.

Whoever is given the directory relies on the same line: a directory changes
hands only behind a whole record (`record_of_handover`).
-/

namespace CrashDigest

namespace Record

/-- Whether a value has a line of its own, after its first, that reads like the end mark. -/
def Forges (value : Text) : Prop := endMark ∈ (value.splitOn '\n').tail

instance (value : Text) : Decidable (Forges value) :=
  inferInstanceAs (Decidable (endMark ∈ (value.splitOn '\n').tail))

theorem not_forges_of_oneLine {value : Text} (h : value.OneLine) : ¬ Forges value := by
  rw [Forges, List.splitOn_eq_singleton h]
  exact List.not_mem_nil

theorem forges_normalize (raw : Text) : Forges (Tag.normalize raw).tag ↔ Forges raw := by
  rcases Tag.normalize_cases raw with ⟨tag, hmem, hnorm⟩ | hnorm
  · have hlines : ∀ e ∈ Tag.aliases, e.1.OneLine ∧ e.2.OneLine := by decide
    obtain ⟨hraw, htag⟩ := hlines _ hmem
    rw [hnorm]
    exact iff_of_false (not_forges_of_oneLine htag) (not_forges_of_oneLine hraw)
  · rw [hnorm]

theorem not_forges_pairs_iff {h : RecordHeader} {entries : List (FieldKey × Text)}
    {critical : Bool} (hserial : h.serial.OneLine) (hentries : ∀ e ∈ entries, e.2.OneLine) :
    (∀ e ∈ pairs h entries critical, ¬ Forges e.2) ↔
      ∀ v ∈ ([h.tag, h.id, h.date, h.uptime, h.build, h.board, h.imei, h.operator] : List Text),
        ¬ Forges v := by
  have hfields : ∀ e ∈ fieldLines entries, ¬ Forges e.2 := by
    intro e he
    obtain ⟨entry, hmem, rfl⟩ := List.mem_map.mp he
    exact not_forges_of_oneLine (hentries entry hmem)
  have houtcome : ∀ e ∈ outcomeLines critical, ¬ Forges e.2 := by
    cases critical <;> decide
  have hready : ¬ Forges (if h.dataReady then "1" else "0") := by
    cases h.dataReady <;> decide
  have hevent : ¬ Forges "CRASH" := by decide
  have hrest : (∀ e ∈ pairs h entries critical, ¬ Forges e.2) ↔
      ∀ e ∈ headerLines h, ¬ Forges e.2 := by
    rw [pairs, List.forall_mem_append, List.forall_mem_append]
    exact and_iff_left ⟨hfields, houtcome⟩
  have hserial := not_forges_of_oneLine hserial
  rw [hrest]
  simp only [headerLines, List.forall_mem_cons]
  constructor
  · rintro ⟨_, hid, _, hdate, huptime, hbuild, hboard, himei, htag, _, hoperator, hnil⟩
    exact ⟨htag, hid, hdate, huptime, hbuild, hboard, himei, hoperator, List.forall_mem_nil _⟩
  · rintro ⟨htag, hid, hdate, huptime, hbuild, hboard, himei, hoperator, _⟩
    exact ⟨hevent, hid, hserial, hdate, huptime, hbuild, hboard, himei, htag, hready, hoperator,
      List.forall_mem_nil _⟩

end Record

namespace Engine

variable {s : Settings} {r : Request} {t : FileTree}

theorem endMark_once_iff (h : Completed (parse s r t).1) :
    ∃ text, (parse s r t).2.open? (recordPath r) = .ok (.file (Utf8.encode text)) ∧
      text.getLast? = some '\n' ∧
      (Record.linesOf text).getLast? = some Record.endMark ∧
      ((Record.linesOf text).count Record.endMark = 1 ↔
        ∀ v ∈ r.texts, ¬ Record.Forges v) := by
  obtain ⟨serial, place, hready, _, hopen⟩ := open?_of_completed h
  refine ⟨_, hopen, ?_, Record.getLast?_linesOf_whole _, ?_⟩
  · rw [recordText, Record.whole, List.getLast?_concat]
  · have hshown := oneLine_of_mem_shown (oneLine_fields_outcomeAt s r t place)
    rw [recordText,
      Record.count_endMark_eq_one_iff (Record.not_mem_key_of_mem_pairs (Or.inr rfl))]
    refine (Record.not_forges_pairs_iff (oneLine_of_readSerial hready.serial) hshown).trans ?_
    simp only [Request.texts, List.forall_mem_cons, recordHeader, Record.forges_normalize]

theorem isComplete_iff {result : Except ParseError Outcome} :
    isComplete result = true ↔ Completed result := by
  rcases result with why | o
  · cases why <;> simp [isComplete, Completed]
  · simp [isComplete, Completed]

/-- A directory goes to another owner only with a whole record in it, and never on removable
media. -/
theorem record_of_handover [Dialect] {given : Handover}
    (h : handover? s r (parse s r t).1 = some given) :
    given.dir = r.dir ∧ s.owner = some given.owner ∧ s.isRemovable r.dir = false ∧
      ∃ text, (parse s r t).2.open? (recordPath r) = .ok (.file (Utf8.encode text)) ∧
        (Record.linesOf text).getLast? = some Record.endMark := by
  obtain ⟨hcomplete, hgiven⟩ := Option.ite_none_right_eq_some.mp h
  obtain ⟨owner, howner, rfl⟩ := Option.map_eq_some_iff.mp hgiven
  obtain ⟨hmedia, howner⟩ := Option.ite_none_left_eq_some.mp howner
  obtain ⟨serial, place, _, _, hopen⟩ := open?_of_completed (isComplete_iff.mp hcomplete)
  exact ⟨rfl, howner, by simpa using hmedia, _, hopen, Record.getLast?_linesOf_whole _⟩

/-- One identifier without a line feed, and one that ends the record before its time. -/
theorem endMark_of_plainRequest :
    (∃ text, (parse (.forRoot "/") (plainRequest "x") plainFiles).2.open? "/e/crashfile" =
        .ok (.file (Utf8.encode text)) ∧
      (Record.linesOf text).count Record.endMark = 1) ∧
    ∃ text, (parse (.forRoot "/") (plainRequest "x\n_END") plainFiles).2.open? "/e/crashfile" =
        .ok (.file (Utf8.encode text)) ∧
      (Record.linesOf text).count Record.endMark ≠ 1 := by
  constructor
  · obtain ⟨text, hopen, _, _, honce⟩ :=
      endMark_once_iff (s := .forRoot "/") (r := plainRequest "x") (t := plainFiles)
        (Or.inl ⟨_, rfl⟩)
    exact ⟨text, hopen, honce.mpr (by decide)⟩
  · obtain ⟨text, hopen, _, _, honce⟩ :=
      endMark_once_iff (s := .forRoot "/") (r := plainRequest "x\n_END") (t := plainFiles)
        (Or.inl ⟨_, rfl⟩)
    exact ⟨text, hopen, fun hone => absurd (honce.mp hone) (by decide)⟩

end Engine

end CrashDigest
