import CrashDigest.Engine
import CrashDigest.Proofs.Extracted
import CrashDigest.Proofs.FileTree
import CrashDigest.Proofs.RecordText

/-!
# How a run ends

`parse` makes its record empty before it reads the artifacts and fills it
afterwards, so in between it looks at a tree that is neither the one it was
given nor the one it leaves. `parse_eq` takes the two writes together: a run
either refuses and leaves the tree alone, or it puts one file into it, and
reads its artifacts with an empty file in that place.

`Ended` is the same as a relation, one case for each way a run can end. Proofs
about a single run take it apart; proofs that compare runs rewrite with the
equation. Where the runs begin alike they use it in the form of
`parse_eq_prepare`, which asks everything that can refuse in one step.
-/

namespace CrashDigest

/-- The texts of a request that its record shows. -/
def Request.texts (r : Request) : List Text :=
  [r.tag, r.id, r.date, r.uptime, r.build, r.board, r.imei, r.operator]

namespace Engine

/-- Where the record of a request is written. -/
def recordPath (r : Request) : Path := r.dir.join Record.fileName

/-- What the record of a request says before its fields. -/
def recordHeader (r : Request) (serial : Text) : RecordHeader where
  id := r.id
  serial := serial
  date := r.date
  uptime := r.uptime
  build := r.build
  board := r.board
  imei := r.imei
  tag := (Tag.normalize r.tag).tag
  dataReady := r.dataReady
  operator := r.operator

/-- The fields that the record of an outcome shows, the mark of a lost entry first. -/
def shown (o : Outcome) : List (FieldKey × Text) :=
  (if o.fullDropbox then [(.data 0, lostMark)] else []) ++ o.fields.entries

/-- The text of the record. -/
def recordText (r : Request) (serial : Text) (o : Outcome) : Text :=
  Record.whole (Record.pairs (recordHeader r serial) (shown o) o.critical)

/-- The outcome of a run whose record is at `place`. -/
def outcomeAt (s : Settings) (r : Request) (t : FileTree) (place : Place) : Outcome :=
  let plain := Tag.normalize r.tag
  outcome s (recordPath r) plain (extraction s r plain.tag (t.put place (.file [])))

variable {s : Settings} {r : Request} {t : FileTree} {serial : Text} {place : Place}

theorem text_opening (r : Request) (serial : Text) (plain : Tag.Plain) :
    (opening r serial plain).text =
      Record.block (Record.headerLines
        { recordHeader r serial with tag := plain.tag }) ++
      Record.block (Record.fieldLines
        (if plain.fullDropbox then [(.data 0, lostMark)] else [])) := by
  unfold opening
  cases plain.fullDropbox
  · rw [if_neg (by decide), if_neg (by decide), Record.Draft.text_create]
    exact (List.append_nil _).symm
  · rw [if_pos rfl, if_pos rfl, ← Record.Draft.text_create, ← Record.Draft.text_addAll]
    rfl

theorem finish_opening (extracted : Except ArtifactError Extraction) :
    let o := outcome s (recordPath r) (Tag.normalize r.tag) extracted
    ((opening r serial (Tag.normalize r.tag)).fields o.fields).finish o.critical =
      recordText r serial o := by
  simp only []
  rw [Record.Draft.finish_eq, Record.Draft.text_fields, text_opening]
  simp only [recordText, Record.whole, Record.pairs, shown, Record.fieldLines,
    List.map_append, Record.block_append, List.append_assoc]
  rfl

theorem recordText_ne_nil (r : Request) (serial : Text) (o : Outcome) :
    Utf8.encode (recordText r serial o) ≠ [] := by
  intro h
  have hnil : recordText r serial o = [] := Utf8.encode_injective h
  simp [recordText, Record.whole] at hnil

/-- A run as one change of the tree. -/
theorem parse_eq (s : Settings) (r : Request) (t : FileTree) :
    parse s r t =
      if !t.isDirectory r.dir then (.error (.invalidDirectory r.dir), t)
      else match readSerial t s.serialPath with
        | .error why => (.error (.serial s.serialPath why), t)
        | .ok serial =>
            match t.writable (recordPath r) with
            | .error why => (.error (.recordOpen (recordPath r) why), t)
            | .ok place =>
                if t.node? place = some .fullDevice then
                  (.error (.recordWrite (recordPath r) .noSpace), t)
                else
                  let o := outcomeAt s r t place
                  (judge s.strictness o,
                    t.put place (.file (Utf8.encode (recordText r serial o)))) := by
  unfold parse
  cases t.isDirectory r.dir with
  | false => rfl
  | true =>
      cases hserial : readSerial t s.serialPath with
      | error why => rfl
      | ok serial =>
          have hpath : r.dir.join Record.fileName = recordPath r := rfl
          simp only [hpath]
          cases hplace : t.writable (recordPath r) with
          | error why => rw [FileTree.create_of_error hplace]
          | ok place =>
              by_cases hfull : t.node? place = some .fullDevice
              · simp only [FileTree.create_of_full hplace hfull, if_pos hfull, finish_opening,
                  FileTree.fill_of_full hfull (recordText_ne_nil _ _ _)]
              · have hne := FileTree.ne_nil_of_not_directory (FileTree.follow_of_writable hplace).2
                simp only [FileTree.create_of_room hplace hfull, if_neg hfull, finish_opening,
                  FileTree.fill_put hne, outcomeAt]

/-- The serial number and the place for the record, or else what keeps a run from leaving one. -/
def prepare (s : Settings) (r : Request) (t : FileTree) : Except ParseError (Text × Place) :=
  if !t.isDirectory r.dir then .error (.invalidDirectory r.dir)
  else match readSerial t s.serialPath with
    | .error why => .error (.serial s.serialPath why)
    | .ok serial =>
        match t.writable (recordPath r) with
        | .error why => .error (.recordOpen (recordPath r) why)
        | .ok place =>
            if t.node? place = some .fullDevice then .error (.recordWrite (recordPath r) .noSpace)
            else .ok (serial, place)

theorem parse_eq_prepare (s : Settings) (r : Request) (t : FileTree) :
    parse s r t =
      match prepare s r t with
      | .error why => (.error why, t)
      | .ok (serial, place) =>
          let o := outcomeAt s r t place
          (judge s.strictness o, t.put place (.file (Utf8.encode (recordText r serial o)))) := by
  rw [parse_eq, prepare]
  cases t.isDirectory r.dir with
  | false => rfl
  | true =>
      cases readSerial t s.serialPath with
      | error why => rfl
      | ok serial =>
          cases t.writable (recordPath r) with
          | error why => rfl
          | ok place =>
              by_cases hfull : t.node? place = some .fullDevice
              · simp only [if_pos hfull]
                rfl
              · simp only [if_neg hfull]
                rfl

/-- What keeps a run from leaving a record is not its artifacts. -/
theorem prepare_ne_extraction (tag : Text) (why : ArtifactError) :
    prepare s r t ≠ .error (.extraction tag why) := by
  intro h
  unfold prepare at h
  split at h
  · cases h
  · split at h
    · cases h
    · split at h
      · cases h
      · split at h <;> cases h

/-- Artifacts that cannot be read leave nothing behind. -/
theorem bare_of_extractionError {path : Path} {plain : Tag.Plain}
    {extracted : Except ArtifactError Extraction} {why : ArtifactError}
    (h : (outcome s path plain extracted).extractionError = some why) :
    (outcome s path plain extracted).fields = .empty ∧
      (outcome s path plain extracted).critical = Tag.isCritical plain.tag s.criticalTags := by
  cases extracted with
  | ok e => cases h
  | error why => exact ⟨rfl, Bool.false_or _⟩

/-! ## The ways to end -/

/-- Whether everything is there that a run needs to begin its record. -/
structure Ready (s : Settings) (r : Request) (t : FileTree) (serial : Text) (place : Place) :
    Prop where
  directory : t.isDirectory r.dir = true
  serial : readSerial t s.serialPath = .ok serial
  place : t.writable (recordPath r) = .ok place

theorem prepare_eq_ok : prepare s r t = .ok (serial, place) ↔
    Ready s r t serial place ∧ t.node? place ≠ some .fullDevice := by
  constructor
  · intro h
    unfold prepare at h
    split at h
    · cases h
    · next hdir =>
        split at h
        · cases h
        · next hserial =>
            split at h
            · cases h
            · next hplace =>
                split at h
                · cases h
                · next hroom =>
                    cases h
                    exact ⟨⟨by simpa using hdir, hserial, hplace⟩, hroom⟩
  · rintro ⟨hready, hroom⟩
    simp [prepare, hready.directory, hready.serial, hready.place, hroom]

/-- What a run can give, and the tree it can leave. -/
inductive Ended (s : Settings) (r : Request) (t : FileTree) :
    Except ParseError Outcome × FileTree → Prop where
  | refused {why : ParseError} (h : why.recordWritten = false) : Ended s r t (.error why, t)
  | full {serial : Text} {place : Place} (hready : Ready s r t serial place)
      (hfull : t.node? place = some .fullDevice) :
      Ended s r t (.error (.recordWrite (recordPath r) .noSpace), t)
  | written {serial : Text} {place : Place} (hready : Ready s r t serial place)
      (hroom : t.node? place ≠ some .fullDevice) :
      Ended s r t (judge s.strictness (outcomeAt s r t place),
        t.put place (.file (Utf8.encode (recordText r serial (outcomeAt s r t place)))))

theorem ended (s : Settings) (r : Request) (t : FileTree) : Ended s r t (parse s r t) := by
  rw [parse_eq]
  split
  · exact .refused rfl
  · next hdir =>
      split
      · exact .refused rfl
      · next serial hserial =>
          split
          · exact .refused rfl
          · next place hplace =>
              have hready : Ready s r t serial place := ⟨by simpa using hdir, hserial, hplace⟩
              split
              · next hfull => exact .full hready hfull
              · next hroom => exact .written hready hroom

/-- Whether a run completed its record, with or without its fields. -/
def Completed (result : Except ParseError Outcome) : Prop :=
  (∃ o, result = .ok o) ∨ ∃ tag why, result = .error (.extraction tag why)

theorem eq_of_judge_eq_ok {strictness : Strictness} {o o' : Outcome}
    (h : judge strictness o = .ok o') : o' = o := by
  unfold judge at h
  split at h
  · cases h
  · exact (Except.ok.inj h).symm

theorem extraction_of_judge_eq_error {strictness : Strictness} {o : Outcome} {why : ParseError}
    (h : judge strictness o = .error why) : ∃ tag error, why = .extraction tag error := by
  unfold judge at h
  split at h
  · exact ⟨_, _, (Except.error.inj h).symm⟩
  · cases h

theorem judge_cases (strictness : Strictness) (o : Outcome) :
    (judge strictness o = .ok o ∧ (strictness = .lenient ∨ o.extractionError = none)) ∨
      ∃ why, strictness = .strict ∧ o.extractionError = some why ∧
        judge strictness o = .error (.extraction o.tag why) := by
  cases strictness with
  | lenient => exact Or.inl ⟨rfl, Or.inl rfl⟩
  | strict =>
      cases h : o.extractionError with
      | none => exact Or.inl ⟨by simp only [judge, h], Or.inr rfl⟩
      | some why => exact Or.inr ⟨why, rfl, rfl, by simp only [judge, h]⟩

theorem completed_judge (strictness : Strictness) (o : Outcome) :
    Completed (judge strictness o) := by
  rcases judge_cases strictness o with ⟨hok, _⟩ | ⟨why, _, _, herror⟩
  · exact Or.inl ⟨o, hok⟩
  · exact Or.inr ⟨o.tag, why, herror⟩

theorem not_completed_of_prepare {why : ParseError} (h : prepare s r t = .error why) :
    ¬ Completed (.error why) := by
  rintro (⟨_, ⟨⟩⟩ | ⟨tag, error, ⟨⟩⟩)
  exact prepare_ne_extraction tag error h

/-- A run that completed its record left the whole text of it. -/
theorem open?_of_completed (h : Completed (parse s r t).1) :
    ∃ serial place, Ready s r t serial place ∧
      (parse s r t).1 = judge s.strictness (outcomeAt s r t place) ∧
      (parse s r t).2.open? (recordPath r) =
        .ok (.file (Utf8.encode (recordText r serial (outcomeAt s r t place)))) := by
  rw [parse_eq_prepare] at h ⊢
  cases hprepare : prepare s r t with
  | error why =>
      rw [hprepare] at h
      exact absurd h (not_completed_of_prepare hprepare)
  | ok found =>
      have hready := (prepare_eq_ok.mp hprepare).1
      exact ⟨_, _, hready, rfl, FileTree.open?_put_of_writable hready.place⟩

end Engine

/-! ## What the record shows -/

/-- The fields of an outcome are none, or what the family of its tag can give. -/
theorem Engine.gives_of_outcomeAt (s : Settings) (r : Request) (t : FileTree) (place : Place) :
    (outcomeAt s r t place).fields = .empty ∨
      ∃ family, Tag.family? (Tag.normalize r.tag).tag = some family ∧
        family.Gives (outcomeAt s r t place).fields := by
  simp only [outcomeAt, outcome]
  cases h : extraction s r (Tag.normalize r.tag).tag (t.put place (.file [])) with
  | error why => exact Or.inl rfl
  | ok x =>
      unfold extraction at h
      split at h
      · cases h
        exact Or.inl rfl
      · next family hfamily => exact Or.inr ⟨family, hfamily, Event.gives_of_extract h⟩

theorem Engine.oneLine_fields_outcomeAt (s : Settings) (r : Request) (t : FileTree)
    (place : Place) : (outcomeAt s r t place).fields.OneLine := by
  rcases gives_of_outcomeAt s r t place with hempty | ⟨family, _, hgives⟩
  · rw [hempty]
    exact Fields.oneLine_empty
  · exact hgives.oneLine

theorem Engine.oneLine_of_mem_shown {o : Outcome} (ho : o.fields.OneLine) :
    ∀ e ∈ shown o, e.2.OneLine := by
  intro e he
  rcases List.mem_append.mp he with hmark | hfield
  · split at hmark
    · obtain rfl := List.mem_singleton.mp hmark
      exact (by decide : Text.OneLine lostMark)
    · cases hmark
  · exact ho e hfield

theorem Tag.normalize_cases (raw : Text) :
    (∃ tag, (raw, tag) ∈ aliases ∧ normalize raw = ⟨tag, true⟩) ∨
      normalize raw = ⟨raw, false⟩ := by
  unfold normalize
  cases h : aliases.lookup raw with
  | none => exact Or.inr rfl
  | some tag =>
      obtain ⟨front, back, hsplit, _⟩ := List.lookup_eq_some_iff.mp h
      exact Or.inl ⟨tag, by simp [hsplit], rfl⟩

theorem Engine.oneLine_of_readSerial {t : FileTree} {p : Path} {serial : Text}
    (h : readSerial t p = .ok serial) : serial.OneLine := by
  unfold readSerial at h
  split at h
  · cases h
  · next data _ =>
      split at h
      · next line hline =>
          cases h
          have hfeed : (0x0A : UInt8) ∉ data.takeWhile (· ≠ 0x0A) := fun hmem => by
            simpa using List.all_eq_true.mp List.all_takeWhile _ hmem
          have hone : Text.OneLine line := Utf8.newline_not_mem_decode? hfeed hline
          refine hone.of_isInfix (List.IsPrefix.isInfix ?_)
          have hsuffix := List.dropWhile_suffix (l := line.reverse) (decide <| · = '\r')
          simpa using List.reverse_prefix.mpr hsuffix
      · cases h

/-! ## A plain run -/

/-- A request for an event of an unknown kind, in the directory `/e`. -/
def Engine.plainRequest (id : Text) : Request where
  dir := "/e"
  tag := "REBOOT"
  id := id
  uptime := []
  build := []
  board := []
  date := []
  imei := []
  operator := []
  dataReady := false

/-- The directory `/e` and, at `/uuid.txt`, a serial number. -/
def Engine.plainFiles : FileTree where
  nodes := [(["e"], .directory), (["uuid.txt"], .file [0x31, 0x0A])]
  workingDirectory := []

/-- The same with a trace in the directory, for an event with fields. -/
def Engine.traceFiles : FileTree :=
  plainFiles.put ["e", "x_app_anr.txt"]
    (.file (Utf8.encode "Process: a\nCmd line: a\n\"main\" prio=5\n  at b.c(D.java:1)\n"))

/-- A result of which something is known is one. -/
theorem Engine.exists_ok_of_map {ε α β : Type} {result : Except ε α} {f : α → β} {b : β}
    (h : result.toOption.map f = some b) : ∃ a, result = .ok a ∧ f a = b := by
  cases result with
  | error why => cases h
  | ok a => exact ⟨a, rfl, Option.some.inj h⟩

end CrashDigest
