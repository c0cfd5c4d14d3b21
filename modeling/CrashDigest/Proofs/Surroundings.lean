import CrashDigest.Proofs.History

/-!
# What a run looks at

A run asks little of the tree around it. It looks in one directory, for names
that the patterns of one family match; it reads the files of those names; and
it reads its serial number up to the end of a line. Two trees that agree on so
much are the same to it, however different they are otherwise: other files may
stand in the directory, listed in another order, and the two directories need
not even be at the same place.

The artifacts are looked for after the record was begun. Beginning it takes
nothing away from what is assumed of a directory (`Stage.begin`) or of two
(`SameArtifacts.begin`), because no pattern matches the record's name, so the
two events agree as `Event.AgreeOn` wants it. The order of a listing matters
only where a pattern has a choice, and each may find one name at most.

An earlier record is no part of what a run looks at. It is replaced, and then
the two records are the same; but a run that cannot read its serial number
replaces nothing, and what stood in the two places stays as different as it
was (`serial_not_text`).
-/

namespace CrashDigest

/-- The names of the artifacts that are looked for under a tag; none for a tag without a family. -/
def Tag.artifacts (raw : Text) : List Pattern :=
  match family? (normalize raw).tag with
  | some family => family.artifacts
  | none => []

/-- The bytes up to the first line feed and this itself, or all of them if there is none. -/
def Bytes.firstLine (data : Bytes) : Bytes :=
  data.take (data.idxOf 0x0A + 1)

namespace Tag

variable {raw name : Text} {pattern : Pattern}

theorem exists_family_of_mem_artifacts (h : pattern ∈ artifacts raw) :
    ∃ family : Family, pattern ∈ family.artifacts := by
  unfold artifacts at h
  split at h
  · next family _ => exact ⟨family, h⟩
  · cases h

theorem ne_fileName_of_isIn (hpattern : pattern ∈ artifacts raw) (h : pattern.isIn name = true) :
    name ≠ Record.fileName := by
  obtain ⟨family, hfamily⟩ := exists_family_of_mem_artifacts hpattern
  exact FileTree.ne_fileName_of_isIn hfamily h

/-- No artifact is named like a step that stays or goes up. -/
theorem ne_step_of_isIn (hpattern : pattern ∈ artifacts raw) (h : pattern.isIn name = true) :
    name ∉ ([[], ['.'], ['.', '.']] : List Text) := by
  obtain ⟨family, hfamily⟩ := exists_family_of_mem_artifacts hpattern
  have hnone : ∀ pattern ∈ family.artifacts,
      ∀ name ∈ ([[], ['.'], ['.', '.']] : List Text), pattern.isIn name = false := by
    cases family <;> decide +kernel
  intro hmem
  rw [hnone pattern hfamily name hmem] at h
  cases h

end Tag

namespace Engine

/-- Whether a tree has a directory for an event, with room for its record and at most one artifact
for each pattern. The names in a directory hold no slashes. -/
structure Stage (r : Request) (t : FileTree) (home : Place) : Prop where
  follow : t.follow r.dir = .ok home
  directory : t.node? home = some .directory
  record : ∀ node, t.node? (recordPlace home) = some node → ∃ content, node = .file content
  names : ∀ name ∈ t.list r.dir, '/' ∉ name
  one : ∀ pattern ∈ Tag.artifacts r.tag, ∀ n ∈ t.list r.dir, ∀ m ∈ t.list r.dir,
    pattern.isIn n = true → pattern.isIn m = true → n = m

/-- Whether the artifacts that are looked for under a tag are the same in two directories. -/
def SameArtifacts (raw : Text) (t t' : FileTree) (home home' : Place) : Prop :=
  ∀ pattern ∈ Tag.artifacts raw, ∀ name, pattern.isIn name = true →
    t'.node? (home' ++ [name]) = t.node? (home ++ [name])

/-- Whether two files start with the same line, or cannot be read for the same reason. -/
def SameLine (p : Path) (t t' : FileTree) : Prop :=
  (t'.read p).map Bytes.firstLine = (t.read p).map Bytes.firstLine

variable {s : Settings} {r : Request} {t t' : FileTree} {home home' : Place}

/-! ## The serial number -/

theorem takeWhile_firstLine (data : Bytes) :
    (Bytes.firstLine data).takeWhile (· ≠ 0x0A) = data.takeWhile (· ≠ 0x0A) := by
  induction data with
  | nil => rfl
  | cons b data ih =>
      by_cases hb : b = 0x0A
      · simp [Bytes.firstLine, hb]
      · have hbeq : (b == 0x0A) = false := beq_false_of_ne hb
        have hcons : Bytes.firstLine (b :: data) = b :: Bytes.firstLine data := by
          simp [Bytes.firstLine, List.idxOf_cons, hbeq]
        rw [hcons, List.takeWhile_cons, List.takeWhile_cons, ih]

/-- The serial number is read from its line alone. -/
theorem readSerial_congr {p : Path} (h : SameLine p t t') : readSerial t' p = readSerial t p := by
  rw [SameLine] at h
  rw [readSerial, readSerial]
  generalize t.read p = found at h ⊢
  generalize t'.read p = found' at h ⊢
  cases found with
  | error why =>
      cases found' with
      | error why' =>
          cases h
          rfl
      | ok data' => cases h
  | ok data =>
      cases found' with
      | error why' => cases h
      | ok data' =>
          have hline : Bytes.firstLine data' = Bytes.firstLine data := Except.ok.inj h
          have hbytes : data'.takeWhile (· ≠ 0x0A) = data.takeWhile (· ≠ 0x0A) := by
            rw [← takeWhile_firstLine, hline, takeWhile_firstLine]
          simp only [hbytes]

/-! ## A directory for an event -/

namespace Stage

variable (h : Stage r t home)

include h

theorem record_ne_directory : t.node? (recordPlace home) ≠ some .directory := by
  intro hdirectory
  obtain ⟨content, hcontent⟩ := h.record _ hdirectory
  cases hcontent

theorem record_ne_fullDevice : t.node? (recordPlace home) ≠ some .fullDevice := by
  intro hfull
  obtain ⟨content, hcontent⟩ := h.record _ hfull
  cases hcontent

theorem writable : t.writable (recordPath r) = .ok (recordPlace home) := by
  rw [recordPath, FileTree.writable_join h.follow (by decide) (by decide) h.directory]
  exact if_neg h.record_ne_directory

theorem prepare : prepare s r t =
    match readSerial t s.serialPath with
    | .error why => .error (.serial s.serialPath why)
    | .ok serial => .ok (serial, recordPlace home) := by
  have hisdir : t.isDirectory r.dir = true := (FileTree.isDirectory_iff h.follow).mpr h.directory
  rw [Engine.prepare, hisdir, h.writable]
  cases readSerial t s.serialPath <;>
    simp only [Bool.not_true, Bool.false_eq_true, if_false, if_neg h.record_ne_fullDevice]

theorem mem_list {name : Text} :
    name ∈ t.list r.dir ↔ (t.node? (home ++ [name])).isSome := by
  rw [FileTree.mem_list h.follow]
  exact and_iff_right h.directory

theorem open?_listed {name : Text} (hlisted : name ∈ t.list r.dir)
    (hname : name ∉ ([[], ['.'], ['.', '.']] : List Text)) :
    t.open? (r.dir.join name) =
      match t.node? (home ++ [name]) with
      | some node => .ok node
      | none => .error .notFound := by
  have hfollow : t.follow (r.dir.join name) = .ok (home ++ [name]) := by
    rw [FileTree.follow_join h.follow (h.names name hlisted), FileTree.step_name h.directory hname]
  cases hnode : t.node? (home ++ [name]) <;> simp only [FileTree.open?, hfollow, hnode]

/-- The directory is what it was once the record was begun in it. -/
theorem begin (content : Bytes) : Stage r (t.put (recordPlace home) (.file content)) home where
  follow := FileTree.follow_put_record h.follow h.record_ne_directory _
  directory := FileTree.node?_put_of_directory h.record_ne_directory home h.directory
  record node hnode := by
    rw [FileTree.node?_put (FileTree.ne_nil_of_not_directory h.record_ne_directory),
      if_pos rfl] at hnode
    exact ⟨content, (Option.some.inj hnode).symm⟩
  names name hname := by
    by_cases hrecord : name = Record.fileName
    · rw [hrecord]
      decide
    · exact h.names name ((FileTree.mem_list_put_record h.follow h.record_ne_directory _ hrecord).mp
        hname)
  one pattern hpattern n hn m hm hnin hmin := by
    have hold {name : Text} (hin : pattern.isIn name = true) :=
      (FileTree.mem_list_put_record h.follow h.record_ne_directory (.file content)
        (Tag.ne_fileName_of_isIn hpattern hin)).mp
    exact h.one pattern hpattern n (hold hnin hn) m (hold hmin hm) hnin hmin

end Stage

theorem SameArtifacts.begin (h : SameArtifacts r.tag t t' home home') (hstage : Stage r t home)
    (hstage' : Stage r t' home') (content : Bytes) :
    SameArtifacts r.tag (t.put (recordPlace home) (.file content))
      (t'.put (recordPlace home') (.file content)) home home' := by
  intro pattern hpattern name hname
  have hother (home : Place) : home ++ [name] ≠ recordPlace home := by
    simpa [recordPlace] using Tag.ne_fileName_of_isIn hpattern hname
  rw [FileTree.node?_put (FileTree.ne_nil_of_not_directory hstage.record_ne_directory),
    FileTree.node?_put (FileTree.ne_nil_of_not_directory hstage'.record_ne_directory),
    if_neg (hother home), if_neg (hother home')]
  exact h pattern hpattern name hname

/-- An extraction finds the same artifacts in both directories, and the same bytes in them. -/
theorem SameArtifacts.agreeOn (h : SameArtifacts r.tag t t' home home') (hstage : Stage r t home)
    (hstage' : Stage r t' home') (tag : Text) (legacyFabric : Bool) :
    Event.AgreeOn (Tag.artifacts r.tag) ⟨t, r.dir, tag, legacyFabric⟩
      ⟨t', r.dir, tag, legacyFabric⟩ := by
  have hmem {pattern : Pattern} (hpattern : pattern ∈ Tag.artifacts r.tag) (name : Text)
      (hname : pattern.isIn name = true) : name ∈ t'.list r.dir ↔ name ∈ t.list r.dir := by
    rw [hstage.mem_list, hstage'.mem_list, h pattern hpattern name hname]
  refine ⟨rfl, rfl, rfl, fun pattern hpattern => ?_, fun pattern hpattern path hpath => ?_⟩
  · rw [FileTree.find?, FileTree.find?,
      FileTree.find?_eq_of_mem_iff (hmem hpattern) (hstage.one pattern hpattern)]
  · obtain ⟨name, hfind, rfl⟩ := Option.map_eq_some_iff.mp hpath
    have hname : pattern.isIn name = true := List.find?_some hfind
    have hlisted : name ∈ t.list r.dir := List.mem_of_find?_eq_some hfind
    have hstep := Tag.ne_step_of_isIn hpattern hname
    refine Artifact.stream_congr ?_
    simp only [FileTree.read, hstage.open?_listed hlisted hstep,
      hstage'.open?_listed ((hmem hpattern name hname).mpr hlisted) hstep,
      h pattern hpattern name hname]

/-- Two trees whose events agree on the artifacts of a tag give the same for it. -/
theorem extraction_of_agreeOn (h : ∀ legacyFabric : Bool, Event.AgreeOn (Tag.artifacts r.tag)
      ⟨t, r.dir, (Tag.normalize r.tag).tag, legacyFabric⟩
      ⟨t', r.dir, (Tag.normalize r.tag).tag, legacyFabric⟩) :
    extraction s r (Tag.normalize r.tag).tag t' = extraction s r (Tag.normalize r.tag).tag t := by
  rw [extraction, extraction]
  cases hfamily : Tag.family? (Tag.normalize r.tag).tag with
  | none => rfl
  | some family =>
      simp only [Tag.artifacts, hfamily] at h
      exact Event.extract_congr (h _)

theorem outcomeAt_of_sameArtifacts (h : SameArtifacts r.tag t t' home home')
    (hstage : Stage r t home) (hstage' : Stage r t' home') :
    outcomeAt s r t' (recordPlace home') = outcomeAt s r t (recordPlace home) := by
  have hagree := (h.begin hstage hstage' []).agreeOn (hstage.begin []) (hstage'.begin [])
  simp only [outcomeAt, extraction_of_agreeOn (hagree _)]

/-- Two trees that agree on the artifacts and on the line of the serial number give the same result
and the same record. A run that cannot read its serial number leaves both as they were. -/
theorem parse_of_same_surroundings (hstage : Stage r t home) (hstage' : Stage r t' home')
    (hartifacts : SameArtifacts r.tag t t' home home') (hserial : SameLine s.serialPath t t') :
    (parse s r t').1 = (parse s r t).1 ∧
    ((∃ why, (parse s r t).1 = .error (.serial s.serialPath why) ∧
        (parse s r t).2 = t ∧ (parse s r t').2 = t') ∨
      (∀ path why, (parse s r t).1 ≠ .error (.serial path why)) ∧
        ∃ content, (parse s r t).2.open? (recordPath r) = .ok (.file content) ∧
          (parse s r t').2.open? (recordPath r) = .ok (.file content)) := by
  rw [parse_eq_prepare, parse_eq_prepare, hstage.prepare, hstage'.prepare,
    readSerial_congr hserial]
  cases readSerial t s.serialPath with
  | error why => exact ⟨rfl, Or.inl ⟨why, rfl, rfl, rfl⟩⟩
  | ok serial =>
      dsimp only
      rw [outcomeAt_of_sameArtifacts hartifacts hstage hstage']
      have hnot (path : Path) (why : FileError) :
          judge s.strictness (outcomeAt s r t (recordPlace home)) ≠ .error (.serial path why) := by
        intro hwhy
        obtain ⟨tag, error, herror⟩ := extraction_of_judge_eq_error hwhy
        cases herror
      exact ⟨rfl, Or.inr ⟨hnot, _, FileTree.open?_put_of_writable hstage.writable,
        FileTree.open?_put_of_writable hstage'.writable⟩⟩

/-- Another file in the directory and more bytes behind the serial number change nothing about the
record of a trace. -/
theorem parse_beside_notes :
    let anr := { plainRequest "x" with tag := "ANR" }
    let t := plainFiles.put ["e", "x_app_anr.txt"] (.file (Utf8.encode "Process: a\n"))
    let t' := (t.put ["e", "notes"] (.file [0x50])).put ["uuid.txt"] (.file [0x31, 0x0A, 0xFF])
    Stage anr t ["e"] ∧ Stage anr t' ["e"] ∧ SameArtifacts anr.tag t t' ["e"] ["e"] ∧
    SameLine (Settings.forRoot "/").serialPath t t' ∧
    (parse (.forRoot "/") anr t').1 = (parse (.forRoot "/") anr t).1 ∧
    ∃ content, (parse (.forRoot "/") anr t).2.open? (recordPath anr) = .ok (.file content) ∧
      (parse (.forRoot "/") anr t').2.open? (recordPath anr) = .ok (.file content) := by
  intro anr t t'
  have hstage : Stage anr t ["e"] :=
    ⟨by rfl, by rfl, by rintro _ ⟨⟩, by decide, by decide +kernel⟩
  have hstage' : Stage anr t' ["e"] :=
    ⟨by rfl, by rfl, by rintro _ ⟨⟩, by decide, by decide +kernel⟩
  have hartifacts : SameArtifacts anr.tag t t' ["e"] ["e"] := by
    intro pattern hpattern name hname
    have hnotes : ∀ pattern ∈ Tag.artifacts "ANR", pattern.isIn "notes" = false := by
      decide +kernel
    have hne : name ≠ "notes" := by
      rintro rfl
      rw [hnotes pattern hpattern] at hname
      cases hname
    show ((t.put _ _).put _ _).node? _ = _
    rw [FileTree.node?_put (by decide), FileTree.node?_put (by decide), if_neg (by simp),
      if_neg (by simpa using hne)]
  have hserial : SameLine (Settings.forRoot "/").serialPath t t' := by rfl
  refine ⟨hstage, hstage', hartifacts, hserial, ?_⟩
  obtain ⟨hresult, ⟨why, hwhy, _⟩ | ⟨_, hcontent⟩⟩ :=
    parse_of_same_surroundings hstage hstage' hartifacts hserial
  · have hsuccess : (parse (.forRoot "/") anr t).1.isOk = true := by decide +kernel
    rw [hwhy] at hsuccess
    cases hsuccess
  · exact ⟨hresult, hcontent⟩

/-- Where the serial number is no text, the records of earlier runs stay, and may be different. -/
theorem serial_not_text :
    ∃ t t', Stage (plainRequest "x") t ["e"] ∧ Stage (plainRequest "x") t' ["e"] ∧
      SameArtifacts (plainRequest "x").tag t t' ["e"] ["e"] ∧
      SameLine (Settings.forRoot "/").serialPath t t' ∧
      (parse (.forRoot "/") (plainRequest "x") t').2.open? (recordPath (plainRequest "x")) ≠
        (parse (.forRoot "/") (plainRequest "x") t).2.open? (recordPath (plainRequest "x")) := by
  let files (content : Bytes) : FileTree :=
    (plainFiles.put ["uuid.txt"] (.file [0xFF, 0x0A])).put ["e", "crashfile"] (.file content)
  have hlist (content : Bytes) : (files content).list "/e" = [("crashfile" : Text)] := by rfl
  have hstage (content : Bytes) : Stage (plainRequest "x") (files content) ["e"] := by
    refine ⟨by rfl, by rfl, fun node h => ⟨content, (Option.some.inj h).symm⟩, ?_,
      by rintro _ ⟨⟩⟩
    intro name hname
    rw [show (plainRequest "x").dir = "/e" from rfl, hlist] at hname
    rw [List.mem_singleton.mp hname]
    decide
  refine ⟨files [0x41], files [0x42], hstage _, hstage _, by rintro _ ⟨⟩, by rfl, ?_⟩
  have hkept (content : Bytes) : (parse (.forRoot "/") (plainRequest "x") (files content)).2.open?
      (recordPath (plainRequest "x")) = .ok (.file content) := by rfl
  rw [hkept, hkept]
  decide

end Engine

end CrashDigest
