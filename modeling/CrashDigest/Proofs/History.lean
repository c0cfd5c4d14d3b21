import CrashDigest.Proofs.Locality
import CrashDigest.Proofs.Run

/-!
# Runs do not remember

Any number of runs may have been made on a directory before the one that
counts. What they leave behind is at most a record: nothing else in the tree
changes, and the record is replaced whole. So a later run sees its tree but for
the one place where its own record will stand, and the place is made empty
before the artifacts are looked for. None of their names can be that of a
record.

`History` lets the directory be listed in a new order after every run. What is
found then depends on the order only where a pattern has several files to
choose from, which the theorem about histories rules out.

The serial file is read before the record is begun, and it is the one thing
that an earlier record can get in the way of. It must not be the record, and
its path must not lead on from the record's place while nothing is there: the
path leads nowhere then, but what the system says about it changes once a file
stands in its way.
-/

namespace CrashDigest

namespace FileTree

/-- Whether one tree is the other with a file perhaps written at a place. -/
structure WrittenAt (place : Place) (t t' : FileTree) : Prop where
  workingDirectory : t'.workingDirectory = t.workingDirectory
  elsewhere : ∀ q, q ≠ place → t'.node? q = t.node? q
  here : t'.node? place = t.node? place ∨
    (∀ node ∈ t.node? place, ∃ content, node = .file content) ∧
      ∃ content, t'.node? place = some (.file content)

namespace WrittenAt

variable {place : Place} {t t' : FileTree} {p : Path}

theorem of_alike (h : t.Alike t') : WrittenAt place t t' :=
  ⟨h.workingDirectory, fun q _ => h.node q, Or.inl (h.node place)⟩

theorem trans {t'' : FileTree} (h : WrittenAt place t t') (h' : WrittenAt place t' t'') :
    WrittenAt place t t'' where
  workingDirectory := h'.workingDirectory.trans h.workingDirectory
  elsewhere q hq := (h'.elsewhere q hq).trans (h.elsewhere q hq)
  here := by
    rcases h.here with hsame | ⟨hfile, content, hcontent⟩
    · rw [← hsame]
      exact h'.here
    · refine Or.inr ⟨hfile, ?_⟩
      rcases h'.here with hsame' | ⟨_, hcontent'⟩
      · exact ⟨content, hsame'.trans hcontent⟩
      · exact hcontent'

theorem of_put {content : Bytes} (hdir : t.node? place ≠ some .directory)
    (hroom : t.node? place ≠ some .fullDevice) :
    WrittenAt place t (t.put place (.file content)) := by
  have hplace := ne_nil_of_not_directory hdir
  refine ⟨rfl, fun q hq => ?_, Or.inr ⟨fun node hnode => ?_, content, ?_⟩⟩
  · rw [node?_put hplace, if_neg hq]
  · cases node with
    | file old => exact ⟨old, rfl⟩
    | directory => exact absurd hnode hdir
    | fullDevice => exact absurd hnode hroom
  · rw [node?_put hplace, if_pos rfl]

/-- The same place holds the same kind of thing, unless a file has come to stand there. -/
theorem node_iff (h : WrittenAt place t t') {node : Node} (hnode : ∀ content, node ≠ .file content)
    (q : Place) : t'.node? q = some node ↔ t.node? q = some node := by
  by_cases hq : q = place
  · subst hq
    rcases h.here with hsame | ⟨hfile, content, hcontent⟩
    · rw [hsame]
    · constructor
      · intro h'
        exact absurd (Option.some.inj (h'.symm.trans hcontent)) (hnode content)
      · intro h'
        obtain ⟨old, hold⟩ := hfile node h'
        exact absurd hold (hnode old)
  · rw [h.elsewhere q hq]

theorem directory_iff (h : WrittenAt place t t') (q : Place) :
    t'.node? q = some .directory ↔ t.node? q = some .directory :=
  h.node_iff (fun content => by simp) q

theorem follow_of_ok (h : WrittenAt place t t') {q : Place} (hp : t.follow p = .ok q) :
    t'.follow p = .ok q :=
  follow_of_directories h.workingDirectory (fun q hq => (h.directory_iff q).mpr hq) hp

/-- A path leads where it led, unless it came by the place before anything stood there. -/
theorem follow (h : WrittenAt place t t')
    (hthrough : t.node? place = none → ¬ t.LeadsThrough p place) :
    t'.follow p = t.follow p := by
  by_cases hnone : t.node? place = none
  · exact follow_of_not_through h.workingDirectory h.elsewhere (hthrough hnone)
  · have hstep : t'.step = t.step := by
      funext here name
      by_cases hhere : here = place
      · subst hhere
        rcases h.here with hsame | ⟨hfile, content, hcontent⟩
        · exact step_congr hsame name
        · -- A file is left in neither tree, whatever it holds.
          obtain ⟨node, hnode⟩ := Option.ne_none_iff_exists'.mp hnone
          obtain ⟨old, rfl⟩ := hfile node hnode
          rw [step, step, hcontent, hnode]
      · exact step_congr (h.elsewhere here hhere) name
    rw [FileTree.follow, FileTree.follow, hstep, h.workingDirectory]

theorem open? (h : WrittenAt place t t') (hp : t.follow p ≠ .ok place)
    (hthrough : t.node? place = none → ¬ t.LeadsThrough p place) : t'.open? p = t.open? p := by
  rw [FileTree.open?, FileTree.open?, h.follow hthrough]
  cases hq : t.follow p with
  | error why => rfl
  | ok q =>
      have hne : q ≠ place := fun heq => hp (heq ▸ hq)
      simp only [h.elsewhere q hne]

theorem read (h : WrittenAt place t t') (hp : t.follow p ≠ .ok place)
    (hthrough : t.node? place = none → ¬ t.LeadsThrough p place) : t'.read p = t.read p := by
  rw [FileTree.read, FileTree.read, h.open? hp hthrough]

/-- Once the place is written anew, nothing tells the trees apart but their listings. -/
theorem alike_put (h : WrittenAt place t t') (hplace : place ≠ []) (node : Node) :
    (t.put place node).Alike (t'.put place node) := by
  refine ⟨fun q => ?_, h.workingDirectory⟩
  rw [node?_put hplace, node?_put hplace]
  split
  · rfl
  · next hq => exact h.elsewhere q hq

end WrittenAt

/-! ## Listings in another order -/

theorem find?_eq_of_mem_iff {α : Type} {l l' : List α} {p : α → Bool}
    (hmem : ∀ a, p a → (a ∈ l' ↔ a ∈ l)) (hone : ∀ a ∈ l, ∀ b ∈ l, p a → p b → a = b) :
    l'.find? p = l.find? p := by
  cases h : l.find? p with
  | none =>
      rw [List.find?_eq_none] at h ⊢
      exact fun a ha hpa => h a ((hmem a hpa).mp ha) hpa
  | some a =>
      have ha := List.mem_of_find?_eq_some h
      have hpa := List.find?_some h
      cases h' : l'.find? p with
      | none => exact absurd hpa (List.find?_eq_none.mp h' a ((hmem a hpa).mpr ha))
      | some b =>
          have hpb := List.find?_some h'
          have hb := (hmem b hpb).mp (List.mem_of_find?_eq_some h')
          rw [hone a ha b hb hpa hpb]

/-- Whether no pattern of a family finds more than one name in a directory. -/
def Unambiguous (t : FileTree) (dir : Path) : Prop :=
  ∀ family : Family, ∀ pattern ∈ family.artifacts, ∀ n ∈ t.list dir, ∀ m ∈ t.list dir,
    pattern.isIn n = true → pattern.isIn m = true → n = m

variable {t t' : FileTree} {home : Place} {dir : Path}

theorem Alike.find? (h : t.Alike t') (hdir : t.follow dir = .ok home) {pattern : Pattern}
    (hone : ∀ n ∈ t.list dir, ∀ m ∈ t.list dir,
      pattern.isIn n = true → pattern.isIn m = true → n = m) :
    t'.find? dir pattern = t.find? dir pattern := by
  have hmem (name : Text) : name ∈ t'.list dir ↔ name ∈ t.list dir := by
    rw [mem_list hdir, mem_list ((h.follow dir).trans hdir), h.node, h.node]
  rw [FileTree.find?, FileTree.find?, find?_eq_of_mem_iff (fun name _ => hmem name) hone]

/-- No artifact is named like a record. -/
theorem not_isIn_fileName {family : Family} :
    ∀ pattern ∈ family.artifacts, pattern.isIn Record.fileName = false := by
  cases family <;> decide +kernel

theorem follow_put_record (hdir : t.follow dir = .ok home)
    (hrecord : t.node? (home ++ [Record.fileName]) ≠ some .directory) (node : Node) :
    (t.put (home ++ [Record.fileName]) node).follow dir = .ok home :=
  follow_of_directories (by rfl) (node?_put_of_directory hrecord) hdir

/-- A record changes nothing about the other names of its directory. -/
theorem mem_list_put_record (hdir : t.follow dir = .ok home)
    (hrecord : t.node? (home ++ [Record.fileName]) ≠ some .directory) (node : Node) {name : Text}
    (hname : name ≠ Record.fileName) :
    name ∈ (t.put (home ++ [Record.fileName]) node).list dir ↔ name ∈ t.list dir := by
  have hplace := ne_nil_of_not_directory hrecord
  have hhome : home ≠ home ++ [Record.fileName] := by simp
  rw [mem_list (follow_put_record hdir hrecord node), mem_list hdir, node?_put hplace,
    node?_put hplace, if_neg hhome, if_neg (by simpa)]

theorem ne_fileName_of_isIn {family : Family} {pattern : Pattern} {name : Text}
    (hpattern : pattern ∈ family.artifacts) (h : pattern.isIn name = true) :
    name ≠ Record.fileName := by
  rintro rfl
  rw [not_isIn_fileName pattern hpattern] at h
  cases h

/-- A record in the directory does not make it ambiguous. -/
theorem Unambiguous.put (h : t.Unambiguous dir) (hdir : t.follow dir = .ok home)
    (hrecord : t.node? (home ++ [Record.fileName]) ≠ some .directory) (node : Node) :
    (t.put (home ++ [Record.fileName]) node).Unambiguous dir := by
  intro family pattern hpattern n hn m hm hnin hmin
  -- Whatever is listed and matches is not the record, so it was listed before.
  have hold {name : Text} (hin : pattern.isIn name = true) :=
    (mem_list_put_record hdir hrecord node (ne_fileName_of_isIn hpattern hin)).mp
  exact h family pattern hpattern n (hold hnin hn) m (hold hmin hm) hnin hmin

end FileTree

namespace Engine

/-- The place of the record in a directory. -/
def recordPlace (home : Place) : Place := home ++ [Record.fileName]

/-- Whether a tree can have come about from another by runs on the directory at `home`, each of
which may change the order of listings. -/
inductive History (home : Place) (t₀ : FileTree) : FileTree → Prop where
  | start {t : FileTree} (h : t₀.Alike t) : History home t₀ t
  | call {t t' : FileTree} (s : Settings) (r : Request) (h : History home t₀ t)
      (hdir : t₀.follow r.dir = .ok home) (hnext : (parse s r t).2.Alike t') : History home t₀ t'

/-- Whether a run got past creating its record. -/
def Begun (result : Except ParseError Outcome) : Prop :=
  ∀ why, result = .error why → why.recordWritten = true

variable {s : Settings} {r : Request} {t t₀ : FileTree} {home place : Place}

theorem eq_recordPlace_of_writable (hdir : t.follow r.dir = .ok home)
    (h : t.writable (recordPath r) = .ok place) : place = recordPlace home := by
  have hfollow := (FileTree.follow_of_writable h).1
  rw [recordPath, FileTree.follow_join hdir (by decide)] at hfollow
  have hhome := FileTree.eq_directory_of_step hfollow
  rw [FileTree.step_name hhome (by decide)] at hfollow
  exact (Except.ok.inj hfollow).symm

/-- One run writes a record at most. -/
theorem writtenAt_parse (hdir : t.follow r.dir = .ok home) :
    FileTree.WrittenAt (recordPlace home) t (parse s r t).2 := by
  have hended := ended s r t
  generalize parse s r t = result at hended
  cases hended with
  | refused _ => exact .of_alike (.refl t)
  | full _ _ => exact .of_alike (.refl t)
  | written hready hroom =>
      obtain rfl := eq_recordPlace_of_writable hdir hready.place
      exact .of_put (FileTree.follow_of_writable hready.place).2 hroom

/-- A run that did not get past creating its record leaves the tree that it found. -/
theorem parse_of_not_begun (h : ¬ Begun (parse s r t).1) : (parse s r t).2 = t := by
  have hended := ended s r t
  generalize parse s r t = result at h hended
  cases hended with
  | refused _ => rfl
  | full _ _ => rfl
  | written _ _ =>
      refine absurd (fun why hwhy => ?_) h
      obtain ⟨tag, error, rfl⟩ := extraction_of_judge_eq_error hwhy
      rfl

theorem History.writtenAt (h : History home t₀ t) :
    FileTree.WrittenAt (recordPlace home) t₀ t := by
  induction h with
  | start h => exact .of_alike h
  | call s r _ hdir hnext ih =>
      exact (ih.trans (writtenAt_parse (ih.follow_of_ok hdir))).trans (.of_alike hnext)

/-! ## Runs on trees that differ in the record -/

theorem extraction_of_alike {tag : Text} (h : t₀.Alike t) (hdir : t₀.follow r.dir = .ok home)
    (hone : t₀.Unambiguous r.dir) : extraction s r tag t = extraction s r tag t₀ := by
  unfold extraction
  cases Tag.family? tag with
  | none => rfl
  | some family =>
      refine Event.extract_congr ⟨rfl, rfl, rfl, fun pattern hpattern => ?_, fun _ _ path _ => ?_⟩
      · exact h.find? hdir (hone family pattern hpattern)
      · exact Artifact.stream_congr (h.read path)

section Directory

variable (hw : FileTree.WrittenAt place t₀ t) (hdir : t₀.follow r.dir = .ok home)

include hw hdir

theorem isDirectory_congr : t.isDirectory r.dir = t₀.isDirectory r.dir := by
  rw [Bool.eq_iff_iff, FileTree.isDirectory_iff hdir,
    FileTree.isDirectory_iff (hw.follow_of_ok hdir)]
  exact hw.directory_iff home

theorem writable_congr (h : t₀.isDirectory r.dir = true) :
    t.writable (recordPath r) = t₀.writable (recordPath r) := by
  have hhome := (FileTree.isDirectory_iff hdir).mp h
  rw [recordPath, FileTree.writable_join hdir (by decide) (by decide) hhome,
    FileTree.writable_join (hw.follow_of_ok hdir) (by decide) (by decide)
      ((hw.directory_iff home).mpr hhome)]
  simp only [hw.directory_iff]

end Directory

section Congruence

variable (hw : FileTree.WrittenAt (recordPlace home) t₀ t) (hdir : t₀.follow r.dir = .ok home)

include hw hdir

theorem outcomeAt_congr (hone : t₀.Unambiguous r.dir)
    (hrecord : t₀.node? (recordPlace home) ≠ some .directory) :
    outcomeAt s r t (recordPlace home) = outcomeAt s r t₀ (recordPlace home) := by
  have hplace := FileTree.ne_nil_of_not_directory hrecord
  have hdir' : (t₀.put (recordPlace home) (.file [])).follow r.dir = .ok home :=
    FileTree.follow_put_record hdir hrecord _
  simp only [outcomeAt]
  rw [extraction_of_alike (hw.alike_put hplace _) hdir' (hone.put hdir hrecord _)]

/-- The result does not tell the trees apart, nor does the tree that is left with a record. -/
theorem parse_congr (hserial : readSerial t s.serialPath = readSerial t₀ s.serialPath)
    (hone : t₀.Unambiguous r.dir) :
    (parse s r t).1 = (parse s r t₀).1 ∧
      (Begun (parse s r t₀).1 → (parse s r t₀).2.Alike (parse s r t).2) := by
  rw [parse_eq, parse_eq, isDirectory_congr hw hdir, hserial]
  cases hisdir : t₀.isDirectory r.dir with
  | false => exact ⟨rfl, fun hbegun => nomatch hbegun _ rfl⟩
  | true =>
      simp only [Bool.not_true, Bool.false_eq_true, if_false]
      cases readSerial t₀ s.serialPath with
      | error why => exact ⟨rfl, fun hbegun => nomatch hbegun _ rfl⟩
      | ok serial =>
          simp only [writable_congr hw hdir hisdir]
          cases hplace : t₀.writable (recordPath r) with
          | error why => exact ⟨rfl, fun hbegun => nomatch hbegun _ rfl⟩
          | ok place =>
              obtain rfl := eq_recordPlace_of_writable hdir hplace
              have hrecord := (FileTree.follow_of_writable hplace).2
              have hne := FileTree.ne_nil_of_not_directory hrecord
              have hfull := hw.node_iff (fun _ => Node.noConfusion : ∀ c, Node.fullDevice ≠ .file c)
                (recordPlace home)
              simp only [hfull, outcomeAt_congr hw hdir hone hrecord]
              split
              · next hold =>
                  refine ⟨rfl, fun _ => ⟨fun q => ?_, hw.workingDirectory⟩⟩
                  by_cases hq : q = recordPlace home
                  · rw [hq, hold, hfull.mpr hold]
                  · exact hw.elsewhere q hq
              · exact ⟨rfl, fun _ => hw.alike_put hne _⟩

end Congruence

/-! ## Histories -/

/-- After any history of runs on the directory, a run gives what it would have given at first,
and leaves the same tree if it got past creating its record, and the tree that it found if it did
not. Nothing but the record has changed, and the run can be repeated. -/
theorem parse_after_history (hhistory : History home t₀ t) (hdir : t₀.follow r.dir = .ok home)
    (hone : t₀.Unambiguous r.dir) (hserial : t₀.follow s.serialPath ≠ .ok (recordPlace home))
    (hthrough : t₀.node? (recordPlace home) = none →
      ¬ t₀.LeadsThrough s.serialPath (recordPlace home)) :
    (parse s r t).1 = (parse s r t₀).1 ∧
    (Begun (parse s r t).1 → (parse s r t₀).2.Alike (parse s r t).2) ∧
    (¬ Begun (parse s r t).1 → (parse s r t).2 = t) ∧
    (∀ place, place ≠ recordPlace home → (parse s r t).2.node? place = t₀.node? place) ∧
    ∀ t', (parse s r t).2.Alike t' →
      (parse s r t').1 = (parse s r t).1 ∧
        (Begun (parse s r t).1 → (parse s r t).2.Alike (parse s r t').2) := by
  have hsame {t : FileTree} (h : History home t₀ t) :
      (parse s r t).1 = (parse s r t₀).1 ∧
        (Begun (parse s r t₀).1 → (parse s r t₀).2.Alike (parse s r t).2) := by
    have hw := h.writtenAt
    refine parse_congr hw hdir ?_ hone
    rw [readSerial, readSerial, hw.read hserial hthrough]
  obtain ⟨hresult, halike⟩ := hsame hhistory
  have hw := hhistory.writtenAt
  refine ⟨hresult, fun hbegun => halike (hresult ▸ hbegun), fun hbegun => ?_, fun place hne => ?_,
    fun t' hnext => ?_⟩
  · exact parse_of_not_begun hbegun
  · exact (hw.trans (writtenAt_parse (hw.follow_of_ok hdir))).elsewhere place hne
  · obtain ⟨hresult', halike'⟩ := hsame (.call s r hhistory hdir hnext)
    refine ⟨hresult'.trans hresult.symm, fun hbegun => ?_⟩
    rw [hresult] at hbegun
    exact (halike hbegun).symm.trans (halike' hbegun)

/-- A record of a lost entry does not show in the record of the next event. -/
theorem parse_after_trace :
    let anr := { plainRequest "x" with tag := "ANR" }
    let lost := { plainRequest "a" with tag := "LOST_DROPBOX_ANR" }
    let t₀ := traceFiles.put ["e", "crashfile"] (.file [])
    let t := (parse (.forRoot "/") lost t₀).2
    t₀.node? ["e", "crashfile"] = some (.file []) ∧ t.node? ["e", "crashfile"] ≠ some (.file []) ∧
    (parse (.forRoot "/") anr t).1 = (parse (.forRoot "/") anr t₀).1 ∧
    (parse (.forRoot "/") anr t₀).1.toOption.map (·.fields.get? (.data 2)) =
      some (some ("b.c" : Text)) ∧
    (parse (.forRoot "/") anr t₀).2.Alike (parse (.forRoot "/") anr t).2 := by
  intro anr lost t₀ t
  have hdir : traceFiles.follow "/e" = .ok ["e"] := by rfl
  have hlist : traceFiles.list "/e" = [("x_app_anr.txt" : Text)] := by rfl
  have hone : traceFiles.Unambiguous "/e" := by
    intro family pattern _ n hn m hm _ _
    rw [hlist] at hn hm
    exact (List.mem_singleton.mp hn).trans (List.mem_singleton.mp hm).symm
  have hrun : (parse (.forRoot "/") anr t₀).1.toOption.map (·.fields.get? (.data 2)) =
      some (some ("b.c" : Text)) := by
    decide +kernel
  obtain ⟨hresult, halike, _⟩ := parse_after_history (s := .forRoot "/") (r := anr) (t := t)
    (.call (.forRoot "/") lost (.start (.refl _)) (by rfl) (.refl _)) (by rfl)
    (hone.put hdir (by decide) _) (by decide) (fun h => absurd h (by decide))
  obtain ⟨o, ho, -⟩ := exists_ok_of_map hrun
  refine ⟨by rfl, by decide +kernel, hresult, hrun, halike fun why hwhy => ?_⟩
  rw [hresult, ho] at hwhy
  cases hwhy

/-- A path of the serial file that leads on from the record is another matter: it leads nowhere
before the first run and through a file after it. -/
theorem serial_behind_record :
    ∃ t, History ["e"] plainFiles t ∧ plainFiles.follow "/e" = .ok ["e"] ∧
      plainFiles.Unambiguous "/e" ∧
      plainFiles.follow "/e/crashfile/x" ≠ .ok (recordPlace ["e"]) ∧
      (parse { Settings.forRoot "/" with serialPath := "/e/crashfile/x" } (plainRequest "x") t).1 ≠
        (parse { Settings.forRoot "/" with serialPath := "/e/crashfile/x" } (plainRequest "x")
          plainFiles).1 := by
  refine ⟨_, .call (.forRoot "/") (plainRequest "x") (.start (.refl _)) (by rfl) (.refl _),
    by rfl, ?_, by decide, ?_⟩
  · have hlist : plainFiles.list "/e" = [] := by rfl
    intro family pattern _ n hn
    rw [hlist] at hn
    cases hn
  · have hafter : (parse { Settings.forRoot "/" with serialPath := "/e/crashfile/x" }
        (plainRequest "x") (parse (.forRoot "/") (plainRequest "x") plainFiles).2).1 =
        .error (.serial "/e/crashfile/x" .notDirectory) := by rfl
    have hbefore : (parse { Settings.forRoot "/" with serialPath := "/e/crashfile/x" }
        (plainRequest "x") plainFiles).1 = .error (.serial "/e/crashfile/x" .notFound) := by rfl
    rw [hafter, hbefore]
    exact fun h => nomatch h

end Engine

end CrashDigest
