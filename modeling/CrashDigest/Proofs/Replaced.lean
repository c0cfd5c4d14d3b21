import CrashDigest.Proofs.Surroundings

/-!
# One file with other content

A run reads the files of its event for their lines. So a file can be given
other content without the run noticing: content that comes to the same lines,
or any content at all if the file's name is none that is looked for.

That a file stands in the place already matters twice. No path leads elsewhere
afterwards, since a file with other content is still a file; and no listing
changes, since the file keeps its place in it. The second is also why the two
writes of a run with a file replaced can be made in either order
(`FileTree.put_comm`), from which the whole tree that is left follows, and not
only the record in it (`parse_put`).
-/

namespace CrashDigest

/-! ## The name at the end of a path -/

namespace Path

variable {p : Path} {name : Text}

theorem fileName?_of_parts {front : List Text} (hparts : p.parts = front ++ [name])
    (hname : name ∉ ([[], ['.'], ['.', '.']] : List Text)) : p.fileName? = some name := by
  simp only [List.mem_cons, List.not_mem_nil, or_false, not_or] at hname
  obtain ⟨hempty, hdot, hup⟩ := hname
  rw [fileName?, hparts, List.filter_append, List.filter_cons_of_pos (by simp [hempty, hdot]),
    List.filter_nil, List.getLast?_concat]
  exact if_neg hup

theorem fileName?_join (hp : p ≠ []) (hslash : '/' ∉ name)
    (hname : name ∉ ([[], ['.'], ['.', '.']] : List Text)) :
    (p.join name).fileName? = some name := by
  rw [join_of_name hp hslash]
  split
  · next hend =>
      obtain ⟨d, rfl⟩ := List.getLast?_eq_some_iff.mp hend
      rw [List.append_assoc, List.singleton_append]
      exact fileName?_of_parts (parts_append_slash hslash d) hname
  · exact fileName?_of_parts (parts_append_slash hslash p) hname

/-- The extension of a file is that of its name. -/
theorem hasGzipExtension_join (hp : p ≠ []) (hslash : '/' ∉ name)
    (hname : name ∉ ([[], ['.'], ['.', '.']] : List Text)) :
    (p.join name).hasGzipExtension = hasGzipExtension name := by
  have hparts : parts name = [] ++ [name] := partsFrom_of_not_mem hslash []
  rw [hasGzipExtension, hasGzipExtension, extension?, extension?, fileName?_join hp hslash hname,
    fileName?_of_parts hparts hname]

end Path

/-! ## A file in a tree -/

namespace FileTree

variable {t : FileTree} {place other : Place} {old new : Bytes} {p : Path}

theorem mem_places (hplace : place ≠ []) {node : Node} (h : t.node? place = some node) :
    place ∈ t.nodes.map Prod.fst := by
  obtain ⟨node', hmem⟩ := (isSome_node? hplace).mp (Option.isSome_of_eq_some h)
  exact List.mem_map.mpr ⟨_, hmem, rfl⟩

theorem put_comm {node node' : Node} (hne : place ≠ other) (h : place ∈ t.nodes.map Prod.fst) :
    (t.put other node').put place node = (t.put place node).put other node' := by
  rw [put, put, put, put, Assoc.put_comm hne h]

section Replaced

variable (h : t.node? place = some (.file old))

include h

theorem ne_nil_of_file : place ≠ [] :=
  ne_nil_of_not_directory (by rw [h]; exact nofun)

theorem ne_none_of_file : t.node? place ≠ none := by
  rw [h]
  exact nofun

theorem writtenAt_put (new : Bytes) : WrittenAt place t (t.put place (.file new)) :=
  .of_put (by rw [h]; exact nofun) (by rw [h]; exact nofun)

theorem follow_put (new : Bytes) (p : Path) : (t.put place (.file new)).follow p = t.follow p :=
  (writtenAt_put h new).follow fun hnone => absurd hnone (ne_none_of_file h)

theorem list_put (new : Bytes) (p : Path) : (t.put place (.file new)).list p = t.list p := by
  have hkeys : (t.put place (.file new)).nodes.map Prod.fst = t.nodes.map Prod.fst := by
    rw [put, Assoc.keys_put, if_pos (mem_places (ne_nil_of_file h) h)]
  rw [list, list, follow_put h]
  cases t.follow p with
  | error e => rfl
  | ok here =>
      have hdir := (writtenAt_put h new).directory_iff here
      have hnames := congrArg (List.filterMap (nameWithin here)) hkeys
      rw [List.filterMap_map, List.filterMap_map] at hnames
      simp only [hdir]
      split
      · exact hnames
      · rfl

theorem read_put_of_ne (new : Bytes) (hp : t.follow p ≠ .ok place) :
    (t.put place (.file new)).read p = t.read p :=
  (writtenAt_put h new).read hp fun hnone => absurd hnone (ne_none_of_file h)

theorem open?_put_of_ne (new : Bytes) (hp : t.follow p ≠ .ok place) :
    (t.put place (.file new)).open? p = t.open? p :=
  (writtenAt_put h new).open? hp fun hnone => absurd hnone (ne_none_of_file h)

theorem read_of_follow (hp : t.follow p = .ok place) : t.read p = .ok old := by
  simp only [read, open?, hp, h]

end Replaced

end FileTree

/-- A file that can be read is an artifact with its lines. -/
theorem Artifact.stream_of_read {files : FileTree} {path : Path} {data : Bytes}
    (h : files.read path = .ok data) : stream files path = .ok (ofBytes path data).lines := by
  rw [stream, open?, h]
  rfl

namespace Engine

/-- Whether a file other than the record stands under a name in the directory of an event. The names
in a directory hold no slashes. -/
structure Holds (r : Request) (t : FileTree) (home : Place) (name : Text) (content : Bytes) :
    Prop where
  follow : t.follow r.dir = .ok home
  directory : t.node? home = some .directory
  file : t.node? (home ++ [name]) = some (.file content)
  names : ∀ n ∈ t.list r.dir, '/' ∉ n
  ne_record : name ≠ Record.fileName

variable {s : Settings} {r : Request} {t : FileTree} {home : Place} {name : Text}
  {old new : Bytes}

/-- No other file of the directory is what the record's path leads to. -/
theorem open?_recordPath_put (hdir : t.follow r.dir = .ok home)
    (hhome : t.node? home = some .directory) (hfile : t.node? (home ++ [name]) = some (.file old))
    (hname : name ≠ Record.fileName) (new : Bytes) :
    (t.put (home ++ [name]) (.file new)).open? (recordPath r) = t.open? (recordPath r) := by
  refine FileTree.open?_put_of_ne hfile new ?_
  rw [recordPath, FileTree.follow_join hdir (by decide), FileTree.step_name hhome (by decide)]
  simpa using Ne.symm hname

namespace Holds

variable (h : Holds r t home name old)

include h

theorem listed : name ∈ t.list r.dir :=
  (FileTree.mem_list h.follow).mpr ⟨h.directory, Option.isSome_of_eq_some h.file⟩

theorem ne_recordPlace : home ++ [name] ≠ recordPlace home := by
  simpa [recordPlace] using h.ne_record

/-- The file is still there once the record was begun. -/
theorem begin (hrecord : t.node? (recordPlace home) ≠ some .directory) (content : Bytes) :
    Holds r (t.put (recordPlace home) (.file content)) home name old where
  follow := FileTree.follow_put_record h.follow hrecord _
  directory := FileTree.node?_put_of_directory hrecord home h.directory
  file := by
    rw [FileTree.node?_put (FileTree.ne_nil_of_not_directory hrecord), if_neg h.ne_recordPlace,
      h.file]
  names n hn := by
    by_cases hn_record : n = Record.fileName
    · rw [hn_record]
      decide
    · exact h.names n ((FileTree.mem_list_put_record h.follow hrecord _ hn_record).mp hn)
  ne_record := h.ne_record

theorem follow_listed {n : Text} (hlisted : n ∈ t.list r.dir)
    (hstep : n ∉ ([[], ['.'], ['.', '.']] : List Text)) :
    t.follow (r.dir.join n) = .ok (home ++ [n]) := by
  rw [FileTree.follow_join h.follow (h.names n hlisted), FileTree.step_name h.directory hstep]

/-- An extraction does not notice that a file has other content, if the content has the same lines
or the file is none that is looked for. -/
theorem agreeOn (hlines : ∀ pattern ∈ Tag.artifacts r.tag, pattern.isIn name = true →
      (Artifact.ofBytes (r.dir.join name) new).lines =
        (Artifact.ofBytes (r.dir.join name) old).lines) (tag : Text) (legacyFabric : Bool) :
    Event.AgreeOn (Tag.artifacts r.tag) ⟨t, r.dir, tag, legacyFabric⟩
      ⟨t.put (home ++ [name]) (.file new), r.dir, tag, legacyFabric⟩ := by
  refine ⟨rfl, rfl, rfl, fun pattern _ => ?_, fun pattern hpattern path hpath => ?_⟩
  · rw [FileTree.find?, FileTree.find?, FileTree.list_put h.file]
  · obtain ⟨n, hfind, rfl⟩ := Option.map_eq_some_iff.mp hpath
    have hn : pattern.isIn n = true := List.find?_some hfind
    have hfollow := h.follow_listed (List.mem_of_find?_eq_some hfind)
      (Tag.ne_step_of_isIn hpattern hn)
    by_cases heq : n = name
    · subst heq
      have hnew : (t.put (home ++ [n]) (.file new)).node? (home ++ [n]) = some (.file new) := by
        rw [FileTree.node?_put (FileTree.ne_nil_of_file h.file), if_pos rfl]
      have hstill := (FileTree.follow_put h.file new _).trans hfollow
      rw [Artifact.stream_of_read (FileTree.read_of_follow hnew hstill),
        Artifact.stream_of_read (FileTree.read_of_follow h.file hfollow),
        hlines pattern hpattern hn]
    · refine Artifact.stream_congr (FileTree.read_put_of_ne h.file new ?_)
      rw [hfollow]
      simpa using heq

theorem outcomeAt_put (hrecord : t.node? (recordPlace home) ≠ some .directory)
    (hlines : ∀ pattern ∈ Tag.artifacts r.tag, pattern.isIn name = true →
      (Artifact.ofBytes (r.dir.join name) new).lines =
        (Artifact.ofBytes (r.dir.join name) old).lines) :
    outcomeAt s r (t.put (home ++ [name]) (.file new)) (recordPlace home) =
      outcomeAt s r t (recordPlace home) := by
  have hplaces := FileTree.mem_places (FileTree.ne_nil_of_file h.file) h.file
  have hagree := (h.begin hrecord []).agreeOn hlines
  simp only [outcomeAt]
  rw [← FileTree.put_comm h.ne_recordPlace hplaces, extraction_of_agreeOn (hagree _)]

theorem prepare_put (hserial : t.follow s.serialPath ≠ .ok (home ++ [name])) :
    prepare s r (t.put (home ++ [name]) (.file new)) = prepare s r t := by
  have hw := FileTree.writtenAt_put h.file new
  have hisdir : t.isDirectory r.dir = true := (FileTree.isDirectory_iff h.follow).mpr h.directory
  have hfull := hw.node_iff (fun _ => Node.noConfusion : ∀ c, Node.fullDevice ≠ .file c)
  rw [prepare, prepare, isDirectory_congr hw h.follow, writable_congr hw h.follow hisdir,
    readSerial, readSerial, FileTree.read_put_of_ne h.file new hserial]
  simp only [hfull]

/-- The run gives the same, and leaves the same tree but for the content of the file. -/
theorem parse_put (hserial : t.follow s.serialPath ≠ .ok (home ++ [name]))
    (hlines : ∀ pattern ∈ Tag.artifacts r.tag, pattern.isIn name = true →
      (Artifact.ofBytes (r.dir.join name) new).lines =
        (Artifact.ofBytes (r.dir.join name) old).lines) :
    parse s r (t.put (home ++ [name]) (.file new)) =
      ((parse s r t).1, (parse s r t).2.put (home ++ [name]) (.file new)) := by
  rw [parse_eq_prepare, parse_eq_prepare, h.prepare_put hserial]
  cases hprepare : prepare s r t with
  | error why => rfl
  | ok found =>
      obtain ⟨serial, place⟩ := found
      obtain ⟨hready, _⟩ := prepare_eq_ok.mp hprepare
      obtain rfl := eq_recordPlace_of_writable h.follow hready.place
      have hrecord := (FileTree.follow_of_writable hready.place).2
      have hplaces := FileTree.mem_places (FileTree.ne_nil_of_file h.file) h.file
      simp only [h.outcomeAt_put hrecord hlines, FileTree.put_comm h.ne_recordPlace hplaces]

/-- Neither the result nor the record shows what content the file has. -/
theorem record_put (hserial : t.follow s.serialPath ≠ .ok (home ++ [name]))
    (hlines : ∀ pattern ∈ Tag.artifacts r.tag, pattern.isIn name = true →
      (Artifact.ofBytes (r.dir.join name) new).lines =
        (Artifact.ofBytes (r.dir.join name) old).lines) :
    (parse s r (t.put (home ++ [name]) (.file new))).1 = (parse s r t).1 ∧
      (parse s r (t.put (home ++ [name]) (.file new))).2.open? (recordPath r) =
        (parse s r t).2.open? (recordPath r) := by
  rw [h.parse_put hserial hlines]
  refine ⟨rfl, ?_⟩
  -- A run writes in the place of the record alone, so the file is still there.
  have hw := writtenAt_parse (s := s) h.follow
  exact open?_recordPath_put (hw.follow_of_ok h.follow)
    ((hw.directory_iff home).mpr h.directory)
    ((hw.elsewhere _ h.ne_recordPlace).trans h.file) h.ne_record new

end Holds

end Engine

end CrashDigest
