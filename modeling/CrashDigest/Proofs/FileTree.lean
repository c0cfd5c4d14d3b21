import CrashDigest.Files.Locate
import CrashDigest.Proofs.Assoc

/-!
# Trees of files under a change

A path is followed from directory to directory, and the way never depends on
more than which places hold directories. So a path that leads somewhere leads
there after a change too, as long as the change takes no directory away; this
needs no look at where the change was made. A path that leads nowhere may fail
differently afterwards, but only if its way came by the place that changed.

Two trees are `Alike` if the same things stand at the same places. Everything
but the order of a listing is then the same in both.
-/

namespace CrashDigest

/-! ## Parts of a path -/

namespace Path

theorem partsFrom_append_slash (name p q : Text) :
    partsFrom name (p ++ '/' :: q) = partsFrom name p ++ parts q := by
  induction p generalizing name with
  | nil => rfl
  | cons c p ih =>
      rw [List.cons_append, partsFrom, partsFrom]
      split
      · rw [ih, List.cons_append]
      · exact ih _

theorem partsFrom_of_not_mem {q : Text} (hq : '/' ∉ q) (name : Text) :
    partsFrom name q = [name.reverse ++ q] := by
  induction q generalizing name with
  | nil => rw [partsFrom, List.append_nil]
  | cons c q ih =>
      obtain ⟨hne, hrest⟩ := List.ne_and_not_mem_of_not_mem_cons hq
      rw [partsFrom, if_neg (Ne.symm hne), ih hrest, List.reverse_cons, List.append_assoc,
        List.singleton_append]

theorem parts_append_slash {q : Text} (hq : '/' ∉ q) (p : Path) :
    parts (p ++ '/' :: q) = p.parts ++ [q] := by
  rw [parts, partsFrom_append_slash, parts, partsFrom_of_not_mem hq]
  rfl

theorem isAbsolute_append {p : Path} (hp : p ≠ []) (s : Text) :
    isAbsolute (p ++ s) = p.isAbsolute := by
  obtain ⟨c, p, rfl⟩ := List.exists_cons_of_ne_nil hp
  rfl

theorem join_of_name {p : Path} (hp : p ≠ []) {q : Text} (hq : '/' ∉ q) :
    p.join q = if p.getLast? = some '/' then p ++ q else p ++ '/' :: q := by
  have hrel : isAbsolute q = false :=
    decide_eq_false fun h => hq (List.mem_of_head? h)
  rw [join, hrel, Bool.false_or, if_neg (by simpa using hp)]

end Path

namespace FileTree

variable {t t' : FileTree} {place here : Place} {node : Node} {p : Path}

theorem node?_put (hplace : place ≠ []) (q : Place) :
    (t.put place node).node? q = if q = place then some node else t.node? q := by
  rw [node?, node?, show (t.put place node).nodes = Assoc.put place node t.nodes from rfl,
    Assoc.lookup_put]
  by_cases hq : q = []
  · rw [if_pos hq, if_neg fun h : q = place => hplace (h ▸ hq), if_pos hq]
  · rw [if_neg hq, if_neg hq]

theorem put_put (old : Node) : (t.put place old).put place node = t.put place node := by
  rw [put, put, Assoc.put_put]
  rfl

theorem eq_directory_of_step {name : Text} {next : Place} (h : t.step here name = .ok next) :
    t.node? here = some .directory := by
  unfold step at h
  split at h
  · cases h
  · assumption
  · cases h

theorem step_congr (h : t'.node? here = t.node? here) (name : Text) :
    t'.step here name = t.step here name := by
  unfold step
  rw [h]

/-! ## Following a path -/

/-- Where a path starts. -/
def start (t : FileTree) (p : Path) : Place :=
  if p.isAbsolute then [] else t.workingDirectory

theorem follow_of_ne_nil (hp : p ≠ []) : t.follow p = p.parts.foldlM t.step (t.start p) :=
  if_neg hp

theorem ne_nil_of_follow (h : t.follow p = .ok place) : p ≠ [] := by
  rintro rfl
  cases h

/-- A way that is there stays there if no directory is taken away. -/
theorem foldlM_step_of_directories {names : List Text}
    (hdirs : ∀ q, t.node? q = some .directory → t'.node? q = some .directory)
    (h : names.foldlM t.step here = .ok place) : names.foldlM t'.step here = .ok place := by
  induction names generalizing here with
  | nil => exact h
  | cons name names ih =>
      rw [List.foldlM_cons] at h ⊢
      cases hstep : t.step here name with
      | error e =>
          rw [hstep] at h
          cases h
      | ok next =>
          rw [hstep] at h
          have hhere := eq_directory_of_step hstep
          rw [step_congr ((hdirs _ hhere).trans hhere.symm), hstep]
          exact ih h

theorem follow_of_directories (hcwd : t'.workingDirectory = t.workingDirectory)
    (hdirs : ∀ q, t.node? q = some .directory → t'.node? q = some .directory)
    (h : t.follow p = .ok place) : t'.follow p = .ok place := by
  have hp := ne_nil_of_follow h
  rw [follow_of_ne_nil hp] at h ⊢
  rw [start, hcwd]
  exact foldlM_step_of_directories hdirs h

/-- Whether the way of a path comes by a place, or ends there. -/
def LeadsThrough (t : FileTree) (p : Path) (place : Place) : Prop :=
  ∃ front back, p.parts = front ++ back ∧ front.foldlM t.step (t.start p) = .ok place

theorem foldlM_step_of_not_through {names : List Text}
    (hsame : ∀ q, q ≠ place → t'.node? q = t.node? q)
    (h : ¬ ∃ front back, names = front ++ back ∧ front.foldlM t.step here = .ok place) :
    names.foldlM t'.step here = names.foldlM t.step here := by
  induction names generalizing here with
  | nil => rfl
  | cons name names ih =>
      have hhere : here ≠ place := fun heq => h ⟨[], name :: names, rfl, congrArg _ heq⟩
      rw [List.foldlM_cons, List.foldlM_cons, step_congr (hsame here hhere)]
      cases hstep : t.step here name with
      | error e => rfl
      | ok next =>
          refine ih ?_
          rintro ⟨front, back, rfl, hfront⟩
          refine h ⟨name :: front, back, rfl, ?_⟩
          rw [List.foldlM_cons, hstep]
          exact hfront

/-- A path whose way does not come by the place that changed leads where it led. -/
theorem follow_of_not_through (hcwd : t'.workingDirectory = t.workingDirectory)
    (hsame : ∀ q, q ≠ place → t'.node? q = t.node? q) (h : ¬ t.LeadsThrough p place) :
    t'.follow p = t.follow p := by
  by_cases hp : p = []
  · subst hp
    rfl
  · rw [follow_of_ne_nil hp, follow_of_ne_nil hp, start, hcwd]
    exact foldlM_step_of_not_through hsame h

/-! ## A name in a directory -/

theorem foldlM_step_concat {names : List Text} {name : Text} {next : Place}
    (h : names.foldlM t.step here = .ok next) :
    (names ++ [name]).foldlM t.step here = t.step next name := by
  rw [List.foldlM_append, h]
  show List.foldlM t.step next [name] = _
  rw [List.foldlM_cons]
  cases t.step next name <;> rfl

/-- What a path and a name in it lead to is a step from where the path leads. -/
theorem follow_join {name : Text} (h : t.follow p = .ok here) (hname : '/' ∉ name) :
    t.follow (p.join name) = t.step here name := by
  have hp := ne_nil_of_follow h
  have hstart (s : Text) : t.start (p ++ s) = t.start p := by
    rw [start, Path.isAbsolute_append hp, start]
  rw [follow_of_ne_nil hp] at h
  rw [Path.join_of_name hp hname]
  split
  · next hslash =>
      -- The path ends in a slash: its last part is empty, and stepping by it stays.
      obtain ⟨d, rfl⟩ := List.getLast?_eq_some_iff.mp hslash
      rw [Path.parts_append_slash List.not_mem_nil] at h
      rw [follow_of_ne_nil (by simp), hstart, List.append_assoc, List.singleton_append,
        Path.parts_append_slash hname]
      cases hd : (Path.parts d).foldlM t.step (t.start (d ++ ['/'])) with
      | error e =>
          rw [List.foldlM_append, hd] at h
          cases h
      | ok next =>
          rw [foldlM_step_concat hd] at h
          have hnext : next = here := by
            rw [step, eq_directory_of_step h, if_pos (Or.inl rfl)] at h
            exact Except.ok.inj h
          rw [foldlM_step_concat hd, hnext]
  · rw [follow_of_ne_nil (by simp), hstart, Path.parts_append_slash hname]
    exact foldlM_step_concat h

theorem step_name {name : Text} (hdir : t.node? here = some .directory)
    (hname : name ∉ ([[], ['.'], ['.', '.']] : List Text)) :
    t.step here name = .ok (here ++ [name]) := by
  simp only [List.mem_cons, List.not_mem_nil, or_false, not_or] at hname
  rw [step, hdir]
  simp only [hname, or_self, if_false]

/-- A file is written in a directory unless a directory stands in its stead. -/
theorem writable_join {name : Text} (h : t.follow p = .ok here) (hslash : '/' ∉ name)
    (hname : name ∉ ([[], ['.'], ['.', '.']] : List Text))
    (hdir : t.node? here = some .directory) :
    t.writable (p.join name) =
      if t.node? (here ++ [name]) = some .directory then .error .isDirectory
      else .ok (here ++ [name]) := by
  rw [writable, follow_join h hslash, step_name hdir hname]
  simp only [List.dropLast_concat, hdir]
  split
  · next hnode => rw [if_pos hnode]
  · next node hnode hsome => rw [if_neg fun h => hnode (Option.some.inj (hsome.symm.trans h))]
  · next hnone => rw [if_neg (by simp [hnone])]

theorem isDirectory_iff (h : t.follow p = .ok here) :
    t.isDirectory p = true ↔ t.node? here = some .directory := by
  simp only [isDirectory, open?, h]
  cases hnode : t.node? here with
  | none => simp
  | some node => cases node <;> simp

/-! ## Writing a file -/

/-- A file is written where its path leads, and not over a directory. -/
theorem follow_of_writable (h : t.writable p = .ok place) :
    t.follow p = .ok place ∧ t.node? place ≠ some .directory := by
  unfold writable at h
  split at h
  · cases h
  · next q hfollow =>
      split at h
      · cases h
      · next node hnode hsome =>
          cases h
          exact ⟨hfollow, fun h => hnode (Option.some.inj (hsome.symm.trans h))⟩
      · next hnone =>
          split at h
          · cases h
            exact ⟨hfollow, by simp [hnone]⟩
          · cases h
          · cases h

theorem ne_nil_of_not_directory (h : t.node? place ≠ some .directory) : place ≠ [] := by
  rintro rfl
  exact h rfl

/-- A change in the place of a file takes no directory away. -/
theorem node?_put_of_directory (h : t.node? place ≠ some .directory) (q : Place)
    (hq : t.node? q = some .directory) : (t.put place node).node? q = some .directory := by
  rw [node?_put (ne_nil_of_not_directory h), if_neg fun heq : q = place => h (heq ▸ hq), hq]

/-- What was written is there. -/
theorem open?_put_of_writable (h : t.writable p = .ok place) :
    (t.put place node).open? p = .ok node := by
  obtain ⟨hfollow, hnode⟩ := follow_of_writable h
  have hplace := ne_nil_of_not_directory hnode
  have hstill : (t.put place node).follow p = .ok place :=
    follow_of_directories (by rfl) (node?_put_of_directory hnode) hfollow
  rw [open?, hstill]
  simp only [node?_put hplace, if_true]

theorem create_of_error {why : FileError} (h : t.writable p = .error why) :
    t.create p = .error why := by
  rw [create, h]

theorem create_of_full (h : t.writable p = .ok place)
    (hfull : t.node? place = some .fullDevice) : t.create p = .ok (place, t) := by
  simp only [create, h, hfull]

theorem create_of_room (h : t.writable p = .ok place)
    (hroom : t.node? place ≠ some .fullDevice) :
    t.create p = .ok (place, t.put place (.file [])) := by
  simp only [create, h]

theorem fill_of_full {content : Bytes} (hfull : t.node? place = some .fullDevice)
    (hcontent : content ≠ []) : t.fill place content = .error .noSpace := by
  simp only [fill, hfull, if_neg hcontent]

/-- A file that was just made empty takes any content. -/
theorem fill_put (hplace : place ≠ []) (content : Bytes) :
    (t.put place (.file [])).fill place content = .ok (t.put place (.file content)) := by
  simp only [fill, node?_put hplace, if_true, put_put]

/-! ## Trees that differ in their listings at most -/

/-- Whether the same things stand at the same places. -/
structure Alike (t t' : FileTree) : Prop where
  node : ∀ place, t'.node? place = t.node? place
  workingDirectory : t'.workingDirectory = t.workingDirectory

namespace Alike

theorem refl (t : FileTree) : t.Alike t := ⟨fun _ => rfl, rfl⟩

theorem symm (h : t.Alike t') : t'.Alike t :=
  ⟨fun place => (h.node place).symm, h.workingDirectory.symm⟩

theorem trans {t'' : FileTree} (h : t.Alike t') (h' : t'.Alike t'') : t.Alike t'' :=
  ⟨fun place => (h'.node place).trans (h.node place),
    h'.workingDirectory.trans h.workingDirectory⟩

theorem step (h : t.Alike t') : t'.step = t.step := by
  funext here name
  exact step_congr (h.node here) name

theorem follow (h : t.Alike t') (p : Path) : t'.follow p = t.follow p := by
  rw [FileTree.follow, FileTree.follow, h.step, h.workingDirectory]

theorem read (h : t.Alike t') (p : Path) : t'.read p = t.read p := by
  have hopen : t'.open? p = t.open? p := by
    simp only [FileTree.open?, h.follow, h.node]
  rw [FileTree.read, FileTree.read, hopen]

end Alike

theorem isSome_node? (hplace : place ≠ []) :
    (t.node? place).isSome ↔ ∃ node, (place, node) ∈ t.nodes := by
  rw [node?, if_neg hplace, List.lookup_isSome_iff]
  constructor
  · rintro ⟨⟨q, node⟩, hmem, heq⟩
    obtain rfl := beq_iff_eq.mp heq
    exact ⟨node, hmem⟩
  · rintro ⟨node, hmem⟩
    exact ⟨(place, node), hmem, beq_self_eq_true place⟩

theorem nameWithin_eq_some {directory : Place} {name : Text} :
    nameWithin directory place = some name ↔ place = directory ++ [name] := by
  unfold nameWithin
  constructor
  · intro h
    split at h
    · next hdir =>
        subst hdir
        obtain ⟨front, rfl⟩ := List.getLast?_eq_some_iff.mp h
        rw [List.dropLast_concat]
    · cases h
  · rintro rfl
    rw [List.dropLast_concat, if_pos rfl, List.getLast?_concat]

/-- A directory lists the names under which something stands in it. -/
theorem mem_list {name : Text} (h : t.follow p = .ok here) :
    name ∈ t.list p ↔ t.node? here = some .directory ∧ (t.node? (here ++ [name])).isSome := by
  rw [list, h, isSome_node? (by simp)]
  simp only []
  split
  · next hdir =>
      simp only [List.mem_filterMap, nameWithin_eq_some, hdir, true_and]
      constructor
      · rintro ⟨⟨_, node⟩, hmem, rfl⟩
        exact ⟨node, hmem⟩
      · rintro ⟨node, hmem⟩
        exact ⟨(here ++ [name], node), hmem, rfl⟩
  · next hdir => simp [hdir]

end FileTree

end CrashDigest
