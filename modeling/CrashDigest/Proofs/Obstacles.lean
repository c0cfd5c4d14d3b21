import CrashDigest.Proofs.Buffering
import CrashDigest.Proofs.History
import CrashDigest.Proofs.Utf8Codec

/-!
# What decides a run

Five things can stand in the way of a run: there is no directory, the serial
number cannot be read, the record cannot be created, its file takes no data, or
an artifact that has to be readable is not. Several of them can be there at
once, and a run reports the one that it comes to first. `Obstacle.Present` says
of each by itself when it is there, in terms of the files alone, and
`first_obstacle_decides` that the error of a run names the first one present,
and that a run succeeds if none is.

The order matters most at its end. The record is finished before anybody looks
at whether the artifacts could be read, so a full device hides an unreadable
artifact, and an unreadable artifact costs the record its fields but nothing
else.
-/

namespace CrashDigest

/-- What can stand in the way of a run. -/
inductive Obstacle where
  /-- There is no directory for the event. -/
  | directory
  /-- The serial number cannot be read. -/
  | serial
  /-- The record cannot be created. -/
  | record
  /-- The file of the record takes no data. -/
  | room
  /-- An artifact cannot be read, and the run is to fail for it. -/
  | artifact
  deriving DecidableEq, Repr

/-- The obstacle that an error reports. -/
def ParseError.obstacle : ParseError → Obstacle
  | .invalidDirectory _ => .directory
  | .serial .. => .serial
  | .recordOpen .. => .record
  | .recordWrite .. => .room
  | .extraction .. => .artifact

/-- Whether a file can be created but takes no data then. -/
def FileTree.Refuses (t : FileTree) (p : Path) : Prop :=
  ∃ place files, t.create p = .ok (place, files) ∧
    ∀ content, content ≠ [] → ∃ why, files.fill place content = .error why

/-- Whether the artifacts of an event cannot be read, with its record just created. -/
def Engine.Unreadable (s : Settings) (r : Request) (t : FileTree) : Prop :=
  ∃ place files, t.create (recordPath r) = .ok (place, files) ∧
    ∃ why, extraction s r (Tag.normalize r.tag).tag files = .error why

namespace Obstacle

/-- How many obstacles come before this one. -/
def rank : Obstacle → Nat
  | .directory => 0
  | .serial => 1
  | .record => 2
  | .room => 3
  | .artifact => 4

/-- Whether an obstacle is there, whatever else is. -/
def Present (s : Settings) (r : Request) (t : FileTree) : Obstacle → Prop
  | .directory => t.isDirectory r.dir = false
  | .serial => ∀ data, t.read s.serialPath = .ok data →
      ∀ line, data.takeWhile (· ≠ 0x0A) ≠ Utf8.encode line
  | .record => ∃ why, t.create (Engine.recordPath r) = .error why
  | .room => t.Refuses (Engine.recordPath r)
  | .artifact => s.strictness = .strict ∧ Engine.Unreadable s r t

/-- Whether none of the first `n` obstacles is there. -/
def Clear (s : Settings) (r : Request) (t : FileTree) (n : Nat) : Prop :=
  ∀ o : Obstacle, o.rank < n → ¬ o.Present s r t

variable {s : Settings} {r : Request} {t : FileTree} {o o' : Obstacle}

theorem eq_of_rank_eq (h : o.rank = o'.rank) : o = o' := by
  cases o <;> cases o' <;> first | rfl | cases h

theorem rank_lt (o : Obstacle) : o.rank < 5 := by
  cases o <;> decide

theorem Clear.zero : Clear s r t 0 :=
  fun o h => absurd h (Nat.not_lt_zero o.rank)

theorem Clear.succ (h : Clear s r t o.rank) (ho : ¬ o.Present s r t) :
    Clear s r t (o.rank + 1) := by
  intro o' hlt
  rcases Nat.lt_succ_iff_lt_or_eq.mp hlt with hlt | heq
  · exact h o' hlt
  · rw [eq_of_rank_eq heq]
    exact ho

/-- At most one obstacle is the first. -/
theorem eq_of_first (h : o.Present s r t ∧ Clear s r t o.rank)
    (h' : o'.Present s r t ∧ Clear s r t o'.rank) : o = o' := by
  rcases Nat.lt_trichotomy o.rank o'.rank with hlt | heq | hgt
  · exact absurd h.1 (h'.2 o hlt)
  · exact eq_of_rank_eq heq
  · exact absurd h'.1 (h.2 o' hgt)

end Obstacle

namespace Engine

open Obstacle

variable {s : Settings} {r : Request} {t : FileTree} {place : Place}

/-! ## Each obstacle by itself -/

theorem present_serial_iff :
    Present s r t .serial ↔ ∃ why, readSerial t s.serialPath = .error why := by
  rw [Present, readSerial]
  cases t.read s.serialPath with
  | error why =>
      refine iff_of_true (fun _ hdata => ?_) ⟨why, rfl⟩
      cases hdata
  | ok data =>
      simp only []
      cases hline : Utf8.decode? (data.takeWhile (· ≠ 0x0A)) with
      | some line =>
          refine iff_of_false (fun h => ?_) ?_
          · exact h data rfl line (Utf8.decode?_eq_some_iff.mp hline)
          · rintro ⟨_, ⟨⟩⟩
      | none =>
          refine iff_of_true (fun _ hdata line hline' => ?_) ⟨_, rfl⟩
          cases hdata
          rw [Utf8.decode?_eq_some_iff.mpr hline'] at hline
          cases hline

theorem not_present_record (h : t.writable (recordPath r) = .ok place) :
    ¬ Present s r t .record := by
  rintro ⟨why, hwhy⟩
  by_cases hfull : t.node? place = some .fullDevice
  · rw [FileTree.create_of_full h hfull] at hwhy
    cases hwhy
  · rw [FileTree.create_of_room h hfull] at hwhy
    cases hwhy

theorem present_room (h : t.writable (recordPath r) = .ok place)
    (hfull : t.node? place = some .fullDevice) : Present s r t .room :=
  ⟨place, t, FileTree.create_of_full h hfull,
    fun _ hcontent => ⟨.noSpace, FileTree.fill_of_full hfull hcontent⟩⟩

theorem not_present_room (h : t.writable (recordPath r) = .ok place)
    (hroom : t.node? place ≠ some .fullDevice) : ¬ Present s r t .room := by
  rintro ⟨place', files, hcreate, hrefuses⟩
  rw [FileTree.create_of_room h hroom] at hcreate
  cases hcreate
  have hplace := FileTree.ne_nil_of_not_directory (FileTree.follow_of_writable h).2
  obtain ⟨why, hwhy⟩ := hrefuses [0x0A] (List.cons_ne_nil _ _)
  rw [FileTree.fill_put hplace] at hwhy
  cases hwhy

/-- The artifacts are read with an empty record in its place. -/
theorem unreadable_iff (h : t.writable (recordPath r) = .ok place)
    (hroom : t.node? place ≠ some .fullDevice) :
    Unreadable s r t ↔ ∃ why, (outcomeAt s r t place).extractionError = some why := by
  have hcreate := FileTree.create_of_room h hroom
  have herror : (∃ why, (outcomeAt s r t place).extractionError = some why) ↔
      ∃ why, extraction s r (Tag.normalize r.tag).tag (t.put place (.file [])) = .error why := by
    simp only [outcomeAt, outcome]
    cases extraction s r (Tag.normalize r.tag).tag (t.put place (.file [])) <;> simp
  rw [herror]
  constructor
  · rintro ⟨place', files, hcreate', hwhy⟩
    rw [hcreate] at hcreate'
    cases hcreate'
    exact hwhy
  · exact fun hwhy => ⟨_, _, hcreate, hwhy⟩

/-! ## The first obstacle -/

theorem first_or_none (s : Settings) (r : Request) (t : FileTree) :
    (∃ why, (parse s r t).1 = .error why ∧ Present s r t why.obstacle ∧
      Clear s r t why.obstacle.rank) ∨
    (∃ o, (parse s r t).1 = .ok o) ∧ Clear s r t 5 := by
  rw [parse_eq]
  have hclear : Clear s r t (rank .directory) := .zero
  cases hdir : t.isDirectory r.dir with
  | false => exact Or.inl ⟨_, rfl, hdir, hclear⟩
  | true =>
  replace hclear : Clear s r t (rank .serial) := hclear.succ (by simp [Present, hdir])
  simp only [Bool.not_true, Bool.false_eq_true, if_false]
  cases hserial : readSerial t s.serialPath with
  | error why => exact Or.inl ⟨_, rfl, present_serial_iff.mpr ⟨why, hserial⟩, hclear⟩
  | ok serial =>
  replace hclear : Clear s r t (rank .record) :=
    hclear.succ (by simp [present_serial_iff, hserial])
  cases hplace : t.writable (recordPath r) with
  | error why => exact Or.inl ⟨_, rfl, ⟨why, FileTree.create_of_error hplace⟩, hclear⟩
  | ok place =>
  replace hclear : Clear s r t (rank .room) := hclear.succ (not_present_record hplace)
  simp only []
  split
  · next hfull => exact Or.inl ⟨_, rfl, present_room hplace hfull, hclear⟩
  · next hroom =>
      replace hclear : Clear s r t (rank .artifact) := hclear.succ (not_present_room hplace hroom)
      have hunreadable := unreadable_iff (s := s) hplace hroom
      rcases judge_cases s.strictness (outcomeAt s r t place) with
        ⟨hok, hleft⟩ | ⟨why, hstrict, hwhy, herror⟩
      · refine Or.inr ⟨⟨_, hok⟩, hclear.succ ?_⟩
        rintro ⟨hstrict, hpresent⟩
        obtain ⟨why, hwhy⟩ := hunreadable.mp hpresent
        rcases hleft with hlenient | hnone
        · rw [hlenient] at hstrict
          cases hstrict
        · rw [hnone] at hwhy
          cases hwhy
      · exact Or.inl ⟨_, herror, ⟨hstrict, hunreadable.mpr ⟨why, hwhy⟩⟩, hclear⟩

/-! ## What is left behind -/

/-- The line that an old tag puts behind those for the event. -/
def markLines (raw : Text) : List (Text × Text) :=
  if raw ∈ Tag.aliases.map Prod.fst then [("DATA0", "full dropbox")] else []

/-- The lines of a record whose artifacts gave no fields. -/
def bareLines (r : Request) (serial : Text) (critical : Bool) : List (Text × Text) :=
  Record.headerLines (recordHeader r serial) ++ (markLines r.tag ++ Record.outcomeLines critical)

theorem fullDropbox_normalize (raw : Text) :
    (Tag.normalize raw).fullDropbox = true ↔ raw ∈ Tag.aliases.map Prod.fst := by
  rw [Tag.normalize]
  cases h : Tag.aliases.lookup raw with
  | some tag =>
      obtain ⟨front, back, hsplit, _⟩ := List.lookup_eq_some_iff.mp h
      exact iff_of_true rfl (by simp [hsplit])
  | none =>
      refine iff_of_false Bool.false_ne_true (fun hmem => ?_)
      obtain ⟨e, he, rfl⟩ := List.mem_map.mp hmem
      exact absurd (List.lookup_eq_none_iff.mp h e he) (by simp)

theorem recordText_of_bare {why : ArtifactError} (serial : Text)
    (h : (outcomeAt s r t place).extractionError = some why) :
    recordText r serial (outcomeAt s r t place) =
      Record.whole (bareLines r serial
        (Tag.isCritical (Tag.normalize r.tag).tag s.criticalTags)) := by
  obtain ⟨hfields, hcritical⟩ : (outcomeAt s r t place).fields = .empty ∧
      (outcomeAt s r t place).critical =
        Tag.isCritical (Tag.normalize r.tag).tag s.criticalTags := bare_of_extractionError h
  have hlost : (outcomeAt s r t place).fullDropbox = (Tag.normalize r.tag).fullDropbox := rfl
  have hmark : Record.fieldLines (shown (outcomeAt s r t place)) = markLines r.tag := by
    rw [shown, hfields, hlost, markLines]
    simp only [← fullDropbox_normalize]
    cases (Tag.normalize r.tag).fullDropbox <;> rfl
  rw [recordText, Record.pairs, hmark, hcritical, bareLines]

theorem node?_parse (h : t.follow (recordPath r) ≠ .ok place) :
    (parse s r t).2.node? place = t.node? place := by
  have hended := ended s r t
  generalize parse s r t = result at hended
  cases hended with
  | refused _ => rfl
  | full _ _ => rfl
  | @written _ target hready _ =>
      obtain ⟨hfollow, hnode⟩ := FileTree.follow_of_writable hready.place
      have hne : place ≠ target := fun heq => h (heq ▸ hfollow)
      rw [FileTree.node?_put (FileTree.ne_nil_of_not_directory hnode), if_neg hne]

/-- An obstacle before the record keeps a run from touching anything. -/
theorem parse_of_early {why : ParseError} (h : (parse s r t).1 = .error why)
    (hearly : why.obstacle.rank < 3) : (parse s r t).2 = t := by
  refine parse_of_not_begun fun hbegun => ?_
  have hwritten := hbegun why h
  cases why with
  | invalidDirectory _ => cases hwritten
  | serial _ _ => cases hwritten
  | recordOpen _ _ => cases hwritten
  | recordWrite _ _ => simp [ParseError.obstacle, Obstacle.rank] at hearly
  | extraction _ _ => simp [ParseError.obstacle, Obstacle.rank] at hearly

theorem open?_of_unreadable (h : (∃ tag why, (parse s r t).1 = .error (.extraction tag why)) ∨
      ∃ o why, (parse s r t).1 = .ok o ∧ o.extractionError = some why) :
    ∃ serial, readSerial t s.serialPath = .ok serial ∧
      (parse s r t).2.open? (recordPath r) = .ok (.file (Utf8.encode (Record.whole
        (bareLines r serial (Tag.isCritical (Tag.normalize r.tag).tag s.criticalTags))))) := by
  have hcompleted : Completed (parse s r t).1 := by
    rcases h with herror | ⟨o, _, ho, _⟩
    · exact Or.inr herror
    · exact Or.inl ⟨o, ho⟩
  obtain ⟨serial, place, hready, hresult, hopen⟩ := open?_of_completed hcompleted
  have hunread : ∃ why, (outcomeAt s r t place).extractionError = some why := by
    rw [hresult] at h
    rcases judge_cases s.strictness (outcomeAt s r t place) with
      ⟨hok, _⟩ | ⟨why, _, hwhy, _⟩
    · rw [hok] at h
      rcases h with ⟨tag, why, herror⟩ | ⟨o, why, ho, hwhy⟩
      · cases herror
      · cases ho
        exact ⟨why, hwhy⟩
    · exact ⟨why, hwhy⟩
  obtain ⟨why, hwhy⟩ := hunread
  rw [recordText_of_bare serial hwhy] at hopen
  exact ⟨serial, hready.serial, hopen⟩

/-- A run names the first obstacle that is present, and succeeds if there is none. An obstacle
before the record leaves every file as it was, no run touches any file but the record, and a record
whose artifacts could not be read is complete but for their fields. That the record's file takes no
data shows alike however its lines are buffered. -/
theorem first_obstacle_decides (s : Settings) (r : Request) (t : FileTree) :
    (∀ o : Obstacle, (∃ why, (parse s r t).1 = .error why ∧ why.obstacle = o) ↔
      o.Present s r t ∧ ∀ o' : Obstacle, o'.rank < o.rank → ¬ o'.Present s r t) ∧
    ((∃ o, (parse s r t).1 = .ok o) ↔ ∀ o : Obstacle, ¬ o.Present s r t) ∧
    (∀ place files, t.create (recordPath r) = .ok (place, files) → ∀ capacity pieces,
      files.writeThrough capacity place pieces = files.fill place pieces.flatten) ∧
    (∀ why, (parse s r t).1 = .error why → why.obstacle.rank < 3 → (parse s r t).2 = t) ∧
    (∀ place, t.follow (recordPath r) ≠ .ok place →
      (parse s r t).2.node? place = t.node? place) ∧
    ((∃ tag why, (parse s r t).1 = .error (.extraction tag why)) ∨
        (∃ o why, (parse s r t).1 = .ok o ∧ o.extractionError = some why) →
      ∃ serial, readSerial t s.serialPath = .ok serial ∧
        (parse s r t).2.open? (recordPath r) = .ok (.file (Utf8.encode (Record.whole
          (bareLines r serial (Tag.isCritical (Tag.normalize r.tag).tag s.criticalTags)))))) := by
  have hfirst := first_or_none s r t
  refine ⟨fun o => ⟨?_, fun ho => ?_⟩, ⟨?_, fun hnone => ?_⟩,
    fun _ _ hcreate => FileTree.writeThrough_eq_fill hcreate, fun _ => parse_of_early,
    fun _ => node?_parse, open?_of_unreadable⟩
  · rintro ⟨why, hwhy, rfl⟩
    rcases hfirst with ⟨why', hwhy', hpresent⟩ | ⟨⟨o, ho⟩, _⟩
    · obtain rfl := Except.error.inj (hwhy.symm.trans hwhy')
      exact hpresent
    · cases hwhy.symm.trans ho
  · rcases hfirst with ⟨why, hwhy, hpresent⟩ | ⟨_, hclear⟩
    · exact ⟨why, hwhy, eq_of_first hpresent ho⟩
    · exact absurd ho.1 (hclear o (rank_lt o))
  · rintro ⟨o, ho⟩ o'
    rcases hfirst with ⟨why, hwhy, _⟩ | ⟨_, hclear⟩
    · cases ho.symm.trans hwhy
    · exact hclear o' (rank_lt o')
  · rcases hfirst with ⟨why, _, hpresent, _⟩ | ⟨hok, _⟩
    · exact absurd hpresent (hnone _)
    · exact hok

end Engine

end CrashDigest
