import CrashDigest.Proofs.Assoc
import CrashDigest.Proofs.LineCutting
import CrashDigest.Settings.Ini

/-!
# How the text of a settings file counts

Reading a settings file carries two things from line to line, the section and the
settings so far. But what a line sets depends on the section alone, and what a
setting does to a file depends on no other setting. So the reading falls into two
halves: the settings that the lines make (`assignments`), and making them
(`ofText_eq`). The first is a matter of places, and lines that set nothing leave
no trace in it; the second is an overlay, and fails exactly where one setting does.

Both halves turn appended texts into appended lists as long as the second text
starts with a title of its own, which is why files can be put together.
-/

namespace CrashDigest

namespace Text

theorem trimEnd_concat {c : Char} (hc : isBlank c = true) (s : Text) :
    trimEnd (s ++ [c]) = trimEnd s := by
  rw [trimEnd, List.reverse_append, List.reverse_singleton, List.singleton_append,
    List.dropWhile_cons_of_pos hc, trimEnd]

theorem trim_concat {c : Char} (hc : isBlank c = true) (s : Text) : trim (s ++ [c]) = trim s := by
  rw [trim, trim, List.dropWhile_append]
  split
  · next hblank =>
      rw [List.isEmpty_iff.mp hblank, List.dropWhile_cons_of_pos hc, List.dropWhile_nil]
  · exact trimEnd_concat hc _

theorem trim_withoutReturn (line : Text) : trim (Lines.withoutReturn '\r' line) = trim line := by
  rw [Lines.withoutReturn]
  split
  · next hlast =>
      obtain ⟨front, rfl⟩ := List.getLast?_eq_some_iff.mp hlast
      rw [List.dropLast_concat, trim_concat (by decide)]
  · rfl

end Text

namespace Lines

variable {line : Text}

theorem ofText_of_not_mem (h : '\n' ∉ line) : ofText line = if line = [] then [] else [line] :=
  cut_of_not_mem '\r' h

theorem ofText_append (h : '\n' ∉ line) (rest : Text) :
    ofText (line ++ '\n' :: rest) = withoutReturn '\r' line :: ofText rest :=
  cut_append '\r' h rest

end Lines

namespace IniLine

variable {line name key value : Text}

/-! ## Lines -/

/-- Whether a line is blank or a comment. -/
def IsComment (line : Text) : Prop :=
  line.trim = [] ∨ line.trim.head? = some '#' ∨ line.trim.head? = some ';'

instance (line : Text) : Decidable (IsComment line) :=
  inferInstanceAs (Decidable (_ ∨ _ ∨ _))

/-- What stands in the brackets around a line: the name of the section that it begins. -/
def titleIn? (line : Text) : Option Text :=
  if line.trim.head? = some '[' ∧ line.trim.getLast? = some ']' then
    some (Text.trim line.trim.tail.dropLast)
  else none

/-- What stands on the two sides of the first equals sign of a line. -/
def HasSides (line key value : Text) : Prop :=
  ∃ before after : Text, line.trim = before ++ '=' :: after ∧ '=' ∉ before ∧
    before.trim = key ∧ after.trim = value

/-- Whether a line sets a key, and is neither a comment nor a title. -/
def Sets (line key value : Text) : Prop :=
  ¬ IsComment line ∧ titleIn? line = none ∧ HasSides line key value

theorem hasSides_iff : HasSides line key value ↔
    ∃ before after, line.trim.cut ['='] = some (before, after) ∧
      before.trim = key ∧ after.trim = value := by
  simp only [HasSides, Text.cut_singleton_eq_some_iff, and_assoc]

theorem HasSides.unique {key' value' : Text} (h : HasSides line key value)
    (h' : HasSides line key' value') : key = key' ∧ value = value' := by
  obtain ⟨before, after, hcut, rfl, rfl⟩ := hasSides_iff.mp h
  obtain ⟨before', after', hcut', rfl, rfl⟩ := hasSides_iff.mp h'
  obtain ⟨rfl, rfl⟩ := Prod.mk.inj (Option.some.inj (hcut.symm.trans hcut'))
  exact ⟨rfl, rfl⟩

theorem titleIn?_of_isComment (h : IsComment line) : titleIn? line = none := by
  refine if_neg fun ⟨hhead, _⟩ => ?_
  rcases h with h | h | h <;> simp [h] at hhead

theorem exists_hasSides (h : '=' ∈ line.trim) : ∃ key value, HasSides line key value := by
  obtain ⟨before, after, hline, hbefore⟩ := List.eq_append_cons_of_mem h
  exact ⟨_, _, before, after, hline, hbefore, rfl, rfl⟩

/-- What a line is, in words about the line. -/
theorem ofText_cases (line : Text) :
    (IsComment line ∧ ofText line = .nothing) ∨
      (∃ name, titleIn? line = some name ∧ ofText line = .title name) ∨
      (titleIn? line = none ∧ '=' ∉ line.trim ∧ ofText line = .nothing) ∨
      ∃ key value, Sets line key value ∧ ofText line = .setting key value := by
  rw [ofText, ofTrimmed]
  by_cases hcomment : IsComment line
  · refine .inl ⟨hcomment, if_pos ?_⟩
    rcases hcomment with h | h | h <;> simp [h]
  refine .inr ?_
  have hnot := hcomment
  simp only [IsComment, not_or] at hnot
  rw [if_neg (by simp [hnot])]
  by_cases hbrackets : line.trim.head? = some '[' ∧ line.trim.getLast? = some ']'
  · refine .inl ⟨_, if_pos hbrackets, ?_⟩
    rw [if_pos (by simpa using hbrackets)]
  refine .inr ?_
  have htitle : titleIn? line = none := if_neg hbrackets
  rw [if_neg (by simpa using hbrackets)]
  by_cases hequals : '=' ∈ line.trim
  · obtain ⟨key, value, hsides⟩ := exists_hasSides hequals
    refine .inr ⟨key, value, ⟨hcomment, htitle, hsides⟩, ?_⟩
    obtain ⟨before, after, hcut, rfl, rfl⟩ := hasSides_iff.mp hsides
    simp only [show ("=" : Text) = ['='] from rfl, hcut]
  · refine .inl ⟨htitle, hequals, ?_⟩
    have hcut : line.trim.cut ['='] = none := by
      refine Option.eq_none_iff_forall_ne_some.mpr fun ⟨before, after⟩ hcut => hequals ?_
      simp [(Text.cut_singleton_eq_some_iff.mp hcut).1]
    simp only [show ("=" : Text) = ['='] from rfl, hcut]

theorem ofText_eq_title_iff : ofText line = .title name ↔ titleIn? line = some name := by
  rcases ofText_cases line with ⟨h, heq⟩ | ⟨name', h, heq⟩ | ⟨h, -, heq⟩ | ⟨key, value, h, heq⟩
  · simp [heq, titleIn?_of_isComment h]
  · simp [heq, h]
  · simp [heq, h]
  · simp [heq, h.2.1]

theorem ofText_eq_setting_iff : ofText line = .setting key value ↔ Sets line key value := by
  rcases ofText_cases line with ⟨h, heq⟩ | ⟨name, h, heq⟩ | ⟨-, h, heq⟩ | ⟨key', value', h, heq⟩
  · simp [heq, Sets, h]
  · simp [heq, Sets, h]
  · have hsets : ¬ Sets line key value := by
      rintro ⟨-, -, before, after, hline, -⟩
      exact h (by simp [hline])
    simp [heq, hsets]
  · rw [heq, setting.injEq]
    constructor
    · rintro ⟨rfl, rfl⟩
      exact h
    · exact fun h' => h.2.2.unique h'.2.2

theorem titleIn?_withoutReturn (line : Text) :
    titleIn? (Lines.withoutReturn '\r' line) = titleIn? line := by
  rw [titleIn?, Text.trim_withoutReturn, titleIn?]

theorem ofText_withoutReturn (line : Text) :
    ofText (Lines.withoutReturn '\r' line) = ofText line := by
  rw [ofText, Text.trim_withoutReturn, ofText]

end IniLine

namespace SettingsFile

open IniLine hiding ofText

variable {f g : SettingsFile} {title line name value : Text} {lines front back : List Text}

/-! ## What the lines set -/

/-- A setting to be made, with its key also as it was written. -/
structure Assignment where
  key : Key
  name : Text
  value : Text
  deriving DecidableEq, Repr

/-- The file with the setting made. -/
def make (f : SettingsFile) (a : Assignment) : Except InvalidChoice SettingsFile :=
  f.set a.key a.name a.value

/-- The setting that a line makes in the section of a title. -/
def assigned? (title line : Text) : Option Assignment :=
  match IniLine.ofText line with
  | .setting name value => (keys.lookup (title, name)).map fun key => ⟨key, name, value⟩
  | _ => none

/-- The title that counts behind some lines. -/
def titleBehind (title : Text) (lines : List Text) : Text :=
  (lines.filterMap titleIn?).getLast?.getD title

/-- The settings that lines make behind a title, in their order. -/
def assignments (title : Text) : List Text → List Assignment
  | [] => []
  | line :: lines => (assigned? title line).toList ++ assignments ((titleIn? line).getD title) lines

theorem assigned?_eq_some {a : Assignment} : assigned? title line = some a ↔
    Sets line a.name a.value ∧ keys.lookup (title, a.name) = some a.key := by
  rw [← ofText_eq_setting_iff, assigned?]
  obtain ⟨key, name, value⟩ := a
  cases IniLine.ofText line with
  | nothing => simp
  | title => simp
  | setting name' value' =>
      rw [setting.injEq, Option.map_eq_some_iff]
      constructor
      · rintro ⟨key', hkey, ha⟩
        obtain ⟨rfl, rfl, rfl⟩ := Assignment.mk.inj ha
        exact ⟨⟨rfl, rfl⟩, hkey⟩
      · rintro ⟨⟨rfl, rfl⟩, hkey⟩
        exact ⟨key, hkey, rfl⟩

theorem assigned?_withoutReturn (title line : Text) :
    assigned? title (Lines.withoutReturn '\r' line) = assigned? title line := by
  rw [assigned?, ofText_withoutReturn, assigned?]

theorem assigned?_of_titleIn? (h : titleIn? line = some name) (title : Text) :
    assigned? title line = none := by
  rw [assigned?, ofText_eq_title_iff.mpr h]

theorem titleBehind_cons (title line : Text) (lines : List Text) :
    titleBehind title (line :: lines) = titleBehind ((titleIn? line).getD title) lines := by
  rw [titleBehind, List.filterMap_cons]
  cases titleIn? line with
  | none => rfl
  | some name => rw [List.getLast?_cons]; rfl

theorem assignments_append (title : Text) (front back : List Text) :
    assignments title (front ++ back) =
      assignments title front ++ assignments (titleBehind title front) back := by
  induction front generalizing title with
  | nil => rfl
  | cons line front ih =>
      rw [List.cons_append, assignments, ih, assignments, titleBehind_cons, List.append_assoc]

/-- Behind a title of their own the lines set what they always set. -/
theorem assignments_of_titleIn? (h : titleIn? line = some name) (title : Text) :
    assignments title (line :: lines) = assignments [] (line :: lines) := by
  rw [assignments, assignments, assigned?_of_titleIn? h, assigned?_of_titleIn? h, h]
  rfl

theorem mem_assignments {a : Assignment} : a ∈ assignments title lines ↔
    ∃ front line back, lines = front ++ line :: back ∧
      assigned? (titleBehind title front) line = some a := by
  constructor
  · intro h
    induction lines generalizing title with
    | nil => cases h
    | cons line lines ih =>
        rcases List.mem_append.mp h with hline | hlines
        · exact ⟨[], line, lines, rfl, Option.mem_toList.mp hline⟩
        · obtain ⟨front, line', back, rfl, ha⟩ := ih hlines
          exact ⟨line :: front, line', back, rfl, by rwa [titleBehind_cons]⟩
  · rintro ⟨front, line, back, rfl, ha⟩
    rw [assignments_append, assignments, ha]
    simp

theorem step_eq (r : Reading) (line : Text) :
    r.step line = ((assigned? r.current line).toList.foldlM make r.file).map
      fun file => ⟨(titleIn? line).getD r.current, file⟩ := by
  rw [Reading.step, assigned?]
  cases hline : IniLine.ofText line with
  | nothing =>
      have htitle : titleIn? line = none := by
        refine Option.eq_none_iff_forall_ne_some.mpr fun name hname => ?_
        rw [ofText_eq_title_iff.mpr hname] at hline
        cases hline
      rw [htitle]
      rfl
  | title name =>
      rw [ofText_eq_title_iff.mp hline]
      rfl
  | setting name value =>
      rw [(ofText_eq_setting_iff.mp hline).2.1]
      cases hkey : keys.lookup (r.current, name) with
      | none => simp only [hkey, Option.map_none, Option.toList_none, List.foldlM_nil]; rfl
      | some key =>
          simp only [hkey, Option.map_some, Option.toList_some, List.foldlM_cons, List.foldlM_nil,
            bind_pure]
          rfl

theorem foldlM_step (r : Reading) (lines : List Text) :
    lines.foldlM Reading.step r = ((assignments r.current lines).foldlM make r.file).map
      fun file => ⟨titleBehind r.current lines, file⟩ := by
  -- for every reading, because each line hands on a section and a file of its own
  induction lines generalizing r with
  | nil => rfl
  | cons line lines ih =>
      rw [List.foldlM_cons, step_eq, assignments, List.foldlM_append, titleBehind_cons]
      cases (assigned? r.current line).toList.foldlM make r.file with
      | error e => rfl
      | ok file => exact ih ⟨(titleIn? line).getD r.current, file⟩

theorem ofText_eq (text : Text) :
    ofText text = (assignments [] (Lines.ofText text)).foldlM make .empty := by
  have hread := foldlM_step .initial (Lines.ofText text)
  rw [ofText, hread, show Reading.initial = ⟨[], .empty⟩ from rfl]
  cases (assignments [] (Lines.ofText text)).foldlM make .empty with
  | error e => rfl
  | ok file => rfl

/-! ## Making settings -/

/-- The settings of `g`, and those of `f` where it makes none. -/
def overlaid (f g : SettingsFile) : SettingsFile where
  logsRoot := g.logsRoot.or f.logsRoot
  serial := g.serial.or f.serial
  strictness := g.strictness.or f.strictness
  fabricLayout := g.fabricLayout.or f.fabricLayout
  legacyBoards := g.legacyBoards.or f.legacyBoards
  criticalTags := g.criticalTags.or f.criticalTags
  owner := g.owner.or f.owner
  skipPattern := g.skipPattern.or f.skipPattern

theorem overlaid_empty (f : SettingsFile) : f.overlaid .empty = f := rfl

theorem make_overlaid (f g : SettingsFile) (a : Assignment) :
    (f.overlaid g).make a = (g.make a).map f.overlaid := by
  obtain ⟨key, name, value⟩ := a
  cases key with
  | strictness =>
      rw [make, make, set, set]
      cases choose Strictness.named name value <;> rfl
  | fabricLayout =>
      rw [make, make, set, set]
      cases choose FabricLayout.named name value <;> rfl
  | _ => rfl

theorem foldlM_make_overlaid (f g : SettingsFile) (as : List Assignment) :
    as.foldlM make (f.overlaid g) = (as.foldlM make g).map f.overlaid := by
  induction as generalizing g with
  | nil => rfl
  | cons a as ih =>
      rw [List.foldlM_cons, List.foldlM_cons, make_overlaid]
      cases g.make a with
      | error e => rfl
      | ok g' => exact ih g'

theorem foldlM_make_eq (f : SettingsFile) (as : List Assignment) :
    as.foldlM make f = (as.foldlM make .empty).map f.overlaid := by
  rw [← foldlM_make_overlaid, overlaid_empty]

/-- Whether a value is the name of a choice, in whatever case. -/
def IsNamed {α : Type} (named : List (Text × α)) (value : Text) : Prop :=
  ∃ choice ∈ named, choice.1.sameIgnoringCase value = true

instance {α : Type} (named : List (Text × α)) (value : Text) : Decidable (IsNamed named value) :=
  inferInstanceAs (Decidable (∃ choice ∈ named, choice.1.sameIgnoringCase value = true))

/-- Whether a setting asks for a choice that does not exist. -/
def Assignment.IsInvalid (a : Assignment) : Prop :=
  a.key = .strictness ∧ ¬ IsNamed Strictness.named a.value ∨
    a.key = .fabricLayout ∧ ¬ IsNamed FabricLayout.named a.value

theorem choose_eq_error_iff {α : Type} {named : List (Text × α)} :
    (∃ e, choose named name value = .error e) ↔ ¬ IsNamed named value := by
  rw [choose]
  split
  · next hfind =>
      have hname := List.find?_some hfind
      have hnamed : IsNamed named value := ⟨_, List.mem_of_find?_eq_some hfind, hname⟩
      simp [hnamed]
  · next hfind =>
      have hnone := List.find?_eq_none.mp hfind
      simpa [IsNamed] using hnone

theorem map_eq_error_iff {ε α β : Type} {x : Except ε α} {h : α → β} {e : ε} :
    x.map h = .error e ↔ x = .error e := by
  cases x <;> simp [Except.map]

/-- Whether a setting can be made does not depend on what has been set. -/
theorem make_eq_error_iff (f : SettingsFile) (a : Assignment) :
    (∃ e, f.make a = .error e) ↔ a.IsInvalid := by
  obtain ⟨key, name, value⟩ := a
  cases key <;> simp [make, set, Assignment.IsInvalid, map_eq_error_iff, choose_eq_error_iff]

theorem foldlM_make_eq_error_iff (f : SettingsFile) (as : List Assignment) :
    (∃ e, as.foldlM make f = .error e) ↔ ∃ a ∈ as, a.IsInvalid := by
  induction as generalizing f with
  | nil => simp [pure, Except.pure]
  | cons a as ih =>
      rw [List.foldlM_cons, List.exists_mem_cons_iff, ← make_eq_error_iff f]
      cases f.make a with
      | error e => simp [bind, Except.bind]
      | ok g => simpa [bind, Except.bind] using ih g

/-! ## Lines that set nothing -/

/-- Whether a line sets nothing behind a title: it is blank, a comment, or neither a title nor a
line with a key that the section has. -/
def Idle (title line : Text) : Prop :=
  IsComment line ∨ titleIn? line = none ∧
    ('=' ∉ line.trim ∨
      ∃ key value, HasSides line key value ∧ (title, key) ∉ keys.map Prod.fst)

theorem Idle.titleIn? (h : Idle title line) : titleIn? line = none :=
  h.elim titleIn?_of_isComment And.left

theorem Idle.assigned? (h : Idle title line) : assigned? title line = none := by
  refine Option.eq_none_iff_forall_ne_some.mpr fun a ha => ?_
  obtain ⟨⟨hcomment, -, hsides⟩, hkey⟩ := assigned?_eq_some.mp ha
  rcases h with h | ⟨-, h | ⟨key, value, hsides', hunknown⟩⟩
  · exact hcomment h
  · obtain ⟨before, after, hline, -⟩ := hsides
    exact h (by simp [hline])
  · obtain ⟨rfl, -⟩ := hsides.unique hsides'
    rw [Assoc.lookup_eq_none.mpr hunknown] at hkey
    cases hkey

/-! ## Texts -/

/-- A line feed begins a new line, and the carriage return that it may take from the line before
it does not matter. -/
theorem read_append (title front back : Text) :
    assignments title (Lines.ofText (front ++ '\n' :: back)) =
        assignments title (Lines.ofText front) ++
          assignments (titleBehind title (Lines.ofText front)) (Lines.ofText back) ∧
      titleBehind title (Lines.ofText (front ++ '\n' :: back)) =
        titleBehind (titleBehind title (Lines.ofText front)) (Lines.ofText back) := by
  induction front using Text.induction_on_first '\n' generalizing title with
  | absent front hfront =>
      rw [Lines.ofText_append hfront, Lines.ofText_of_not_mem hfront, assignments, titleBehind_cons,
        assigned?_withoutReturn, titleIn?_withoutReturn]
      split
      · next hnil =>
          -- the front has no line, but with the line feed it has one, which is blank
          subst hnil
          exact ⟨rfl, rfl⟩
      · rw [titleBehind_cons, assignments, List.append_assoc]
        exact ⟨rfl, rfl⟩
  | first line rest hline ih =>
      obtain ⟨hsettings, htitle⟩ := ih ((titleIn? line).getD title)
      rw [List.append_assoc, List.cons_append, Lines.ofText_append hline, Lines.ofText_append hline,
        assignments, assignments, titleBehind_cons, titleBehind_cons, assigned?_withoutReturn,
        titleIn?_withoutReturn, hsettings, htitle, List.append_assoc]
      exact ⟨rfl, rfl⟩

theorem read_idle (hline : '\n' ∉ line) (h : Idle title line) :
    assignments title (Lines.ofText line) = [] ∧ titleBehind title (Lines.ofText line) = title := by
  rw [Lines.ofText_of_not_mem hline]
  split
  · exact ⟨rfl, rfl⟩
  · rw [assignments, titleBehind_cons, h.assigned?, h.titleIn?]
    exact ⟨rfl, rfl⟩

theorem assignments_append_of_ended {a : Text} (ha : a = [] ∨ a.getLast? = some '\n') (b : Text) :
    assignments [] (Lines.ofText (a ++ b)) =
      assignments [] (Lines.ofText a) ++
        assignments (titleBehind [] (Lines.ofText a)) (Lines.ofText b) := by
  rcases ha with rfl | hlast
  · rfl
  · obtain ⟨front, rfl⟩ := List.getLast?_eq_some_iff.mp hlast
    obtain ⟨hsettings, htitle⟩ := read_append [] front []
    rw [List.append_assoc, List.singleton_append, (read_append [] front b).1, hsettings, htitle]
    simp [Lines.ofText, Lines.cut, Lines.cutFrom, assignments, titleBehind]

theorem ofText_append {a b : Text} (ha : a = [] ∨ a.getLast? = some '\n')
    (hb : ∃ line lines, Lines.ofText b = line :: lines ∧ (titleIn? line).isSome = true) :
    ofText (a ++ b) = (ofText a).bind fun f => (ofText b).map f.overlaid := by
  obtain ⟨line, lines, hlines, htitle⟩ := hb
  obtain ⟨name, hname⟩ := Option.isSome_iff_exists.mp htitle
  have hsecond : assignments (titleBehind [] (Lines.ofText a)) (Lines.ofText b) =
      assignments [] (Lines.ofText b) := by
    rw [hlines, assignments_of_titleIn? hname]
  rw [ofText_eq, ofText_eq a, ofText_eq b, assignments_append_of_ended ha, hsecond,
    List.foldlM_append]
  exact congrArg _ (funext fun f => foldlM_make_eq f _)

theorem ofText_insert {front line : Text} (hfront : front = [] ∨ front.getLast? = some '\n')
    (hline : '\n' ∉ line) (h : Idle (titleBehind [] (Lines.ofText front)) line) (back : Text) :
    ofText (front ++ line ++ '\n' :: back) = ofText (front ++ back) := by
  obtain ⟨hsettings, htitle⟩ := read_idle hline h
  rw [ofText_eq, ofText_eq, List.append_assoc, assignments_append_of_ended hfront,
    assignments_append_of_ended hfront, (read_append _ line back).1, hsettings, htitle,
    List.nil_append]

theorem ofText_append_idle {front line : Text} (hfront : front = [] ∨ front.getLast? = some '\n')
    (hline : '\n' ∉ line) (h : Idle (titleBehind [] (Lines.ofText front)) line) :
    ofText (front ++ line) = ofText front := by
  rw [ofText_eq, ofText_eq, assignments_append_of_ended hfront, (read_idle hline h).1,
    List.append_nil]

theorem ofText_append_newline_idle {front line : Text} (hline : '\n' ∉ line)
    (h : Idle (titleBehind [] (Lines.ofText front)) line) :
    ofText (front ++ '\n' :: line) = ofText front := by
  rw [ofText_eq, ofText_eq, (read_append [] front line).1, (read_idle hline h).1, List.append_nil]

theorem lookup_keys {key : Key} :
    keys.lookup (title, name) = some key ↔ ((title, name), key) ∈ keys :=
  Assoc.lookup_eq_some (by decide)

theorem exists_isInvalid_iff :
    (∃ key, keys.lookup (title, name) = some key ∧ Assignment.IsInvalid ⟨key, name, value⟩) ↔
      title = "parsing" ∧ (name = "strictness" ∧ ¬ IsNamed Strictness.named value ∨
        name = "fabric_layout" ∧ ¬ IsNamed FabricLayout.named value) := by
  constructor
  · rintro ⟨key, hkey, hinvalid⟩
    have hmem := lookup_keys.mp hkey
    rcases hinvalid with ⟨rfl, h⟩ | ⟨rfl, h⟩
    · obtain ⟨htitle, hname⟩ : title = "parsing" ∧ name = "strictness" := by simpa [keys] using hmem
      exact ⟨htitle, .inl ⟨hname, h⟩⟩
    · obtain ⟨htitle, hname⟩ : title = "parsing" ∧ name = "fabric_layout" := by
        simpa [keys] using hmem
      exact ⟨htitle, .inr ⟨hname, h⟩⟩
  · rintro ⟨rfl, ⟨rfl, h⟩ | ⟨rfl, h⟩⟩
    · exact ⟨.strictness, rfl, .inl ⟨rfl, h⟩⟩
    · exact ⟨.fabricLayout, rfl, .inr ⟨rfl, h⟩⟩

/-- Whether a line of a text, in the section for parsing, asks for a choice that does not exist. -/
def HasInvalidChoice (text : Text) : Prop :=
  ∃ front line back name value, Lines.ofText text = front ++ line :: back ∧
    titleBehind [] front = "parsing" ∧ Sets line name value ∧
      (name = "strictness" ∧ ¬ IsNamed Strictness.named value ∨
        name = "fabric_layout" ∧ ¬ IsNamed FabricLayout.named value)

/-- One invalid choice anywhere fails the whole file. -/
theorem ofText_eq_error_iff (text : Text) :
    (∃ e, ofText text = .error e) ↔ HasInvalidChoice text := by
  rw [ofText_eq, foldlM_make_eq_error_iff]
  constructor
  · rintro ⟨⟨key, name, value⟩, ha, hinvalid⟩
    obtain ⟨front, line, back, hlines, hline⟩ := mem_assignments.mp ha
    obtain ⟨hsets, hkey⟩ := assigned?_eq_some.mp hline
    obtain ⟨htitle, hchoice⟩ := exists_isInvalid_iff.mp ⟨key, hkey, hinvalid⟩
    exact ⟨front, line, back, name, value, hlines, htitle, hsets, hchoice⟩
  · rintro ⟨front, line, back, name, value, hlines, htitle, hsets, hchoice⟩
    obtain ⟨key, hkey, hinvalid⟩ := exists_isInvalid_iff.mpr ⟨htitle, hchoice⟩
    exact ⟨⟨key, name, value⟩,
      mem_assignments.mpr ⟨front, line, back, hlines, assigned?_eq_some.mpr ⟨hsets, hkey⟩⟩,
      hinvalid⟩

/-- Settings files can be put together, lines that set nothing make no difference to them, and an
invalid choice fails them wherever it stands. -/
theorem ofText_composes :
    (∀ a b : Text, (a = [] ∨ a.getLast? = some '\n') →
      (∃ line lines, Lines.ofText b = line :: lines ∧ (titleIn? line).isSome = true) →
        ofText (a ++ b) = (ofText a).bind fun f => (ofText b).map f.overlaid) ∧
    (∀ front line : Text, '\n' ∉ line → Idle (titleBehind [] (Lines.ofText front)) line →
      (front = [] ∨ front.getLast? = some '\n' →
        (∀ back, ofText (front ++ line ++ '\n' :: back) = ofText (front ++ back)) ∧
          ofText (front ++ line) = ofText front) ∧
      ofText (front ++ '\n' :: line) = ofText front) ∧
    ∀ text : Text, (∃ e, ofText text = .error e) ↔ HasInvalidChoice text := by
  refine ⟨fun a b => ofText_append, fun front line hline h => ?_, ofText_eq_error_iff⟩
  exact ⟨fun hfront => ⟨ofText_insert hfront hline h, ofText_append_idle hfront hline h⟩,
    ofText_append_newline_idle hline h⟩

/-- A file for the paths behind one for the parsing, a key in a section that does not have it, and
a choice that is put right too late. -/
theorem ofText_composes_parsing :
    (ofText ("[parsing]\nstrictness = lenient\n".toList ++ "[paths]\nserial = /s".toList) =
        (ofText "[parsing]\nstrictness = lenient\n").bind fun f =>
          (ofText "[paths]\nserial = /s").map f.overlaid) ∧
      ofText ("[parsing]\n".toList ++ "serial = /s".toList ++
          '\n' :: "strictness = strict".toList) =
        ofText ("[parsing]\n".toList ++ "strictness = strict".toList) ∧
      ∃ e, ofText "[parsing]\nstrictness = no\nstrictness = strict" = .error e := by
  have hidle : Idle "parsing" "serial = /s" :=
    .inr ⟨by decide, .inr ⟨"serial", "/s", ⟨"serial ", " /s", by decide⟩, by decide⟩⟩
  have hsets : Sets "strictness = no" "strictness" "no" :=
    ⟨by decide, by decide, "strictness ", " no", by decide⟩
  refine ⟨ofText_composes.1 _ _ (.inr rfl) ⟨"[paths]", ["serial = /s"], rfl, rfl⟩,
    ((ofText_composes.2.1 "[parsing]\n" "serial = /s" (by decide) hidle).1 (.inr rfl)).1 _,
    (ofText_composes.2.2 _).mpr ?_⟩
  exact ⟨["[parsing]"], "strictness = no", ["strictness = strict"], "strictness", "no", rfl, rfl,
    hsets, .inl ⟨rfl, by decide⟩⟩

end SettingsFile

end CrashDigest
