import Mathlib.Data.List.Basic
import Mathlib.Data.List.Find
import Mathlib.Data.List.Induction
import CrashDigest.Text.Basic

/-!
# Places in a file

What a scan does with a line often depends on where the line stands: how far it
is behind another one, or whether it is the first of its kind. To say so, the
lines are numbered from 0 and a property is asked of a place in the lines.

The properties that matter here only look back: lines that follow a place
change nothing about it (`LooksBack`). One more line then leaves the places
found so far as they are and can only add its own at the end, so what a scan
has come to can be compared line by line with the places it is said to have
found.
-/

namespace CrashDigest.Places

variable {p q : List Text → Nat → Bool} {lines : List Text} {line : Text} {j : Nat}

/-- A property of places that does not depend on the lines behind the place. -/
def LooksBack (p : List Text → Nat → Bool) : Prop :=
  ∀ (lines : List Text) (line : Text) (j : Nat), j < lines.length →
    p (lines ++ [line]) j = p lines j

/-- The first place with a property. -/
def first (p : List Text → Nat → Bool) (lines : List Text) : Option Nat :=
  (List.range lines.length).find? (p lines)

/-- The last place with a property. -/
def last (p : List Text → Nat → Bool) (lines : List Text) : Option Nat :=
  (List.range lines.length).reverse.find? (p lines)

/-- The lines at the places with a property, in their order. -/
def linesAt (p : List Text → Nat → Bool) (lines : List Text) : List Text :=
  ((List.range lines.length).filter (p lines)).filterMap (lines[·]?)

/-- Whether the line in a place has a property that may depend on the lines before it. -/
def given (here : List Text → Text → Bool) (lines : List Text) (j : Nat) : Bool :=
  lines[j]?.any (here (lines.take j))

/-- Whether the first place with a property lies before this one. -/
def behindFirst (p : List Text → Nat → Bool) (lines : List Text) (j : Nat) : Bool :=
  (first p lines).any (· < j)

/-- Whether the first place with a property is this one or lies before it. -/
def fromFirst (p : List Text → Nat → Bool) (lines : List Text) (j : Nat) : Bool :=
  (first p lines).any (· ≤ j)

/-- What is read off the line in a place, which may depend on the lines before it. -/
def valueAt (read : List Text → Text → Option Text) (lines : List Text) (j : Nat) : Option Text :=
  lines[j]?.bind (read (lines.take j))

/-- The first line that something can be read off. -/
def firstRead (read : List Text → Text → Option Text) (lines : List Text) : Option Nat :=
  first (given fun before line => (read before line).isSome) lines

/-- The texts that belong to the places with a property, one behind the other. -/
def textAt (p : List Text → Nat → Bool) (text : List Text → Nat → Text) (lines : List Text) :
    Text :=
  ((List.range lines.length).filter (p lines)).flatMap (text lines)

theorem first_lt (h : first p lines = some j) : j < lines.length :=
  List.mem_range.mp (List.mem_of_find?_eq_some h)

theorem holds_of_first (h : first p lines = some j) : p lines j = true :=
  List.find?_some h

theorem last_lt (h : last p lines = some j) : j < lines.length :=
  List.mem_range.mp (List.mem_reverse.mp (List.mem_of_find?_eq_some h))

theorem mem_linesAt : line ∈ linesAt p lines ↔ ∃ j, lines[j]? = some line ∧ p lines j = true := by
  rw [linesAt, List.mem_filterMap]
  refine exists_congr fun j => ?_
  rw [List.mem_filter, List.mem_range, and_comm]
  refine and_congr_right fun hget => and_iff_right (List.getElem?_eq_some_iff.mp hget).1

/-! ## Properties that look back

What is asked of the line itself looks back, and so does what is asked of the
lines up to a place and of its number. -/

theorem looksBack_line (here : Text → Bool) : LooksBack fun lines j => lines[j]?.any here := by
  intro lines line j hj
  show (lines ++ [line])[j]?.any here = lines[j]?.any here
  rw [List.getElem?_append_left hj]

theorem looksBack_take (here : List Text → Nat → Bool) :
    LooksBack fun lines j => here (lines.take (j + 1)) j := by
  intro lines line j hj
  show here ((lines ++ [line]).take (j + 1)) j = here (lines.take (j + 1)) j
  rw [List.take_append_of_le_length (Nat.succ_le_of_lt hj)]

theorem looksBack_given (here : List Text → Text → Bool) : LooksBack (given here) := by
  intro lines line j hj
  rw [given, List.take_append_of_le_length hj.le, List.getElem?_append_left hj, given]

theorem LooksBack.and (hp : LooksBack p) (hq : LooksBack q) :
    LooksBack fun lines j => p lines j && q lines j := by
  intro lines line j hj
  show (p (lines ++ [line]) j && q (lines ++ [line]) j) = (p lines j && q lines j)
  rw [hp lines line j hj, hq lines line j hj]

theorem LooksBack.not (hp : LooksBack p) : LooksBack fun lines j => !p lines j :=
  fun lines line j hj => congrArg (!·) (hp lines line j hj)

/-! ## One more line

It stands at the place that is numbered by the lines before it, and it is the
only place of the longer file where a property has to be looked at. -/

/-- What every step carries over from the lines so far to one more, a scan knows of all its
lines. -/
theorem foldl_told {σ : Type} {told : List Text → σ → Prop} {step : σ → Text → σ} {s : σ}
    (hinitial : told [] s)
    (hstep : ∀ lines line, told lines (lines.foldl step s) →
      told (lines ++ [line]) (step (lines.foldl step s) line)) (lines : List Text) :
    told lines (lines.foldl step s) := by
  induction lines using List.reverseRecOn with
  | nil => exact hinitial
  | append_singleton lines line ih =>
      rw [List.foldl_concat]
      exact hstep lines line ih

theorem take_concat_length (lines : List Text) (line : Text) :
    (lines ++ [line]).take (lines.length + 1) = lines ++ [line] :=
  List.take_length_add_append 1

theorem any_concat_length (here : Text → Bool) (lines : List Text) (line : Text) :
    (lines ++ [line])[lines.length]?.any here = here line := by
  rw [List.getElem?_concat_length, Option.any_some]

theorem given_concat (here : List Text → Text → Bool) (lines : List Text) (line : Text) :
    given here (lines ++ [line]) lines.length = here lines line := by
  rw [given, List.take_left, any_concat_length]

theorem first_concat (h : LooksBack p) (lines : List Text) (line : Text) :
    first p (lines ++ [line]) =
      (first p lines).or
        (if p (lines ++ [line]) lines.length then some lines.length else none) := by
  have hold : (List.range lines.length).find? (p (lines ++ [line])) = first p lines :=
    List.find?_congr fun j hj => h lines line j (List.mem_range.mp hj)
  rw [first, List.length_append, List.length_singleton, List.range_succ, List.find?_append, hold,
    List.find?_singleton]

theorem last_concat (h : LooksBack p) (lines : List Text) (line : Text) :
    last p (lines ++ [line]) =
      if p (lines ++ [line]) lines.length then some lines.length else last p lines := by
  have hold : (List.range lines.length).reverse.find? (p (lines ++ [line])) = last p lines :=
    List.find?_congr fun j hj => h lines line j (List.mem_range.mp (List.mem_reverse.mp hj))
  rw [last, List.length_append, List.length_singleton, List.range_succ, List.reverse_concat,
    List.find?_cons, hold]
  cases p (lines ++ [line]) lines.length <;> rfl

/-- A place is not behind one that comes later, so it only matters what has come before. -/
theorem looksBack_behindFirst (h : LooksBack p) : LooksBack (behindFirst p) := by
  intro lines line j hj
  rw [behindFirst, first_concat h, behindFirst]
  cases first p lines with
  | some i => rfl
  | none =>
      rw [Option.none_or]
      split
      · exact decide_eq_false (Nat.not_lt.mpr hj.le)
      · rfl

theorem looksBack_fromFirst (h : LooksBack p) : LooksBack (fromFirst p) := by
  intro lines line j hj
  rw [fromFirst, first_concat h, fromFirst]
  cases first p lines with
  | some i => rfl
  | none =>
      rw [Option.none_or]
      split
      · exact decide_eq_false (Nat.not_le.mpr hj)
      · rfl

theorem behindFirst_concat (h : LooksBack p) (lines : List Text) (line : Text) :
    behindFirst p (lines ++ [line]) lines.length = (first p lines).isSome := by
  rw [behindFirst, first_concat h]
  cases hfirst : first p lines with
  | some i => exact decide_eq_true (first_lt hfirst)
  | none =>
      rw [Option.none_or]
      split
      · exact decide_eq_false (Nat.lt_irrefl _)
      · rfl

theorem fromFirst_concat (p : List Text → Nat → Bool) (lines : List Text) (line : Text) :
    fromFirst p (lines ++ [line]) lines.length = (first p (lines ++ [line])).isSome := by
  rw [fromFirst]
  cases hfirst : first p (lines ++ [line]) with
  | some i =>
      have hi := first_lt hfirst
      rw [List.length_append, List.length_singleton] at hi
      exact decide_eq_true (Nat.le_of_lt_succ hi)
  | none => rfl

theorem valueAt_of_lt {read : List Text → Text → Option Text} (hj : j < lines.length)
    (line : Text) : valueAt read (lines ++ [line]) j = valueAt read lines j := by
  rw [valueAt, List.getElem?_append_left hj, List.take_append_of_le_length hj.le, valueAt]

theorem valueAt_concat (read : List Text → Text → Option Text) (lines : List Text) (line : Text) :
    valueAt read (lines ++ [line]) lines.length = read lines line := by
  rw [valueAt, List.getElem?_concat_length, Option.bind_some, List.take_left]

theorem firstRead_concat (read : List Text → Text → Option Text) (lines : List Text)
    (line : Text) :
    firstRead read (lines ++ [line]) =
      (firstRead read lines).or (if (read lines line).isSome then some lines.length else none) := by
  rw [firstRead, first_concat (looksBack_given _), given_concat, firstRead]

theorem isSome_bind_firstRead (read : List Text → Text → Option Text) (lines : List Text) :
    ((firstRead read lines).bind (valueAt read lines)).isSome = (firstRead read lines).isSome := by
  cases hfirst : firstRead read lines with
  | none => rfl
  | some j =>
      obtain ⟨line, hline, hread⟩ := (Option.any_eq_true _ _).mp (holds_of_first hfirst)
      rw [Option.bind_some, valueAt, hline]
      exact hread

/-- What is read first stays, and else the new line is read. -/
theorem bind_firstRead_concat (read : List Text → Text → Option Text) (lines : List Text)
    (line : Text) :
    (firstRead read (lines ++ [line])).bind (valueAt read (lines ++ [line])) =
      ((firstRead read lines).bind (valueAt read lines)).or (read lines line) := by
  have hsome := isSome_bind_firstRead read lines
  rw [firstRead_concat]
  cases hfirst : firstRead read lines with
  | some j =>
      rw [hfirst, Option.bind_some] at hsome
      obtain ⟨value, hvalue⟩ := Option.isSome_iff_exists.mp hsome
      rw [Option.some_or, Option.bind_some, Option.bind_some, valueAt_of_lt (first_lt hfirst),
        hvalue, Option.some_or]
  | none =>
      rw [Option.none_or, Option.bind_none, Option.none_or]
      cases hread : read lines line with
      | some value =>
          rw [Option.isSome_some, if_pos rfl, Option.bind_some, valueAt_concat, hread]
      | none => rfl

/-- The places found so far, and the new one if it has the property. -/
theorem filter_concat (h : LooksBack p) (lines : List Text) (line : Text) :
    (List.range (lines ++ [line]).length).filter (p (lines ++ [line])) =
      (List.range lines.length).filter (p lines) ++
        if p (lines ++ [line]) lines.length then [lines.length] else [] := by
  have hold : (List.range lines.length).filter (p (lines ++ [line])) =
      (List.range lines.length).filter (p lines) :=
    List.filter_congr fun j hj => h lines line j (List.mem_range.mp hj)
  rw [List.length_append, List.length_singleton, List.range_succ, List.filter_append, hold,
    List.filter_singleton]
  cases p (lines ++ [line]) lines.length <;> rfl

theorem linesAt_concat (h : LooksBack p) (lines : List Text) (line : Text) :
    linesAt p (lines ++ [line]) =
      linesAt p lines ++ if p (lines ++ [line]) lines.length then [line] else [] := by
  have hold : ((List.range lines.length).filter (p lines)).filterMap ((lines ++ [line])[·]?) =
      linesAt p lines := by
    refine List.filterMap_congr fun j hj => ?_
    exact List.getElem?_append_left (List.mem_range.mp (List.mem_of_mem_filter hj))
  rw [linesAt, filter_concat h, List.filterMap_append, hold]
  cases p (lines ++ [line]) lines.length with
  | true => simp
  | false => rfl

/-- Texts that look back as well stay as they are. -/
theorem textAt_concat {text : List Text → Nat → Text} (h : LooksBack p) (lines : List Text)
    (line : Text) (htext : ∀ j < lines.length, text (lines ++ [line]) j = text lines j) :
    textAt p text (lines ++ [line]) =
      textAt p text lines ++
        if p (lines ++ [line]) lines.length then text (lines ++ [line]) lines.length else [] := by
  have hold : ((List.range lines.length).filter (p lines)).flatMap (text (lines ++ [line])) =
      textAt p text lines :=
    List.flatMap_congr fun j hj => htext j (List.mem_range.mp (List.mem_of_mem_filter hj))
  rw [textAt, filter_concat h, List.flatMap_append, hold]
  cases p (lines ++ [line]) lines.length with
  | true => simp
  | false => rfl

/-! ## Budgets

A scan with a budget takes items, at most one from a line, as long as it has
fewer than that. It comes to the same as keeping the first of all items. -/

theorem take_append_one {α : Type} {items more : List α} (budget : Nat) (hmore : more.length ≤ 1) :
    (items ++ more).take budget =
      if (items.take budget).length < budget then items.take budget ++ more
      else items.take budget := by
  rw [List.take_append, List.length_take]
  split
  · next hroom => rw [List.take_of_length_le (by omega : more.length ≤ budget - items.length)]
  · next hfull =>
      have hnone : budget - items.length = 0 := by omega
      rw [hnone, List.take_zero, List.append_nil]

/-- A budget for what is read off the lines. -/
theorem take_filterMap_concat {α : Type} (read : Text → Option α) (budget : Nat)
    (lines : List Text) (line : Text) :
    ((lines ++ [line]).filterMap read).take budget =
      if ((lines.filterMap read).take budget).length < budget
      then (lines.filterMap read).take budget ++ (read line).toList
      else (lines.filterMap read).take budget := by
  have hone : (read line).toList.length ≤ 1 := by
    cases read line <;> simp
  have hconcat : (lines ++ [line]).filterMap read = lines.filterMap read ++ (read line).toList := by
    rw [List.filterMap_append]
    cases hline : read line <;> simp [hline]
  rw [hconcat, take_append_one budget hone]

/-- A budget for the lines at the places with a property. -/
theorem take_linesAt_concat (h : LooksBack p) (budget : Nat) (lines : List Text) (line : Text) :
    (linesAt p (lines ++ [line])).take budget =
      if p (lines ++ [line]) lines.length = true ∧ ((linesAt p lines).take budget).length < budget
      then (linesAt p lines).take budget ++ [line] else (linesAt p lines).take budget := by
  rw [linesAt_concat h]
  cases p (lines ++ [line]) lines.length with
  | true => simpa using take_append_one budget (by simp)
  | false => simp

/-! ## Another line in a place -/

theorem last_congr {lines' : List Text} (hlength : lines'.length = lines.length)
    (h : ∀ k < lines.length, p lines' k = p lines k) : last p lines' = last p lines := by
  rw [last, last, hlength]
  exact List.find?_congr fun k hk => h k (List.mem_range.mp (List.mem_reverse.mp hk))

/-- A line in a place without the property may be another one that changes nothing for the rest. -/
theorem linesAt_set (hj : p lines j = false) (h : ∀ i, p (lines.set j line) i = p lines i) :
    linesAt p (lines.set j line) = linesAt p lines := by
  have hplaces : p (lines.set j line) = p lines := funext h
  rw [linesAt, linesAt, List.length_set, hplaces]
  refine List.filterMap_congr fun i hi => ?_
  have hne : j ≠ i := by
    rintro rfl
    exact Bool.false_ne_true (hj.symm.trans (List.of_mem_filter hi))
  exact List.getElem?_set_ne hne

end CrashDigest.Places
