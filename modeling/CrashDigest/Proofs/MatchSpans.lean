import CrashDigest.Proofs.WordTokens

/-!
# Where a search finds something

Splitting a text uses no more of a separator than that its matches come in order.
The separators that are searches do more: their matches are the leftmost ones.
`Search.Finds` says of some spans that they are the matches from left to right,
each of them the first one behind the one before, and that there are no more. The
loop that cuts a text goes through just these (`Separator.finds_ofSearch`): its
fuel bounds the number of matches, and it is enough, because behind a match the
next one ends at least one character later (`Search.lt_stop_of_nextAt`).
-/

namespace CrashDigest

namespace Span

/-- The characters of a span. -/
def of (m : Span) (s : Text) : Text := (s.take m.stop).drop m.start

/-- What is left of a text from a place on begins with the span of its own front. -/
theorem of_front {s front rest : Text} {place : Nat} (h : s.drop place = front ++ rest) :
    of ⟨place, place + front.length⟩ s = front ∧ s.drop (place + front.length) = rest := by
  constructor
  · rw [of, List.drop_take, Nat.add_sub_cancel_left, h, List.take_left]
  · rw [← List.drop_drop, h, List.drop_left]

/-- Whether a span lies in a text and not in front of a place. -/
structure Fits (place : Nat) (s : Text) (m : Span) : Prop where
  place_le : place ≤ m.start
  start_le : m.start ≤ m.stop
  stop_le : m.stop ≤ s.length

end Span

namespace Search

/-- The first match that begins at a place or behind it. -/
def firstAt (search : Search) (s : Text) (place : Nat) : Option Span :=
  (search place (s.drop place)).map fun m => .behind place m.before m.matched

/-- The same where a match has ended right at the place, `adjacent`: a match of nothing there does
not count. -/
def nextAt (search : Search) (s : Text) (adjacent : Bool) (place : Nat) : Option Span :=
  if adjacent ∧ search.firstAt s place = some ⟨place, place⟩ then
    if place < s.length then search.firstAt s (place + 1) else none
  else search.firstAt s place

/-- All the matches from a place on, each the first one behind the one before. -/
inductive Finds (search : Search) (s : Text) : (adjacent : Bool) → Nat → List Span → Prop where
  | nil {adjacent : Bool} {place : Nat} (h : search.nextAt s adjacent place = none) :
      Finds search s adjacent place []
  | cons {adjacent : Bool} {place : Nat} {m : Span} {ms : List Span}
      (h : search.nextAt s adjacent place = some m) (more : Finds search s true m.stop ms) :
      Finds search s adjacent place (m :: ms)

variable {search : Search} {s : Text} {adjacent : Bool} {place : Nat} {m : Span} {ms : List Span}

theorem map_next (search : Search) (s : Text) (adjacent : Bool) (place : Nat) :
    ((search.next adjacent place (s.drop place)).map fun m =>
      Span.behind place m.before m.matched) = search.nextAt s adjacent place := by
  unfold next nextAt firstAt
  cases search place (s.drop place) with
  | none => simp
  | some m =>
      have hempty : (adjacent && m.before.isEmpty && m.matched.isEmpty) = true ↔
          adjacent = true ∧ some (Span.behind place m.before m.matched) = some ⟨place, place⟩ := by
        simp only [Span.behind, Bool.and_eq_true, List.isEmpty_iff, ← List.length_eq_zero_iff,
          Option.some_inj, Span.mk.injEq, and_assoc]
        exact and_congr_right fun _ => by omega
      simp only [Option.map_some]
      rw [if_congr hempty rfl rfl]
      split
      · by_cases hplace : place < s.length
        · rw [List.drop_eq_getElem_cons hplace, if_pos hplace]
          simp only [Option.map_map]
          congr 1
          funext m
          simp only [Function.comp_apply, Span.behind, List.length_cons, Span.mk.injEq]
          omega
        · rw [List.drop_eq_nil_of_le (by omega), if_neg hplace]
          rfl
      · rfl

/-! ## Bounds -/

theorem fits_of_firstAt (hl : search.Lawful) (hplace : place ≤ s.length)
    (h : search.firstAt s place = some m) : m.Fits place s := by
  obtain ⟨found, hfound, rfl⟩ := Option.map_eq_some_iff.mp h
  have hlength := congrArg List.length (hl hfound)
  simp only [List.length_append, List.length_drop] at hlength
  constructor <;> simp only [Span.behind] <;> omega

theorem fits_of_nextAt (hl : search.Lawful) (hplace : place ≤ s.length)
    (h : search.nextAt s adjacent place = some m) : m.Fits place s := by
  rw [nextAt] at h
  split at h
  · split at h
    · next hlt =>
        have hfits := fits_of_firstAt hl hlt h
        exact ⟨Nat.le_of_succ_le hfits.place_le, hfits.start_le, hfits.stop_le⟩
    · cases h
  · exact fits_of_firstAt hl hplace h

/-- Behind a match the next one ends later. -/
theorem lt_stop_of_nextAt (hl : search.Lawful) (hplace : place ≤ s.length)
    (h : search.nextAt s true place = some m) : place < m.stop := by
  rw [nextAt] at h
  split at h
  · split at h
    · next hlt =>
        have hfits := fits_of_firstAt hl hlt h
        exact Nat.lt_of_lt_of_le hfits.place_le hfits.start_le
    · cases h
  · next hnot =>
      have hfits := fits_of_firstAt hl hplace h
      have hstart := hfits.place_le
      have hstop := hfits.start_le
      by_contra hle
      have hempty : m = ⟨place, place⟩ := by
        cases m
        simp only [Span.mk.injEq] at *
        omega
      exact hnot ⟨rfl, hempty ▸ h⟩

end Search

/-! ## The matches at which a text is cut -/

namespace Pieces

theorem finds_cutFrom {search : Search} (hl : search.Lawful) (s : Text) (fuel : Nat)
    {adjacent : Bool} {place : Nat} (hplace : place ≤ s.length)
    (hfuel : s.length ≤ place + fuel) (hfirst : adjacent = false → s.length < place + fuel) :
    search.Finds s adjacent place
      (spansFrom [] place (cutFrom search fuel adjacent place [] (s.drop place)).cuts) := by
  induction fuel generalizing adjacent place with
  | zero =>
      -- a match has ended at the end of the text, and there is no place for another
      refine .nil (Option.eq_none_iff_forall_ne_some.mpr fun m hm => ?_)
      have hstop := (Search.fits_of_nextAt hl hplace hm).stop_le
      cases adjacent with
      | false => have := hfirst rfl; omega
      | true => have := Search.lt_stop_of_nextAt hl hplace hm; omega
  | succ fuel ih =>
      have hnext := Search.map_next search s adjacent place
      rw [cutFrom]
      cases hfound : search.next adjacent place (s.drop place) with
      | none =>
          rw [hfound] at hnext
          exact .nil hnext.symm
      | some m =>
          rw [hfound, Option.map_some] at hnext
          have hfits := Search.fits_of_nextAt hl hplace hnext.symm
          have hwhole := congrArg (List.drop (m.before.length + m.matched.length))
            (Search.next_lawful hl hfound)
          rw [List.drop_left' List.length_append, List.drop_drop, ← Nat.add_assoc] at hwhole
          simp only []
          rw [cutFrom_cuts, hwhole, List.reverse_singleton, List.singleton_append, spansFrom_cons]
          refine .cons hnext.symm (ih hfits.stop_le ?_ (by simp))
          have hle := Nat.le_trans hfits.place_le hfits.start_le
          cases adjacent with
          | false => have := hfirst rfl; omega
          | true => have := Search.lt_stop_of_nextAt hl hplace hnext.symm; omega

end Pieces

/-- The matches of a search are the leftmost ones from left to right, and all of them. -/
theorem Separator.finds_ofSearch {search : Search} (hl : search.Lawful) (s : Text) :
    search.Finds s false 0 ((ofSearch search hl).spans s) := by
  refine Pieces.finds_cutFrom hl s _ (Nat.zero_le _) ?_ fun _ => ?_ <;> omega

end CrashDigest
