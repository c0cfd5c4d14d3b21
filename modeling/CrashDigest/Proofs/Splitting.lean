import CrashDigest.Proofs.MatchSpans

/-!
# Splitting at the matches

A text is split at the matches of its separator, all but one of nothing at the
very front; with a limit, at so many of them that there are no more tokens than
the limit allows. The tokens are the gaps between the matches, so put together
again with the matches between them they are the text (`Token.split_at_spans`).
A split without a limit then gives up the empty tokens at its end.

A single token may be asked for in two ways, alone or with everything behind it.
The second loses nothing, so the first is the front of it, up to the next match
(`Token.nth_of_onward`). The two ways part where only separators follow: a token
that is empty, with nothing but empty ones behind it, is missing when it is asked
for alone.
-/

namespace CrashDigest

namespace Text

/-- What stands in a text between some spans, in front of the first one from `place` on, and behind
the last one. -/
def gaps (s : Text) (place : Nat) : List Span → List Text
  | [] => [s.drop place]
  | m :: ms => Span.of ⟨place, m.start⟩ s :: gaps s m.stop ms

theorem length_gaps (s : Text) (place : Nat) (ms : List Span) :
    (gaps s place ms).length = ms.length + 1 := by
  induction ms generalizing place with
  | nil => rfl
  | cons m ms ih => rw [gaps, List.length_cons, ih, List.length_cons]

theorem exists_gaps_eq_cons (s : Text) (place : Nat) (ms : List Span) :
    ∃ t more, gaps s place ms = t :: more :=
  List.exists_cons_of_length_eq_add_one (length_gaps s place ms)

/-- Behind the last of some spans everything is left. -/
theorem getElem?_gaps_take (s : Text) (place : Nat) (ms : List Span) (i : Nat) :
    (gaps s place (ms.take i))[i]? = ((place :: ms.map Span.stop)[i]?).map (s.drop ·) := by
  induction i generalizing place ms with
  | zero => rfl
  | succ i ih =>
      cases ms with
      | nil => rfl
      | cons m ms => exact ih m.stop ms

theorem drop_gaps (s : Text) {place e : Nat} {ms : List Span} {i : Nat}
    (he : (place :: ms.map Span.stop)[i]? = some e) :
    (gaps s place ms).drop i = gaps s e (ms.drop i) := by
  induction i generalizing place ms with
  | zero =>
      obtain rfl := Option.some.inj he
      rfl
  | succ i ih =>
      cases ms with
      | nil => cases he
      | cons m ms => exact ih he

end Text

namespace Pieces

variable {cuts : List (Text × Text)} {rest s : Text} {place : Nat}

theorem length_spansFrom (place : Nat) (cuts : List (Text × Text)) :
    (spansFrom [] place cuts).length = cuts.length := by
  induction cuts generalizing place with
  | nil => rfl
  | cons cut cuts ih => rw [spansFrom_cons, List.length_cons, ih, List.length_cons]

theorem spansFrom_take (place : Nat) (cuts : List (Text × Text)) (n : Nat) :
    spansFrom [] place (cuts.take n) = (spansFrom [] place cuts).take n := by
  induction n generalizing place cuts with
  | zero => rfl
  | succ n ih =>
      cases cuts with
      | nil => rfl
      | cons cut cuts =>
          rw [List.take_succ_cons, spansFrom_cons, spansFrom_cons, List.take_succ_cons, ih]

/-- A gap and a match at the front of what is left of a text. -/
theorem front_of_drop {gap matched more : Text} (h : s.drop place = gap ++ matched ++ more) :
    Span.of ⟨place, place + gap.length⟩ s = gap ∧
      Span.of (.behind place gap matched) s = matched ∧
      s.drop (place + gap.length + matched.length) = more := by
  obtain ⟨hgap, hrest⟩ := Span.of_front (h.trans (List.append_assoc gap matched more))
  exact ⟨hgap, Span.of_front hrest⟩

theorem gaps_spansFrom (h : whole ⟨cuts, rest⟩ = s.drop place) :
    Text.gaps s place (spansFrom [] place cuts) = between ⟨cuts, rest⟩ := by
  induction cuts generalizing place with
  | nil => exact congrArg ([·]) h.symm
  | cons cut cuts ih =>
      obtain ⟨gap, matched⟩ := cut
      rw [whole_cons] at h
      obtain ⟨hgap, _, hmore⟩ := front_of_drop h.symm
      rw [spansFrom_cons, Text.gaps, Span.behind, hgap, ih hmore.symm]
      rfl

theorem map_of_spansFrom (h : whole ⟨cuts, rest⟩ = s.drop place) :
    (spansFrom [] place cuts).map (·.of s) = cuts.map Prod.snd := by
  induction cuts generalizing place with
  | nil => rfl
  | cons cut cuts ih =>
      obtain ⟨gap, matched⟩ := cut
      rw [whole_cons] at h
      obtain ⟨_, hmatched, hmore⟩ := front_of_drop h.symm
      rw [spansFrom_cons, List.map_cons, hmatched, ih hmore.symm, List.map_cons]

/-- The gaps with the matches between them are the text. -/
theorem flatten_zipWith_between (cuts : List (Text × Text)) (rest : Text) :
    (List.zipWith (· ++ ·) (between ⟨cuts, rest⟩) (cuts.map Prod.snd ++ [[]])).flatten =
      whole ⟨cuts, rest⟩ := by
  induction cuts with
  | nil => simp [between, whole]
  | cons cut cuts ih =>
      obtain ⟨gap, matched⟩ := cut
      rw [whole_cons, ← ih]
      rfl

/-- Behind the first `i` matches the text and the matches go on. -/
theorem whole_drop (h : whole ⟨cuts, rest⟩ = s.drop place) {i e : Nat}
    (he : (place :: (spansFrom [] place cuts).map Span.stop)[i]? = some e) :
    whole ⟨cuts.drop i, rest⟩ = s.drop e ∧
      (spansFrom [] place cuts).drop i = spansFrom [] e (cuts.drop i) := by
  induction i generalizing place cuts with
  | zero =>
      obtain rfl := Option.some.inj he
      exact ⟨h, rfl⟩
  | succ i ih =>
      cases cuts with
      | nil => cases he
      | cons cut cuts =>
          obtain ⟨gap, matched⟩ := cut
          rw [whole_cons] at h
          rw [spansFrom_cons] at he ⊢
          exact ih (front_of_drop h.symm).2.2.symm he

/-- What is left of a text is its first gap, the match behind it, if there is one, and the rest. -/
theorem drop_eq_append (h : whole ⟨cuts, rest⟩ = s.drop place) {t : Text}
    (ht : (Text.gaps s place (spansFrom [] place cuts)).head? = some t) :
    s.drop place = t ++ match (spansFrom [] place cuts).head? with
      | none => []
      | some m => m.of s ++ s.drop m.stop := by
  cases cuts with
  | nil =>
      obtain rfl := Option.some.inj ht
      exact (List.append_nil _).symm
  | cons cut cuts =>
      obtain ⟨gap, matched⟩ := cut
      rw [whole_cons] at h
      obtain ⟨hgap, hmatched, hmore⟩ := front_of_drop h.symm
      rw [spansFrom_cons] at ht ⊢
      obtain rfl : gap = t := hgap.symm.trans (Option.some.inj ht)
      show s.drop place = gap ++ (Span.of (.behind place gap matched) s ++ _)
      rw [hmatched, ← h, ← hmore, List.append_assoc]
      rfl

theorem length_flatMap_le_whole (cuts : List (Text × Text)) (rest : Text) :
    (cuts.flatMap Prod.snd).length ≤ (whole ⟨cuts, rest⟩).length := by
  induction cuts with
  | nil => simp
  | cons cut cuts ih =>
      rw [whole_cons, List.flatMap_cons]
      simp only [List.length_append]
      omega

/-- A text is made of the matches alone exactly if nothing stands between them. -/
theorem whole_eq_flatMap_iff (cuts : List (Text × Text)) (rest : Text) :
    whole ⟨cuts, rest⟩ = cuts.flatMap Prod.snd ↔ ∀ t ∈ between ⟨cuts, rest⟩, t = [] := by
  induction cuts with
  | nil => simp [whole, between]
  | cons cut cuts ih =>
      obtain ⟨gap, matched⟩ := cut
      have hbetween : between ⟨(gap, matched) :: cuts, rest⟩ = gap :: between ⟨cuts, rest⟩ := rfl
      rw [whole_cons, List.flatMap_cons, hbetween, List.forall_mem_cons, ← ih]
      constructor
      · intro h
        have hlength := congrArg List.length h
        have hle := length_flatMap_le_whole cuts rest
        simp only [List.length_append] at hlength
        obtain rfl : gap = [] := List.length_eq_zero_iff.mp (by omega)
        exact ⟨rfl, List.append_cancel_left h⟩
      · rintro ⟨rfl, h⟩
        rw [h, List.nil_append]

theorem drop_eq_flatMap_iff (h : whole ⟨cuts, rest⟩ = s.drop place) :
    s.drop place = (spansFrom [] place cuts).flatMap (·.of s) ↔
      ∀ t ∈ Text.gaps s place (spansFrom [] place cuts), t = [] := by
  rw [List.flatMap_def, map_of_spansFrom h, ← List.flatMap_def, gaps_spansFrom h, ← h]
  exact whole_eq_flatMap_iff cuts rest

end Pieces

/-! ## Tokens -/

namespace Token

theorem inOrder_separators (sep : Separator) (s : Text) : Span.InOrder s (separators sep s) where
  start_le m hm := (sep.inOrder s).start_le m (List.mem_of_mem_filter hm)
  stop_le m hm := (sep.inOrder s).stop_le m (List.mem_of_mem_filter hm)
  ordered := (sep.inOrder s).ordered.filter _

theorem spansFrom_separated (sep : Separator) (s : Text) :
    Pieces.spansFrom [] 0 (separated sep s).cuts = separators sep s :=
  Pieces.spans_ofSpans (inOrder_separators sep s)

theorem separators_eq_nil_iff (sep : Separator) (s : Text) :
    separators sep s = [] ↔ (separated sep s).cuts.isEmpty = true := by
  rw [← spansFrom_separated, ← List.length_eq_zero_iff, Pieces.length_spansFrom,
    List.length_eq_zero_iff, List.isEmpty_iff]

theorem split_eq (sep : Separator) (s : Text) :
    split sep s = if separators sep s = [] then [s]
      else (Text.gaps s 0 (separators sep s)).rdropWhile List.isEmpty := by
  rw [split, if_congr (separators_eq_nil_iff sep s) rfl rfl, ← spansFrom_separated,
    Pieces.gaps_spansFrom (whole_separated sep s)]
  rfl

theorem splitUpTo_eq (limit : Nat) (sep : Separator) (s : Text) :
    splitUpTo limit sep s = Text.gaps s 0 ((separators sep s).take (limit - 1)) := by
  have hwhole := (Pieces.whole_firstCuts (limit - 1) _).trans (whole_separated sep s)
  rw [splitUpTo, ← spansFrom_separated, ← Pieces.spansFrom_take]
  exact (Pieces.gaps_spansFrom hwhole).symm

/-- The gaps between the first few separators, put together with these, are the text. -/
theorem flatten_zipWith_gaps (sep : Separator) (s : Text) (n : Nat) :
    let ms := (separators sep s).take n
    (List.zipWith (· ++ ·) (Text.gaps s 0 ms) (ms.map (·.of s) ++ [[]])).flatten = s := by
  intro ms
  have hwhole := (Pieces.whole_firstCuts n _).trans (whole_separated sep s)
  have hms : ms = Pieces.spansFrom [] 0 ((separated sep s).firstCuts n).cuts := by
    rw [Pieces.firstCuts, Pieces.spansFrom_take, spansFrom_separated]
  rw [hms, Pieces.gaps_spansFrom hwhole, Pieces.map_of_spansFrom hwhole,
    Pieces.flatten_zipWith_between]
  exact hwhole

/-- A text is split at all the matches of the separator, but for those of nothing at the very front,
or at the first `limit - 1` of these. The tokens, with the matches between them, are the text. A
split without a limit gives up the empty tokens at the end, unless it is not split at all. -/
theorem split_at_spans (sep : Separator) (s : Text) (limit : Nat) :
    let all := (sep.spans s).filter (· ≠ ⟨0, 0⟩)
    let ms := if limit = 0 then all else all.take (limit - 1)
    let tokens := Text.gaps s 0 ms
    let found := if limit = 0 then split sep s else splitUpTo limit sep s
    tokens.length = ms.length + 1 ∧
    (List.zipWith (· ++ ·) tokens (ms.map (·.of s) ++ [[]])).flatten = s ∧
    found = (if ms = [] then [s]
      else if limit = 0 then tokens.rdropWhile List.isEmpty else tokens) ∧
    (limit ≠ 0 → found.length ≤ limit) := by
  refine ⟨Text.length_gaps s 0 _, ?_, ?_, ?_⟩
  · split
    · have hall := flatten_zipWith_gaps sep s (separators sep s).length
      rwa [List.take_length] at hall
    · exact flatten_zipWith_gaps sep s (limit - 1)
  · split
    · exact split_eq sep s
    · refine (splitUpTo_eq limit sep s).trans ?_
      split
      · next hnone => exact congrArg (Text.gaps s 0) hnone
      · rfl
  · intro hlimit
    rw [if_neg hlimit, splitUpTo_eq, Text.length_gaps, List.length_take]
    omega

/-! ## One token -/

theorem nthOnward_eq (sep : Separator) (i : Nat) (s : Text) :
    nthOnward sep i s = ((0 :: (separators sep s).map Span.stop)[i]?).map (s.drop ·) := by
  rw [nthOnward, splitUpTo_eq, Nat.add_sub_cancel, Text.getElem?_gaps_take]

theorem nth_eq (sep : Separator) (i : Nat) (s : Text) :
    nth sep i s =
      if separators sep s ≠ [] ∧ ∀ t ∈ (Text.gaps s 0 (separators sep s)).drop i, t = [] then none
      else (Text.gaps s 0 (separators sep s))[i]? := by
  rw [nth, split_eq]
  by_cases hnone : separators sep s = []
  · rw [if_pos hnone, if_neg fun h => h.1 hnone, hnone]
    rfl
  · rw [if_neg hnone, if_congr (and_iff_right hnone) rfl rfl]
    exact getElem?_dropTrailingEmpty_eq _ i

/-- Behind the first `i` separators the text goes on as a text cut at the others. -/
theorem exists_cuts_behind {sep : Separator} {s : Text} {i e : Nat}
    (he : (0 :: (separators sep s).map Span.stop)[i]? = some e) :
    ∃ cuts rest, Pieces.whole ⟨cuts, rest⟩ = s.drop e ∧
      (separators sep s).drop i = Pieces.spansFrom [] e cuts ∧
      (Text.gaps s 0 (separators sep s)).drop i = Text.gaps s e (Pieces.spansFrom [] e cuts) := by
  have hwhole : Pieces.whole ⟨(separated sep s).cuts, (separated sep s).rest⟩ = s.drop 0 :=
    whole_separated sep s
  have hgaps := Text.drop_gaps s he
  rw [← spansFrom_separated] at he hgaps ⊢
  obtain ⟨hdrop, hspans⟩ := Pieces.whole_drop hwhole he
  exact ⟨_, _, hdrop, hspans, hspans ▸ hgaps⟩

theorem exists_place_of_nth {sep : Separator} {s t : Text} {i : Nat} (h : nth sep i s = some t) :
    (Text.gaps s 0 (separators sep s))[i]? = some t ∧
      ∃ e, (0 :: (separators sep s).map Span.stop)[i]? = some e := by
  rw [nth_eq] at h
  split at h
  · cases h
  · obtain ⟨hi, _⟩ := List.getElem?_eq_some_iff.mp h
    rw [Text.length_gaps] at hi
    exact ⟨h, _, List.getElem?_eq_getElem (by simpa using hi)⟩

theorem isSome_nthOnward_iff (sep : Separator) (i : Nat) (s : Text) :
    (nthOnward sep i s).isSome = true ↔ i ≤ (separators sep s).length := by
  rw [nthOnward_eq, Option.isSome_map, Option.isSome_iff_ne_none, ne_eq,
    List.getElem?_eq_none_iff, List.length_cons, List.length_map]
  omega

theorem nthOnward_of_nth {sep : Separator} {s t : Text} {i : Nat} (h : nth sep i s = some t) :
    nthOnward sep i s = some (t ++ match (separators sep s)[i]? with
      | none => []
      | some m => m.of s ++ s.drop m.stop) := by
  obtain ⟨hgap, e, he⟩ := exists_place_of_nth h
  obtain ⟨cuts, rest, hwhole, hspans, hgaps⟩ := exists_cuts_behind he
  rw [← List.head?_drop, hgaps] at hgap
  rw [nthOnward_eq, he, Option.map_some, ← List.head?_drop, hspans]
  exact congrArg some (Pieces.drop_eq_append hwhole hgap)

theorem nth_eq_none_iff (sep : Separator) (i : Nat) (s : Text) :
    nth sep i s = none ∧ (nthOnward sep i s).isSome = true ↔
      separators sep s ≠ [] ∧
        nthOnward sep i s = some (((separators sep s).drop i).flatMap (·.of s)) := by
  rw [nthOnward_eq]
  rcases he : (0 :: (separators sep s).map Span.stop)[i]? with _ | e
  · simp
  · obtain ⟨cuts, rest, hwhole, hspans, hgaps⟩ := exists_cuts_behind he
    obtain ⟨t, more, hcons⟩ := Text.exists_gaps_eq_cons s e (Pieces.spansFrom [] e cuts)
    rw [Option.map_some, Option.some_inj, hspans, Pieces.drop_eq_flatMap_iff hwhole, nth_eq,
      ← List.head?_drop, hgaps, and_iff_left (Option.isSome_some), hcons]
    split
    · next hblank => exact iff_of_true rfl hblank
    · next hblank => exact iff_of_false (Option.some_ne_none t) hblank

/-- Everything behind the first `i` separators is there if the text has as many. Token `i` alone is
the front of it, up to the next separator, if there is one. It is missing where nothing but
separators follows, unless the text has none at all. -/
theorem nth_of_onward (sep : Separator) (i : Nat) (s : Text) :
    let ms := (sep.spans s).filter (· ≠ ⟨0, 0⟩)
    ((nthOnward sep i s).isSome = true ↔ i ≤ ms.length) ∧
    nthOnward sep i s = ((0 :: ms.map Span.stop)[i]?).map (s.drop ·) ∧
    (∀ t, nth sep i s = some t →
      nthOnward sep i s = some (t ++ match ms[i]? with
        | none => []
        | some m => m.of s ++ s.drop m.stop)) ∧
    (nth sep i s = none ∧ (nthOnward sep i s).isSome = true ↔
      ms ≠ [] ∧ nthOnward sep i s = some ((ms.drop i).flatMap (·.of s))) :=
  ⟨isSome_nthOnward_iff sep i s, nthOnward_eq sep i s, fun _ h => nthOnward_of_nth h,
    nth_eq_none_iff sep i s⟩

-- A value that is empty is there only when everything behind its name is asked for.
example : nth (.word "=") 1 "DATA0=" = none ∧ nthOnward (.word "=") 1 "DATA0=" = some [] := by
  decide

end Token

end CrashDigest
