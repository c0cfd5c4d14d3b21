import Mathlib.Data.List.DropRight
import Mathlib.Data.List.Induction
import Mathlib.Data.List.TakeWhile
import CrashDigest.Proofs.TokenInfix

/-!
# Tokens between words

When the separator is a word, cutting a text at all its matches is the same as
cutting at the first occurrence and going on with what follows, and neither the
fuel of the loop nor the place where it stands has any influence on that
(`Separator.pieces_word`). The tokens can then be read off one by one.

Only the empty tokens at the end of a text are dropped, so a token that is not
empty is found under its number as if none were.
-/

namespace CrashDigest

namespace Text

/-- What stands before the first occurrence of a word, or all of the text if it has none. -/
def upTo (s w : Text) : Text := (s.cut w).elim s Prod.fst

theorem length_lt_of_cut {s w before after : Text} (hw : w ≠ [])
    (h : s.cut w = some (before, after)) : after.length < s.length := by
  have hpos := List.length_pos_iff.mpr hw
  rw [cut_eq_some h, List.length_append, List.length_append]
  omega

end Text

/-- A search that makes the same step wherever it stands, and uses some of the text up by it. -/
structure Search.Walks (search : Search) (step : Text → Option Match) : Prop where
  next : ∀ (adjacent : Bool) (offset : Nat) (s : Text), search.next adjacent offset s = step s
  shortens : ∀ {s : Text} {m : Match}, step s = some m → m.after.length < s.length

/-- A search whose matches are never empty. -/
def Search.Takes (search : Search) : Prop :=
  ∀ {offset : Nat} {s : Text} {m : Match}, search offset s = some m → m.matched ≠ []

theorem Search.next_takes {search : Search} (h : search.Takes) {adjacent : Bool} {offset : Nat}
    {s : Text} {m : Match} (hm : search.next adjacent offset s = some m) : m.matched ≠ [] := by
  unfold Search.next at hm
  split at hm
  · cases hm
  · next m' hfound =>
      rw [List.isEmpty_eq_false_iff.mpr (h hfound), Bool.and_false,
        if_neg Bool.false_ne_true] at hm
      exact Option.some.inj hm ▸ h hfound

namespace Pieces

theorem matched_ne_nil_cutFrom {search : Search} (h : search.Takes) (fuel : Nat) (adjacent : Bool)
    (offset : Nat) {cuts : List (Text × Text)} (hcuts : ∀ cut ∈ cuts, cut.2 ≠ []) (s : Text) :
    ∀ cut ∈ (cutFrom search fuel adjacent offset cuts s).cuts, cut.2 ≠ [] := by
  induction fuel generalizing adjacent offset cuts s with
  | zero => simpa [cutFrom] using hcuts
  | succ fuel ih =>
      rw [cutFrom]
      split
      · simpa using hcuts
      · next m hm =>
          exact ih true _ (List.forall_mem_cons.mpr ⟨Search.next_takes h hm, hcuts⟩) _

theorem matched_ne_nil {search : Search} (h : search.Takes) (s : Text) :
    ∀ cut ∈ (of search s).cuts, cut.2 ≠ [] :=
  matched_ne_nil_cutFrom h _ _ _ (fun _ hmem => absurd hmem List.not_mem_nil) s

/-- A match that takes something has a length. -/
theorem lt_of_mem_spansFrom {place : Nat} {cuts : List (Text × Text)}
    (h : ∀ cut ∈ cuts, cut.2 ≠ []) : ∀ m ∈ spansFrom [] place cuts, m.start < m.stop := by
  induction cuts generalizing place with
  | nil => simp [spansFrom]
  | cons cut cuts ih =>
      obtain ⟨gap, matched⟩ := cut
      obtain ⟨hmatched, hmore⟩ := List.forall_mem_cons.mp h
      rw [spansFrom_cons]
      refine List.forall_mem_cons.mpr ⟨?_, ih hmore⟩
      exact Nat.lt_add_of_pos_right (List.length_pos_iff.mpr hmatched)

/-- What has been cut off already stays as it is. -/
theorem cutFrom_cuts (search : Search) (fuel : Nat) (adjacent : Bool) (offset : Nat)
    (cuts : List (Text × Text)) (s : Text) :
    cutFrom search fuel adjacent offset cuts s =
      ⟨cuts.reverse ++ (cutFrom search fuel adjacent offset [] s).cuts,
        (cutFrom search fuel adjacent offset [] s).rest⟩ := by
  induction fuel generalizing adjacent offset cuts s with
  | zero => simp [cutFrom]
  | succ fuel ih =>
      rw [cutFrom, cutFrom]
      cases search.next adjacent offset s with
      | none => simp
      | some m =>
          simp only []
          rw [ih true _ ((m.before, m.matched) :: cuts), ih true _ [(m.before, m.matched)]]
          simp

/-- Enough fuel is as good as any, and the loop does not care where it stands. -/
theorem cutFrom_of_walks {search : Search} {step : Text → Option Match} (h : search.Walks step)
    {fuel fuel' : Nat} {s : Text} (hfuel : s.length < fuel) (hfuel' : s.length < fuel')
    (adjacent adjacent' : Bool) (offset offset' : Nat) :
    cutFrom search fuel adjacent offset [] s = cutFrom search fuel' adjacent' offset' [] s := by
  induction fuel generalizing fuel' adjacent adjacent' offset offset' s with
  | zero => omega
  | succ fuel ih =>
      obtain ⟨fuel', rfl⟩ := Nat.exists_eq_succ_of_ne_zero (by omega : fuel' ≠ 0)
      rw [cutFrom, cutFrom, h.next, h.next]
      cases hstep : step s with
      | none => rfl
      | some m =>
          have hshort := h.shortens hstep
          simp only []
          rw [cutFrom_cuts _ fuel, cutFrom_cuts _ fuel',
            @ih fuel' m.after (by omega) (by omega) true true _
              (offset' + m.before.length + m.matched.length)]

/-- A text is cut at the first match, and what follows is cut on. -/
theorem of_eq {search : Search} {step : Text → Option Match} (h : search.Walks step) (s : Text) :
    of search s =
      match step s with
      | none => ⟨[], s⟩
      | some m =>
          ⟨(m.before, m.matched) :: (of search m.after).cuts, (of search m.after).rest⟩ := by
  rw [of, cutFrom, h.next]
  cases hstep : step s with
  | none => rfl
  | some m =>
      have hshort := h.shortens hstep
      simp only []
      rw [cutFrom_cuts, cutFrom_of_walks h hshort (Nat.lt_succ_self m.after.length)]
      rfl

end Pieces

namespace Separator

variable {w s : Text}

theorem next_findWord (hw : w ≠ []) (adjacent : Bool) (offset : Nat) (s : Text) :
    Search.next (findWord w) adjacent offset s =
      (s.cut w).map fun (before, after) => ⟨before, w, after⟩ := by
  have hempty : w.isEmpty = false := List.isEmpty_eq_false_iff.mpr hw
  have hword : findWord w offset s = (s.cut w).map fun (before, after) => ⟨before, w, after⟩ := by
    rw [findWord, hempty]
    rfl
  unfold Search.next
  rw [hword]
  cases s.cut w with
  | none => rfl
  | some found => simp [hempty]

theorem findWord_takes (hw : w ≠ []) : Search.Takes (findWord w) := by
  intro offset s m h
  rw [findWord, if_neg (by simpa using hw)] at h
  obtain ⟨found, _, rfl⟩ := Option.map_eq_some_iff.mp h
  exact hw

theorem walks_findWord (hw : w ≠ []) : Search.Walks (findWord w) fun s =>
    (s.cut w).map fun (before, after) => ⟨before, w, after⟩ where
  next := next_findWord hw
  shortens := by
    intro s m hm
    obtain ⟨found, hcut, rfl⟩ := Option.map_eq_some_iff.mp hm
    exact Text.length_lt_of_cut hw hcut

/-- A text is cut at the first occurrence of the word, and what follows is cut on. -/
theorem pieces_word (hw : w ≠ []) (s : Text) :
    (Separator.word w).pieces s =
      match s.cut w with
      | none => ⟨[], s⟩
      | some (before, after) =>
          ⟨(before, w) :: ((Separator.word w).pieces after).cuts,
            ((Separator.word w).pieces after).rest⟩ := by
  have hof (s : Text) : (Separator.word w).pieces s = .of (findWord w) s := pieces_ofSearch _ s
  simp only [hof]
  rw [Pieces.of_eq (walks_findWord hw)]
  cases s.cut w with
  | none => rfl
  | some found => rfl

end Separator

namespace Token

variable {w s t : Text} {tokens : List Text} {i : Nat}

/-- Matches that take something separate, wherever they stand. -/
theorem separated_ofSearch {search : Search} (hl : search.Lawful) (h : search.Takes) (s : Text) :
    separated (.ofSearch search hl) s = (Separator.ofSearch search hl).pieces s := by
  rw [separated, separators, Separator.pieces, List.filter_eq_self.mpr]
  rintro _ hm
  have hlt := Pieces.lt_of_mem_spansFrom (Pieces.matched_ne_nil h s) _ hm
  exact decide_eq_true fun hfront => by simp [hfront] at hlt

theorem separated_word (hw : w ≠ []) (s : Text) :
    separated (.word w) s = (Separator.word w).pieces s :=
  separated_ofSearch (Separator.findWord_lawful w) (Separator.findWord_takes hw) s

theorem dropTrailingEmpty_concat (tokens : List Text) (t : Text) :
    dropTrailingEmpty (tokens ++ [t]) =
      if t = [] then dropTrailingEmpty tokens else tokens ++ [t] :=
  (List.rdropWhile_concat List.isEmpty tokens t).trans (if_congr List.isEmpty_iff rfl rfl)

/-- A token is dropped if no token from its place on has anything in it. -/
theorem getElem?_dropTrailingEmpty_eq (tokens : List Text) (i : Nat) :
    (dropTrailingEmpty tokens)[i]? = if ∀ t ∈ tokens.drop i, t = [] then none else tokens[i]? := by
  induction tokens using List.reverseRecOn with
  | nil => simp [dropTrailingEmpty]
  | append_singleton tokens t ih =>
      rw [dropTrailingEmpty_concat]
      rcases Nat.lt_or_ge i tokens.length with hi | hi
      · have hblank : (∀ x ∈ (tokens ++ [t]).drop i, x = []) ↔
            (∀ x ∈ tokens.drop i, x = []) ∧ t = [] := by
          rw [List.drop_append_of_le_length hi.le, List.forall_mem_append,
            List.forall_mem_singleton]
        simp only [hblank, List.getElem?_append_left hi]
        split
        · next ht => simp only [ih, ht, and_true]
        · next ht => rw [List.getElem?_append_left hi, if_neg fun h => ht h.2]
      · have hrest : (tokens ++ [t]).drop i = [t].drop (i - tokens.length) := by
          rw [List.drop_append, List.drop_eq_nil_of_le hi, List.nil_append]
        rw [hrest]
        split
        · next ht =>
            have hnone : ∀ x ∈ [t].drop (i - tokens.length), x = [] := fun x hx =>
              (List.mem_singleton.mp (List.mem_of_mem_drop hx)).trans ht
            rw [ih, List.drop_eq_nil_of_le hi, if_pos hnone, if_pos fun _ hx => nomatch hx]
        · next ht =>
            rw [List.getElem?_append_right hi]
            cases i - tokens.length with
            | zero => simp [ht]
            | succ k => simp

/-- A token that is not empty keeps its number when the empty ones at the end are dropped. -/
theorem getElem?_dropTrailingEmpty (ht : t ≠ []) :
    (dropTrailingEmpty tokens)[i]? = some t ↔ tokens[i]? = some t := by
  rw [getElem?_dropTrailingEmpty_eq]
  split
  · next hblank =>
      refine iff_of_false (fun hsome => nomatch hsome) fun hsome => ht (hblank t ?_)
      exact List.mem_iff_getElem?.mpr ⟨0, List.getElem?_drop.trans hsome⟩
  · rfl

theorem head?_between_pieces_word (hw : w ≠ []) (s : Text) :
    ((Separator.word w).pieces s).between.head? = some (s.upTo w) := by
  rw [Separator.pieces_word hw, Text.upTo]
  cases s.cut w with
  | none => rfl
  | some found => rfl

/-- The first token, unless it is empty, is what stands before the first occurrence of the word. -/
theorem nth_zero_word (hw : w ≠ []) (ht : t ≠ []) : nth (.word w) 0 s = some t ↔ s.upTo w = t := by
  have hfirst := head?_between_pieces_word hw s
  rw [nth, split, separated_word hw]
  split
  · next hwhole =>
      have hnone : s.cut w = none := by
        rw [Separator.pieces_word hw] at hwhole
        cases hcut : s.cut w with
        | none => rfl
        | some found => rw [hcut] at hwhole; cases hwhole
      rw [Text.upTo, hnone]
      exact Option.some_inj
  · rw [getElem?_dropTrailingEmpty ht, ← List.head?_eq_getElem?, hfirst]
    exact Option.some_inj

/-- The second token, unless it is empty, is what stands behind the first occurrence of the word up
to the second. -/
theorem nth_one_word (hw : w ≠ []) (ht : t ≠ []) :
    nth (.word w) 1 s = some t ↔
      ∃ before after, s.cut w = some (before, after) ∧ after.upTo w = t := by
  rw [nth, split, separated_word hw, Separator.pieces_word hw]
  cases hcut : s.cut w with
  | none => simp
  | some found =>
      obtain ⟨before, after⟩ := found
      have hfirst := head?_between_pieces_word hw after
      obtain ⟨tail, htail⟩ := List.head?_eq_some_iff.mp hfirst
      have hbetween : Pieces.between ⟨(before, w) :: ((Separator.word w).pieces after).cuts,
          ((Separator.word w).pieces after).rest⟩ = before :: after.upTo w :: tail :=
        congrArg (before :: ·) htail
      show (dropTrailingEmpty (Pieces.between _))[1]? = some t ↔ _
      rw [getElem?_dropTrailingEmpty ht, hbetween]
      constructor
      · intro h
        exact ⟨before, after, rfl, Option.some.inj h⟩
      · rintro ⟨_, _, hfound, rfl⟩
        cases hfound
        rfl

end Token

end CrashDigest
