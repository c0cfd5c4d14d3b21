import CrashDigest.Proofs.WordTokens

/-!
# Tokens between characters

Most separators are a single character, and then the pieces of a text are those
of `List.splitOn` (`Separator.between_pieces_char`). Whether a token is there at
all is another matter: the empty tokens at the end of a text are dropped, so a
token is missing exactly if nothing but separators follows in its place
(`Token.nth_char`). The first token and the one behind the first separator are
the ones that the scans ask for.

A run of a character separates as one, and then what is left once an empty
first token does not count are the words of the text, in their order
(`Token.nthCollapsed_run`).
-/

namespace CrashDigest

variable {s front rest : Text} {c : Char}

namespace Text

theorem forall_ne_of_not_mem (h : c ∉ s) : ∀ d ∈ s, decide (d ≠ c) = true :=
  fun _ hd => decide_eq_true fun hdc => h (hdc ▸ hd)

theorem cut_char_of_not_mem (h : c ∉ s) : s.cut [c] = none := by
  refine Option.eq_none_iff_forall_ne_some.mpr fun (before, after) hcut => h ?_
  rw [cut_eq_some hcut]
  simp

theorem upTo_char (s : Text) (c : Char) : s.upTo [c] = s.takeWhile (· ≠ c) := by
  rw [upTo]
  by_cases h : c ∈ s
  · obtain ⟨front, rest, rfl, hfront⟩ := List.eq_append_cons_of_mem h
    rw [← List.singleton_append, cut_singleton_append hfront,
      List.takeWhile_append_of_pos (forall_ne_of_not_mem hfront)]
    simp
  · rw [cut_char_of_not_mem h]
    exact (List.takeWhile_eq_self_iff.mpr (forall_ne_of_not_mem h)).symm

/-- What stands between the occurrences of a character is the text without them. -/
theorem flatten_splitOn (s : Text) (c : Char) : (s.splitOn c).flatten = s.filter (· ≠ c) := by
  induction s with
  | nil => rfl
  | cons d s ih =>
      obtain ⟨first, tokens, hs⟩ := List.exists_cons_of_ne_nil (List.splitOn_ne_nil c s)
      rw [List.splitOn_cons_eq_if_modifyHead]
      by_cases hd : d = c
      · simp [hd, ih]
      · simpa [hd, hs] using ih

/-- Nothing stands between them in a text of that character only. -/
theorem splitOn_blank_iff : (∀ t ∈ s.splitOn c, t = []) ↔ s.all (· = c) = true := by
  rw [← List.flatten_eq_nil_iff, flatten_splitOn, List.filter_eq_nil_iff]
  simp

end Text

/-! ## One character -/

theorem Separator.between_pieces_char (c : Char) (s : Text) :
    ((Separator.word [c]).pieces s).between = s.splitOn c := by
  induction s using Text.induction_on_first c with
  | absent s h =>
      rw [pieces_word (List.cons_ne_nil c []), Text.cut_char_of_not_mem h,
        List.splitOn_eq_singleton h]
      rfl
  | first front rest hfront ih =>
      rw [pieces_word (List.cons_ne_nil c []), List.splitOn_append_cons_self,
        List.splitOn_eq_singleton hfront, ← ih, ← List.singleton_append (x := c),
        Text.cut_singleton_append hfront]
      rfl

namespace Token

variable {tokens : List Text} {i : Nat}

/-- Token `i` between the occurrences of a character, unless nothing but that character follows from
its place on. -/
theorem nth_char (h : c ∈ s) (i : Nat) :
    nth (.word [c]) i s =
      if ∀ t ∈ (s.splitOn c).drop i, t = [] then none else (s.splitOn c)[i]? := by
  have hseparated : (separated (.word [c]) s).between = s.splitOn c := by
    rw [separated_word (List.cons_ne_nil c []), Separator.between_pieces_char]
  have hcuts : (separated (.word [c]) s).cuts.isEmpty = false := by
    obtain ⟨front, rest, rfl, hfront⟩ := List.eq_append_cons_of_mem h
    rw [separated_word (List.cons_ne_nil c []), Separator.pieces_word (List.cons_ne_nil c []),
      ← List.singleton_append (x := c), Text.cut_singleton_append hfront]
    rfl
  rw [nth, split, hcuts, if_neg Bool.false_ne_true, hseparated, getElem?_dropTrailingEmpty_eq]

theorem nth_char_of_not_mem (h : c ∉ s) (i : Nat) : nth (.word [c]) i s = [s][i]? := by
  rw [nth, split, separated_word (List.cons_ne_nil c []),
    Separator.pieces_word (List.cons_ne_nil c []), Text.cut_char_of_not_mem h]
  rfl

/-- The first token is what stands before the character, which may be nothing. It is missing in a
text that has nothing else but the character. -/
theorem nth_zero_char (s : Text) (c : Char) :
    nth (.word [c]) 0 s =
      if s ≠ [] ∧ s.all (· = c) then none else some (s.takeWhile (· ≠ c)) := by
  have hhead := head?_between_pieces_word (List.cons_ne_nil c []) s
  rw [Separator.between_pieces_char, List.head?_eq_getElem?, Text.upTo_char] at hhead
  by_cases h : c ∈ s
  · rw [nth_char h, List.drop_zero, hhead]
    have hmore := (and_iff_right (b := s.all (· = c) = true) (List.ne_nil_of_mem h)).symm
    exact if_congr (Text.splitOn_blank_iff.trans hmore) rfl rfl
  · rw [nth_char_of_not_mem h, ← hhead, List.splitOn_eq_singleton h, if_neg]
    rintro ⟨hne, hall⟩
    obtain ⟨d, hd⟩ := List.exists_mem_of_ne_nil s hne
    exact h (of_decide_eq_true (List.all_eq_true.mp hall d hd) ▸ hd)

/-- The second token is what stands behind the first occurrence of the character up to the next,
which may be nothing. It is missing where nothing but the character follows. -/
theorem nth_one_char (h : c ∉ front) (rest : Text) :
    nth (.word [c]) 1 (front ++ c :: rest) =
      if rest.all (· = c) then none else some (rest.takeWhile (· ≠ c)) := by
  have hhead := head?_between_pieces_word (List.cons_ne_nil c []) rest
  rw [Separator.between_pieces_char, List.head?_eq_getElem?, Text.upTo_char] at hhead
  rw [nth_char (by simp), List.splitOn_append_cons_self, List.splitOn_eq_singleton h,
    List.singleton_append, List.drop_one, List.tail_cons, List.getElem?_cons_succ, hhead]
  exact if_congr Text.splitOn_blank_iff rfl rfl

theorem nth_zero_char_eq_some_iff {t : Text} :
    nth (.word [c]) 0 s = some t ↔ (s = [] ∨ ∃ d ∈ s, d ≠ c) ∧ t = s.takeWhile (· ≠ c) := by
  have htold : (s = [] ∨ ∃ d ∈ s, d ≠ c) ↔ ¬ (s ≠ [] ∧ s.all (· = c) = true) := by
    rw [not_and_or, not_not]
    simp
  rw [nth_zero_char, htold]
  split
  · next hnone => exact iff_of_false (Option.some_ne_none t).symm fun h => h.1 hnone
  · next hsome => rw [and_iff_right hsome, Option.some_inj, eq_comm]

theorem nth_one_char_eq_some_iff {t : Text} :
    nth (.word [c]) 1 s = some t ↔
      ∃ before after, s = before ++ c :: after ∧ c ∉ before ∧ (∃ d ∈ after, d ≠ c) ∧
        t = after.takeWhile (· ≠ c) := by
  constructor
  · intro h
    have hc : c ∈ s := by
      by_contra hc
      rw [nth_char_of_not_mem hc] at h
      cases h
    obtain ⟨before, after, rfl, hbefore⟩ := List.eq_append_cons_of_mem hc
    rw [nth_one_char hbefore] at h
    split at h
    · cases h
    · next hmore =>
        exact ⟨before, after, rfl, hbefore, by simpa using hmore, (Option.some.inj h).symm⟩
  · rintro ⟨before, after, rfl, hbefore, ⟨d, hd, hne⟩, rfl⟩
    have hmore : ¬ after.all (· = c) = true :=
      fun hall => hne (of_decide_eq_true (List.all_eq_true.mp hall d hd))
    rw [nth_one_char hbefore, if_neg hmore]

end Token

/-! ## Runs of a character -/

namespace Text

/-- The words of a text in which a character stands between words. -/
def words (c : Char) (s : Text) : List Text :=
  (s.splitOn c).filter (· ≠ [])

theorem ne_nil_of_mem_words {w : Text} (h : w ∈ words c s) : w ≠ [] :=
  of_decide_eq_true (List.mem_filter.mp h).2

theorem words_append (front rest : Text) :
    words c (front ++ c :: rest) = words c front ++ words c rest := by
  rw [words, List.splitOn_append_cons_self, List.filter_append, words, words]

theorem words_cons_self (c : Char) (s : Text) : words c (c :: s) = words c s :=
  words_append [] s

theorem words_of_not_mem (hs : s ≠ []) (h : c ∉ s) : words c s = [s] := by
  rw [words, List.splitOn_eq_singleton h, List.filter_singleton, decide_eq_true hs]
  rfl

theorem words_dropWhile (c : Char) (s : Text) : words c (s.dropWhile (· = c)) = words c s := by
  induction s with
  | nil => rfl
  | cons d s ih =>
      rw [List.dropWhile_cons]
      split
      · next hd => rw [ih, of_decide_eq_true hd, words_cons_self]
      · rfl

theorem head?_dropWhile_ne (s : Text) (c : Char) : (s.dropWhile (· = c)).head? ≠ some c := by
  intro hhead
  have hnot := List.head?_dropWhile_not (fun d => decide (d = c)) s
  rw [hhead] at hnot
  simp at hnot

end Text

namespace Separator

theorem findRun_of_not_mem (h : c ∉ s) (offset : Nat) : findRun c offset s = none := by
  rw [findRun, List.dropWhile_eq_nil_iff.mpr (Text.forall_ne_of_not_mem h)]

theorem findRun_append (h : c ∉ front) (rest : Text) (offset : Nat) :
    findRun c offset (front ++ c :: rest) =
      some ⟨front, c :: rest.takeWhile (· = c), rest.dropWhile (· = c)⟩ := by
  have hfront := Text.forall_ne_of_not_mem h
  rw [findRun, List.takeWhile_append_of_pos hfront, List.dropWhile_append_of_pos hfront]
  simp

theorem findRun_takes (c : Char) : Search.Takes (findRun c) := by
  intro offset s m hm
  by_cases h : c ∈ s
  · obtain ⟨front, rest, rfl, hfront⟩ := List.eq_append_cons_of_mem h
    rw [findRun_append hfront] at hm
    exact Option.some.inj hm ▸ List.cons_ne_nil c _
  · rw [findRun_of_not_mem h] at hm
    cases hm

theorem walks_findRun (c : Char) : Search.Walks (findRun c) (findRun c 0) where
  next := by
    intro adjacent offset s
    by_cases h : c ∈ s
    · obtain ⟨front, rest, rfl, hfront⟩ := List.eq_append_cons_of_mem h
      unfold Search.next
      rw [findRun_append hfront, findRun_append hfront]
      simp
    · unfold Search.next
      rw [findRun_of_not_mem h, findRun_of_not_mem h]
  shortens := by
    intro s m hm
    by_cases h : c ∈ s
    · obtain ⟨front, rest, rfl, hfront⟩ := List.eq_append_cons_of_mem h
      rw [findRun_append hfront] at hm
      obtain rfl := Option.some.inj hm
      have hafter := (List.dropWhile_suffix (l := rest) fun d => decide (d = c)).length_le
      simp
      omega
    · rw [findRun_of_not_mem h] at hm
      cases hm

theorem pieces_run_of_not_mem (h : c ∉ s) : (Separator.run c).pieces s = ⟨[], s⟩ := by
  rw [run, pieces_ofSearch, Pieces.of_eq (walks_findRun c), findRun_of_not_mem h]

theorem pieces_run_append (h : c ∉ front) (rest : Text) :
    (Separator.run c).pieces (front ++ c :: rest) =
      ⟨(front, c :: rest.takeWhile (· = c)) ::
          ((Separator.run c).pieces (rest.dropWhile (· = c))).cuts,
        ((Separator.run c).pieces (rest.dropWhile (· = c))).rest⟩ := by
  have hof (s : Text) : (Separator.run c).pieces s = .of (findRun c) s := pieces_ofSearch _ s
  simp only [hof]
  rw [Pieces.of_eq (walks_findRun c), findRun_append h]

/-- A text that starts with a word is cut in its words, and what stands behind the last run may be
empty. -/
theorem exists_between_run (h : s.head? ≠ some c) :
    ∃ k, ((Separator.run c).pieces s).between = Text.words c s ++ List.replicate k [] := by
  induction hlength : s.length using Nat.strong_induction_on generalizing s with
  | _ n ih =>
      subst hlength
      by_cases hc : c ∈ s
      · obtain ⟨front, rest, rfl, hfront⟩ := List.eq_append_cons_of_mem hc
        have hne : front ≠ [] := by
          rintro rfl
          exact h rfl
        have hshort := (List.dropWhile_suffix (l := rest) fun d => decide (d = c)).length_le
        obtain ⟨k, hk⟩ := ih _ (by simp; omega) (Text.head?_dropWhile_ne rest c) rfl
        refine ⟨k, ?_⟩
        rw [pieces_run_append hfront, Text.words_append, Text.words_of_not_mem hne hfront,
          ← Text.words_dropWhile c rest, List.append_assoc, ← hk]
        rfl
      · rw [pieces_run_of_not_mem hc]
        by_cases hne : s = []
        · exact ⟨1, by rw [hne]; rfl⟩
        · exact ⟨0, by rw [Text.words_of_not_mem hne hc]; rfl⟩

/-- A text that starts with the character has an empty piece in front of them. -/
theorem exists_between_run_cons (c : Char) (rest : Text) :
    ∃ k, ((Separator.run c).pieces (c :: rest)).between =
      [] :: Text.words c (c :: rest) ++ List.replicate k [] := by
  obtain ⟨k, hk⟩ := exists_between_run (Text.head?_dropWhile_ne rest c)
  refine ⟨k, ?_⟩
  rw [← List.nil_append (c :: rest), pieces_run_append List.not_mem_nil, List.nil_append,
    Text.words_cons_self, ← Text.words_dropWhile, List.cons_append, ← hk]
  rfl

end Separator

namespace Token

theorem separated_run (c : Char) (s : Text) :
    separated (.run c) s = (Separator.run c).pieces s :=
  separated_ofSearch (Separator.findRun_lawful c) (Separator.findRun_takes c) s

theorem dropTrailingEmpty_append_replicate (tokens : List Text) (k : Nat) :
    dropTrailingEmpty (tokens ++ List.replicate k []) = dropTrailingEmpty tokens := by
  induction k with
  | zero => simp
  | succ k ih =>
      rw [List.replicate_succ', ← List.append_assoc, dropTrailingEmpty_concat, if_pos rfl, ih]

theorem dropTrailingEmpty_eq_self (h : ∀ hne : tokens ≠ [], tokens.getLast hne ≠ []) :
    dropTrailingEmpty tokens = tokens :=
  List.rdropWhile_eq_self_iff.mpr fun hne hempty => h hne (List.isEmpty_iff.mp hempty)

/-- The tokens between runs of a character are the words, and an empty one may stand in front. -/
theorem split_run (c : Char) (s : Text) :
    split (.run c) s = Text.words c s ∨ split (.run c) s = [] :: Text.words c s := by
  have hwords : ∀ hne : Text.words c s ≠ [], (Text.words c s).getLast hne ≠ [] :=
    fun hne => Text.ne_nil_of_mem_words (List.getLast_mem hne)
  by_cases hc : c ∈ s
  · have hcuts : (separated (.run c) s).cuts.isEmpty = false := by
      obtain ⟨front, rest, rfl, hfront⟩ := List.eq_append_cons_of_mem hc
      rw [separated_run, Separator.pieces_run_append hfront]
      rfl
    rw [split, hcuts, if_neg Bool.false_ne_true, separated_run]
    by_cases hhead : s.head? = some c
    · -- the empty token in front stays unless it is the last one as well
      obtain ⟨rest, rfl⟩ := List.head?_eq_some_iff.mp hhead
      obtain ⟨k, hk⟩ := Separator.exists_between_run_cons c rest
      rw [hk, dropTrailingEmpty_append_replicate]
      rcases hnone : Text.words c (c :: rest) with _ | ⟨word, more⟩
      · exact Or.inl rfl
      · rw [hnone] at hwords
        exact Or.inr (dropTrailingEmpty_eq_self fun _ => hwords (List.cons_ne_nil word more))
    · obtain ⟨k, hk⟩ := Separator.exists_between_run hhead
      rw [hk, dropTrailingEmpty_append_replicate]
      exact Or.inl (dropTrailingEmpty_eq_self hwords)
  · rw [split, separated_run, Separator.pieces_run_of_not_mem hc]
    by_cases hne : s = []
    · exact Or.inr (by rw [hne]; rfl)
    · exact Or.inl (by rw [Text.words_of_not_mem hne hc]; rfl)

/-- Where an empty first token does not count, token `i` is word `i`. -/
theorem nthCollapsed_run (c : Char) (i : Nat) (s : Text) :
    nthCollapsed (.run c) i s = (Text.words c s)[i]? := by
  rw [nthCollapsed]
  rcases split_run c s with hsplit | hsplit
  · rw [hsplit]
    split
    · next rest hwords => exact absurd rfl (Text.ne_nil_of_mem_words (hwords ▸ List.mem_cons_self))
    · rfl
  · rw [hsplit]
    rfl

end Token

end CrashDigest
