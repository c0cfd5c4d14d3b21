import CrashDigest.Text.Basic

/-!
# Pieces of a text

A search finds the first match of something in a text, and the match cuts the
text in three. `Pieces.of` goes on behind every match, from left to right and
without overlap, and so cuts the whole text.

A match of nothing right where the last match ended does not count; the search
then goes on from the next character. So between two characters something
matches at most once, and every character is passed sooner or later.

Where the matches stand is told by spans. A text can be cut at any spans that
lie in it in order; cutting it and asking where it has been cut undo each other
(`Pieces.spans_ofSpans`, `Pieces.ofSpans_spans`).
-/

namespace CrashDigest

/-- A place where something matches, as a cut of the text in three. -/
structure Match where
  before : Text
  matched : Text
  after : Text
  deriving DecidableEq, Repr

/-- The match of `size` characters behind the first `start` characters. -/
def Match.ofSpan (start size : Nat) (s : Text) : Match :=
  let rest := s.drop start
  ⟨s.take start, rest.take size, rest.drop size⟩

/-- A stretch of a text: the number of characters in front of it, and in front of what follows. -/
structure Span where
  start : Nat
  stop : Nat
  deriving DecidableEq, Repr

/-- The span of a match that stands behind a place and a gap. -/
def Span.behind (place : Nat) (gap matched : Text) : Span :=
  ⟨place + gap.length, place + gap.length + matched.length⟩

/-- Whether some spans lie in a text in their order and do not overlap. They may be empty. -/
structure Span.InOrder (s : Text) (ms : List Span) : Prop where
  start_le : ∀ m ∈ ms, m.start ≤ m.stop
  stop_le : ∀ m ∈ ms, m.stop ≤ s.length
  ordered : ms.Pairwise fun a b => a.stop ≤ b.start

/-- A search: the first match in a text, given how many characters stand before the text. -/
abbrev Search := Nat → Text → Option Match

/-- A search that gives back the text: its match cuts the text in three and
changes nothing. -/
def Search.Lawful (search : Search) : Prop :=
  ∀ {offset : Nat} {s : Text} {m : Match}, search offset s = some m →
    m.before ++ m.matched ++ m.after = s

/-- The first match from a place on. Where a match has ended right at the place, `adjacent`, a match
of nothing there does not count. -/
def Search.next (search : Search) (adjacent : Bool) (offset : Nat) (s : Text) : Option Match :=
  match search offset s with
  | none => none
  | some m =>
      if adjacent && m.before.isEmpty && m.matched.isEmpty then
        match s with
        | [] => none
        | c :: rest => (search (offset + 1) rest).map fun m => { m with before := c :: m.before }
      else some m

/-- A text cut at some matches: each match with the text between it and the one before, and what
follows the last. -/
structure Pieces where
  cuts : List (Text × Text)
  rest : Text
  deriving DecidableEq, Repr

namespace Pieces

/-- Cutting on behind a place. `cuts` holds the matches so far, the latest first, and `fuel` bounds
the number of matches to come. -/
def cutFrom (search : Search) :
    Nat → (adjacent : Bool) → (offset : Nat) → List (Text × Text) → Text → Pieces
  | 0, _, _, cuts, s => ⟨cuts.reverse, s⟩
  | fuel + 1, adjacent, offset, cuts, s =>
      match search.next adjacent offset s with
      | none => ⟨cuts.reverse, s⟩
      | some m =>
          cutFrom search fuel true (offset + m.before.length + m.matched.length)
            ((m.before, m.matched) :: cuts) m.after

/-- The text cut at all the matches. There are at most as many as places between its characters. -/
def of (search : Search) (s : Text) : Pieces :=
  cutFrom search (s.length + 1) false 0 [] s

/-- Cutting on behind a place, at some spans. `cuts` holds what has been cut off so far, the latest
first. -/
def ofSpansFrom (cuts : List (Text × Text)) (place : Nat) : List Span → Text → Pieces
  | [], s => ⟨cuts.reverse, s⟩
  | m :: ms, s =>
      let found := Match.ofSpan (m.start - place) (m.stop - m.start) s
      ofSpansFrom ((found.before, found.matched) :: cuts) m.stop ms found.after

/-- The text cut at some spans. -/
def ofSpans (ms : List Span) (s : Text) : Pieces :=
  ofSpansFrom [] 0 ms s

/-- The spans of the matches in some cuts, the first of which begins at `place`. `found` holds the
spans in front of it, the latest first. -/
def spansFrom (found : List Span) (place : Nat) : List (Text × Text) → List Span
  | [] => found.reverse
  | (gap, matched) :: cuts =>
      spansFrom (.behind place gap matched :: found) (place + gap.length + matched.length) cuts

/-- Where the text has been cut. -/
def spans (p : Pieces) : List Span :=
  spansFrom [] 0 p.cuts

/-- The text that was cut. -/
def whole (p : Pieces) : Text :=
  (p.cuts.flatMap fun (gap, matched) => gap ++ matched) ++ p.rest

/-- What stands between the matches. -/
def between (p : Pieces) : List Text :=
  p.cuts.map Prod.fst ++ [p.rest]

/-- The same text, cut at the first `n` places only. -/
def firstCuts (n : Nat) (p : Pieces) : Pieces :=
  ⟨p.cuts.take n, whole ⟨p.cuts.drop n, p.rest⟩⟩

end Pieces

/-! ## Nothing is lost -/

theorem Match.ofSpan_append (start size : Nat) (s : Text) :
    (ofSpan start size s).before ++ (ofSpan start size s).matched ++
      (ofSpan start size s).after = s := by
  simp only [ofSpan]
  rw [List.append_assoc, List.take_append_drop, List.take_append_drop]

theorem Match.ofSpan_append_append (before matched after : Text) :
    ofSpan before.length matched.length (before ++ (matched ++ after)) =
      ⟨before, matched, after⟩ := by
  simp only [ofSpan, List.take_left, List.drop_left]

theorem Search.next_lawful {search : Search} (hl : search.Lawful)
    {adjacent : Bool} {offset : Nat} {s : Text} {m : Match}
    (h : search.next adjacent offset s = some m) :
    m.before ++ m.matched ++ m.after = s := by
  unfold Search.next at h
  split at h
  · cases h
  · next m' hm =>
      split at h
      · split at h
        · cases h
        · next c rest =>
            obtain ⟨m'', hm'', rfl⟩ := Option.map_eq_some_iff.mp h
            simp [← hl hm'', List.append_assoc]
      · cases h
        exact hl hm

namespace Pieces

variable {cuts : List (Text × Text)} {rest s : Text} {place : Nat} {ms : List Span}

theorem whole_cons (gap matched : Text) (cuts : List (Text × Text)) (rest : Text) :
    whole ⟨(gap, matched) :: cuts, rest⟩ = gap ++ matched ++ whole ⟨cuts, rest⟩ := by
  simp [whole]

theorem whole_cutFrom {search : Search} (hl : search.Lawful) (fuel : Nat)
    (adjacent : Bool) (offset : Nat) (cuts : List (Text × Text)) (s : Text) :
    (cutFrom search fuel adjacent offset cuts s).whole =
      (cuts.reverse.flatMap fun (gap, matched) => gap ++ matched) ++ s := by
  induction fuel generalizing adjacent offset cuts s with
  | zero => rfl
  | succ fuel ih =>
      rw [cutFrom]
      split
      · rfl
      · next m hm =>
          rw [ih]
          simp [← Search.next_lawful hl hm, List.append_assoc]

/-- Cutting a text at all the matches of a search loses nothing of it. -/
theorem whole_of {search : Search} (hl : search.Lawful) (s : Text) :
    (of search s).whole = s := by
  simpa [of] using whole_cutFrom hl (s.length + 1) false 0 [] s

theorem whole_ofSpansFrom (cuts : List (Text × Text)) (place : Nat) (ms : List Span) (s : Text) :
    (ofSpansFrom cuts place ms s).whole =
      (cuts.reverse.flatMap fun (gap, matched) => gap ++ matched) ++ s := by
  induction ms generalizing cuts place s with
  | nil => rfl
  | cons m ms ih =>
      have hfound := Match.ofSpan_append (m.start - place) (m.stop - m.start) s
      rw [ofSpansFrom, ih]
      simp only [List.reverse_cons, List.flatMap_append, List.flatMap_singleton,
        List.append_assoc] at hfound ⊢
      rw [hfound]

theorem whole_ofSpans (ms : List Span) (s : Text) : (ofSpans ms s).whole = s :=
  whole_ofSpansFrom [] 0 ms s

theorem whole_firstCuts (n : Nat) (p : Pieces) : (p.firstCuts n).whole = p.whole := by
  simp only [firstCuts, whole]
  rw [← List.append_assoc, ← List.flatMap_append, List.take_append_drop]

/-! ## Where a text is cut -/

theorem spansFrom_eq (found : List Span) (place : Nat) (cuts : List (Text × Text)) :
    spansFrom found place cuts = found.reverse ++ spansFrom [] place cuts := by
  induction cuts generalizing found place with
  | nil => simp [spansFrom]
  | cons cut cuts ih =>
      rw [spansFrom, spansFrom, ih, ih [_], List.reverse_cons, List.append_assoc]
      rfl

theorem spansFrom_cons (place : Nat) (gap matched : Text) (cuts : List (Text × Text)) :
    spansFrom [] place ((gap, matched) :: cuts) =
      .behind place gap matched :: spansFrom [] (place + gap.length + matched.length) cuts := by
  rw [spansFrom, spansFrom_eq]
  rfl

theorem ofSpansFrom_eq (cuts : List (Text × Text)) (place : Nat) (ms : List Span) (s : Text) :
    ofSpansFrom cuts place ms s =
      ⟨cuts.reverse ++ (ofSpansFrom [] place ms s).cuts, (ofSpansFrom [] place ms s).rest⟩ := by
  induction ms generalizing cuts place s with
  | nil => simp [ofSpansFrom]
  | cons m ms ih =>
      rw [ofSpansFrom, ofSpansFrom, ih, ih [_]]
      simp

theorem ofSpansFrom_spansFrom (place : Nat) (cuts : List (Text × Text)) (rest : Text) :
    ofSpansFrom [] place (spansFrom [] place cuts) (whole ⟨cuts, rest⟩) = ⟨cuts, rest⟩ := by
  induction cuts generalizing place with
  | nil => rfl
  | cons cut cuts ih =>
      obtain ⟨gap, matched⟩ := cut
      rw [spansFrom_cons, ofSpansFrom, Span.behind, Nat.add_sub_cancel_left,
        Nat.add_sub_cancel_left, whole_cons, List.append_assoc, Match.ofSpan_append_append,
        ofSpansFrom_eq, ih]
      rfl

/-- A text that is cut where it has been cut falls into the same pieces. -/
theorem ofSpans_spans (p : Pieces) : ofSpans p.spans p.whole = p :=
  ofSpansFrom_spansFrom 0 p.cuts p.rest

/-- A span that is cut off what is left of a text stands where it did. -/
theorem behind_ofSpan {m : Span} (hplace : place ≤ m.start) (hstart : m.start ≤ m.stop)
    (hstop : m.stop ≤ s.length) :
    let found := Match.ofSpan (m.start - place) (m.stop - m.start) (s.drop place)
    Span.behind place found.before found.matched = m ∧ found.after = s.drop m.stop := by
  obtain ⟨start, stop⟩ := m
  simp only [Match.ofSpan, Span.behind, List.length_take, List.length_drop, List.drop_drop,
    Span.mk.injEq] at *
  exact ⟨⟨by omega, by omega⟩, congrArg (s.drop ·) (by omega)⟩

theorem spansFrom_ofSpansFrom (hplace : ∀ m ∈ ms, place ≤ m.start) (h : Span.InOrder s ms) :
    spansFrom [] place (ofSpansFrom [] place ms (s.drop place)).cuts = ms := by
  induction ms generalizing place with
  | nil => rfl
  | cons m ms ih =>
      obtain ⟨hfirst, hmore⟩ := List.pairwise_cons.mp h.ordered
      obtain ⟨hbehind, hafter⟩ := behind_ofSpan (hplace m List.mem_cons_self)
        (h.start_le m List.mem_cons_self) (h.stop_le m List.mem_cons_self)
      rw [ofSpansFrom, hafter, ofSpansFrom_eq, List.reverse_singleton, List.singleton_append,
        spansFrom_cons]
      show Span.behind place _ _ :: spansFrom [] (Span.behind place _ _).stop _ = m :: ms
      rw [hbehind]
      refine congrArg (m :: ·) (ih hfirst ⟨?_, ?_, hmore⟩)
      · exact fun x hx => h.start_le x (List.mem_cons_of_mem m hx)
      · exact fun x hx => h.stop_le x (List.mem_cons_of_mem m hx)

/-- A text that is cut at some spans has been cut there. -/
theorem spans_ofSpans (h : Span.InOrder s ms) : (ofSpans ms s).spans = ms :=
  spansFrom_ofSpansFrom (fun _ _ => Nat.zero_le _) h

theorem inOrder_spansFrom (place : Nat) (cuts : List (Text × Text)) (rest : Text) :
    (∀ m ∈ spansFrom [] place cuts, place ≤ m.start ∧ m.start ≤ m.stop ∧
      m.stop ≤ place + (whole ⟨cuts, rest⟩).length) ∧
    (spansFrom [] place cuts).Pairwise fun a b => a.stop ≤ b.start := by
  induction cuts generalizing place with
  | nil => simp [spansFrom]
  | cons cut cuts ih =>
      obtain ⟨gap, matched⟩ := cut
      obtain ⟨hfit, hordered⟩ := ih (place + gap.length + matched.length)
      rw [spansFrom_cons, whole_cons]
      simp only [List.forall_mem_cons, List.pairwise_cons, Span.behind, List.length_append]
      refine ⟨⟨by omega, fun m hm => ?_⟩, fun m hm => (hfit m hm).1, hordered⟩
      have hm := hfit m hm
      omega

theorem inOrder_spans (p : Pieces) : Span.InOrder p.whole p.spans where
  start_le m hm := ((inOrder_spansFrom 0 p.cuts p.rest).1 m hm).2.1
  stop_le m hm := (Nat.zero_add p.whole.length) ▸ ((inOrder_spansFrom 0 p.cuts p.rest).1 m hm).2.2
  ordered := (inOrder_spansFrom 0 p.cuts p.rest).2

end Pieces

end CrashDigest
