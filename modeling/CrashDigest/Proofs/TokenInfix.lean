import CrashDigest.Probe
import CrashDigest.Proofs.TextCut

/-!
# A token is a piece of its text

Every separator cuts a text without changing it: the pieces, with the matches
put back between them, are the text that was cut (`Pieces.whole_ofSpans`). So
nothing is made up on the way from a line to a value.
`Probe.isInfix_of_read` is the statement the scans rest on: what a probe reads off a
line stands in that line, in one piece.
-/

namespace CrashDigest

namespace Pieces

/-- What stands between two matches stands in the text, in one piece. -/
theorem infix_of_mem_between {p : Pieces} {t : Text} (h : t ∈ p.between) :
    t <:+: p.whole := by
  rcases List.mem_append.mp h with hgap | hrest
  · obtain ⟨⟨gap, matched⟩, hmem, rfl⟩ := List.mem_map.mp hgap
    obtain ⟨front, back, hcuts⟩ := List.append_of_mem hmem
    refine ⟨front.flatMap fun cut => cut.1 ++ cut.2,
      matched ++ (back.flatMap fun cut => cut.1 ++ cut.2) ++ p.rest, ?_⟩
    simp [whole, hcuts, List.append_assoc]
  · obtain rfl := List.mem_singleton.mp hrest
    exact (List.suffix_append _ _).isInfix

end Pieces

/-! ## Tokens -/

namespace Token

variable {sep : Separator} {i : Nat} {s t : Text}

/-- Whatever separates, and whatever is left out at the front, leaves the text whole. -/
theorem whole_separated (sep : Separator) (s : Text) : (separated sep s).whole = s :=
  Pieces.whole_ofSpans (separators sep s) s

theorem infix_of_mem_separated (h : t ∈ (separated sep s).between) : t <:+: s := by
  simpa only [whole_separated] using Pieces.infix_of_mem_between h

theorem mem_of_mem_dropTrailingEmpty {tokens : List Text}
    (h : t ∈ dropTrailingEmpty tokens) : t ∈ tokens := by
  have hrev := (List.dropWhile_sublist _).subset (List.mem_reverse.mp h)
  exact List.mem_reverse.mp hrev

theorem infix_of_mem_split (h : t ∈ split sep s) : t <:+: s := by
  simp only [split] at h
  split at h
  · obtain rfl := List.mem_singleton.mp h
    exact List.infix_rfl
  · exact infix_of_mem_separated (mem_of_mem_dropTrailingEmpty h)

theorem isInfix_of_nth (h : nth sep i s = some t) : t <:+: s :=
  infix_of_mem_split (List.mem_of_getElem? h)

theorem isInfix_of_nthOnward (h : nthOnward sep i s = some t) : t <:+: s := by
  have hmem := Pieces.infix_of_mem_between (List.mem_of_getElem? h)
  rwa [Pieces.whole_firstCuts, whole_separated] at hmem

theorem isInfix_of_nthCollapsed (h : nthCollapsed sep i s = some t) : t <:+: s := by
  simp only [nthCollapsed] at h
  split at h
  all_goals exact infix_of_mem_split (List.mem_of_getElem? h)

end Token

/-! ## Probes -/

theorem Piece.isInfix_of {p : Piece} {line v : Text} (h : p.of line = some v) :
    v <:+: line := by
  cases p with
  | lineWith word | lineStarting word =>
      simp only [Piece.of] at h
      split at h
      · cases h
        exact List.infix_rfl
      · cases h
  | lineFrom word =>
      obtain ⟨⟨before, after⟩, hcut, rfl⟩ := Option.map_eq_some_iff.mp h
      exact (Text.cut_snd_suffix hcut).isInfix
  | lineFromAny words =>
      obtain ⟨⟨before, rest⟩, hseek, rfl⟩ := Option.map_eq_some_iff.mp h
      exact ⟨before, [], by simpa using (Text.seek_eq_some hseek).1⟩
  | lineThrough word later =>
      obtain ⟨⟨before, after⟩, hcut, h⟩ := Option.bind_eq_some_iff.mp h
      simp only [] at h
      split at h
      · cases h
        exact (Text.cut_snd_suffix hcut).isInfix
      · cases h
  | span first last =>
      obtain ⟨⟨before, after⟩, hcut, h⟩ := Option.bind_eq_some_iff.mp h
      obtain ⟨⟨between, behind⟩, hlast, rfl⟩ := Option.map_eq_some_iff.mp h
      refine ⟨before, behind, ?_⟩
      rw [Text.cut_eq_some hcut, Text.cutLast_eq_some hlast]
      simp [List.append_assoc]
  | matching pattern =>
      obtain ⟨m, hm, rfl⟩ := Option.map_eq_some_iff.mp h
      exact ⟨m.before, m.after, pattern.automaton.find_lawful hm⟩

theorem Part.isInfix_of {p : Part} {piece v : Text} (h : p.of piece = some v) :
    v <:+: piece := by
  cases p with
  | whole =>
      cases h
      exact List.infix_rfl
  | token sep i => exact Token.isInfix_of_nth h
  | onward sep i => exact Token.isInfix_of_nthOnward h

/-- What a probe reads off a line stands in the line, in one piece. -/
theorem Probe.isInfix_of_read {p : Probe} {line v : Text} (h : p.read line = some v) :
    v <:+: line := by
  obtain ⟨piece, hpiece, hpart⟩ := Option.bind_eq_some_iff.mp h
  exact (Part.isInfix_of hpart).trans (Piece.isInfix_of hpiece)

end CrashDigest
