import CrashDigest.Pattern.Search
import CrashDigest.Proofs.TextCut

/-!
# Separators

What stands between two tokens. How its matches are found is the separator's own
affair, and it may look at as much of the text as it likes; all that the
splitting of a text uses is that they come in their order and do not overlap.

Here a separator is a word, one character or more of a kind, or whatever a
pattern matches. Most are words, and finding them needs no automaton.
-/

namespace CrashDigest

/-- What separates tokens: its matches in every text, from left to right. A match may be one of
nothing. -/
structure Separator where
  spans : Text → List Span
  inOrder : ∀ s, Span.InOrder s (spans s)

namespace Separator

/-- What a search finds, each time behind the match before. -/
def ofSearch (search : Search) (h : search.Lawful) : Separator where
  spans s := (Pieces.of search s).spans
  inOrder s := by
    have hspans := (Pieces.of search s).inOrder_spans
    rwa [Pieces.whole_of h] at hspans

/-- The text cut at all the separators in it. -/
def pieces (sep : Separator) (s : Text) : Pieces :=
  .ofSpans (sep.spans s) s

/-! ## Words -/

/-- The first occurrence of a word. -/
def findWord (w : Text) : Search := fun _ s =>
  if w.isEmpty then none else (s.cut w).map fun (before, after) => ⟨before, w, after⟩

theorem findWord_lawful (w : Text) : Search.Lawful (findWord w) := by
  intro offset s m h
  unfold findWord at h
  split at h
  · cases h
  · obtain ⟨⟨before, after⟩, hcut, rfl⟩ := Option.map_eq_some_iff.mp h
    exact (Text.cut_eq_some hcut).symm

/-- A word. The empty word separates nothing. -/
def word (w : Text) : Separator := .ofSearch (findWord w) (findWord_lawful w)

/-! ## Runs -/

/-- The first unbroken row of a character. -/
def findRun (c : Char) : Search := fun _ s =>
  match s.dropWhile (· ≠ c) with
  | [] => none
  | rest => some ⟨s.takeWhile (· ≠ c), rest.takeWhile (· = c), rest.dropWhile (· = c)⟩

theorem findRun_lawful (c : Char) : Search.Lawful (findRun c) := by
  intro offset s m h
  rw [findRun] at h
  split at h
  · cases h
  · cases h
    simp only [List.append_assoc, List.takeWhile_append_dropWhile]

/-- One time or more this character. -/
def run (c : Char) : Separator := .ofSearch (findRun c) (findRun_lawful c)

/-! ## Patterns -/

/-- What a pattern matches. -/
def matching (p : Pattern) : Separator := .ofSearch p.automaton.find p.automaton.find_lawful

/-! ## Equalities -/

/-- Two searches that find the same are the same separator. -/
theorem ofSearch_congr {search search' : Search} (h : search = search') (hl : search.Lawful)
    (hl' : search'.Lawful) : ofSearch search hl = ofSearch search' hl' := by
  subst h
  rfl

theorem pieces_ofSearch {search : Search} (hl : search.Lawful) (s : Text) :
    (ofSearch search hl).pieces s = .of search s := by
  have hpieces := Pieces.ofSpans_spans (.of search s)
  rwa [Pieces.whole_of hl] at hpieces

end Separator

end CrashDigest
