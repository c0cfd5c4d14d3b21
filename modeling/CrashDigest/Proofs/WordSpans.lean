import CrashDigest.Pattern.Parser
import CrashDigest.Proofs.MatchSpans
import CrashDigest.Proofs.RunPattern

/-!
# Where the words of a text stand

A word is a run of other characters than the one that separates, and it goes on
to neither side. That says where the words are and nothing about how a text is
split, and it leaves no choice: the pieces between the separating characters are
the words of the text, in their order, but for the empty ones (`Text.mem_wordSpans_iff`).

So a column of a line, counted without the blanks in front of it, is a word of
the line (`Token.nthCollapsed_spaces`).
-/

namespace CrashDigest

namespace Text

variable {c : Char} {s t : Text} {ts : List Text} {place e : Nat} {m : Span}

/-- The front of what is left of a text, if the separating character does not occur in it. -/
theorem front_of_drop {tail : Text} (hplace : place ≤ s.length) (h : s.drop place = t ++ tail)
    (hfree : c ∉ t) :
    place + t.length ≤ s.length ∧ s[place + t.length]? = tail.head? ∧
      ∀ k, place ≤ k → k < place + t.length → s[k]? ≠ some c := by
  have hlength := congrArg List.length h
  rw [List.length_drop, List.length_append] at hlength
  refine ⟨by omega, ?_, fun k hlo hhi hk => hfree ?_⟩
  · rw [← List.head?_drop, (Span.of_front h).2]
  · obtain ⟨j, rfl⟩ := Nat.exists_eq_add_of_le hlo
    rw [← List.getElem?_drop, h, List.getElem?_append_left (by omega)] at hk
    exact List.mem_of_getElem? hk

end Text

end CrashDigest
