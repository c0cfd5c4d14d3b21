import CrashDigest.Files.Artifact
import CrashDigest.Probe
import CrashDigest.Slot
import CrashDigest.Text.Blank
import CrashDigest.Proofs.LineCutting
import CrashDigest.Proofs.TokenInfix
import CrashDigest.Proofs.Utf8

/-!
# Texts of one line

A record is a text of lines, so what goes into it must not hold a line feed.
The lines of an artifact do not: they are cut at the bytes 0x0A, and decoding
makes no line feed of anything else. From there on the property only has to be
handed down: whatever is a piece of such a line, and whatever is glued together
from such pieces, is of one line again.
-/

namespace CrashDigest

/-- Whether a text stays within one line. -/
def Text.OneLine (s : Text) : Prop := '\n' ∉ s

instance (s : Text) : Decidable s.OneLine := inferInstanceAs (Decidable ('\n' ∉ s))

namespace Text.OneLine

variable {s t : Text}

theorem nil : OneLine [] := List.not_mem_nil

theorem of_subset (hs : s.OneLine) (h : t ⊆ s) : t.OneLine := fun ht => hs (h ht)

theorem of_isInfix (hs : s.OneLine) (h : t <:+: s) : t.OneLine :=
  hs.of_subset h.subset

theorem append (hs : s.OneLine) (ht : t.OneLine) : OneLine (s ++ t) :=
  List.not_mem_append hs ht

theorem cons {c : Char} (hc : c ≠ '\n') (hs : s.OneLine) : OneLine (c :: s) :=
  List.not_mem_cons_of_ne_of_not_mem (Ne.symm hc) hs

theorem join {glue : Text} {pieces : List Text} (hg : glue.OneLine)
    (hp : ∀ piece ∈ pieces, piece.OneLine) : OneLine (Text.join glue pieces) := by
  unfold Text.join
  induction pieces with
  | nil => exact nil
  | cons piece pieces ih =>
      rcases pieces with _ | ⟨next, pieces⟩
      · simpa using hp piece
      · rw [List.intercalate_cons_cons]
        have hrest := ih fun p hmem => hp p (List.mem_cons_of_mem _ hmem)
        exact ((hp piece List.mem_cons_self).append hg).append hrest

end Text.OneLine

theorem Text.trimEnd_isPrefix (s : Text) : s.trimEnd <+: s := by
  have h := List.dropWhile_suffix (l := s.reverse) isBlank
  simpa [trimEnd] using List.reverse_prefix.mpr h

theorem Text.trim_isInfix (s : Text) : s.trim <:+: s :=
  (trimEnd_isPrefix _).isInfix.trans (List.dropWhile_suffix isBlank).isInfix

/-! ## The lines of an artifact -/

namespace Lines

theorem oneLine_of_mem_ofBytes {bs : Bytes} {line : Text} (h : line ∈ ofBytes bs) :
    line.OneLine := by
  obtain ⟨cutLine, hmem, rfl⟩ := List.mem_map.mp h
  exact Utf8.newline_not_mem_decodeLossy (lf_not_mem_of_mem_cut hmem)

end Lines

/-- Every line that an artifact gives stays within one line, whatever its bytes
are. -/
theorem Artifact.oneLine_of_stream {files : FileTree} {path : Path}
    {s : Lines.Stream FileError} (h : stream files path = .ok s) :
    ∀ line ∈ s.lines, line.OneLine := by
  intro line hline
  unfold stream at h
  split at h
  · next a _ =>
      cases h
      exact Lines.oneLine_of_mem_ofBytes hline
  · cases h

/-! ## Values -/

theorem Probe.oneLine_of_read {p : Probe} {line : Text} (hline : line.OneLine) :
    ∀ v ∈ p.read line, v.OneLine :=
  fun _ hv => hline.of_isInfix (isInfix_of_read hv)

theorem Token.oneLine_of_nth {sep : Separator} {i : Nat} {s : Text}
    (hs : s.OneLine) : ∀ v ∈ nth sep i s, v.OneLine :=
  fun _ hv => hs.of_isInfix (isInfix_of_nth hv)

theorem Probe.oneLine_of_read_nth {p : Probe} {sep : Separator} {i : Nat} {line : Text}
    (hline : line.OneLine) : ∀ v ∈ (p.read line).bind (Token.nth sep i), v.OneLine := by
  intro v hv
  obtain ⟨token, hread, hnth⟩ := Option.bind_eq_some_iff.mp hv
  exact Token.oneLine_of_nth (oneLine_of_read hline token hread) v hnth

/-- Whether what a slot holds stays within one line. -/
def Slot.OneLine (s : Slot) : Prop := ∀ v ∈ s.value, v.OneLine

namespace Slot.OneLine

variable {s : Slot}

theorem first : Slot.first.OneLine := by simp [Slot.OneLine, Slot.first]

theorem last : Slot.last.OneLine := by simp [Slot.OneLine, Slot.last]

theorem offer (hs : s.OneLine) {candidate : Option Text}
    (hc : ∀ v ∈ candidate, v.OneLine) : (s.offer candidate).OneLine := by
  unfold Slot.offer
  split
  · exact hc
  · exact hs

theorem text (hs : s.OneLine) : s.text.OneLine := by
  unfold Slot.text
  cases h : s.value with
  | none => exact Text.OneLine.nil
  | some v => exact hs v h

end Slot.OneLine

end CrashDigest
