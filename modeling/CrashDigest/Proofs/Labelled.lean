import CrashDigest.Proofs.WordTokens

/-!
# Values behind a label

A labelled value is read in two steps: the line is looked at from the first
place on where the label and its separator stand, and that piece is cut at the
first separator in it. Where this is depends on the label and the separator
alone (`Probe.read_labelled_of_cut`). If no separator begins before the one
behind the label, the cut falls right behind it, and the two steps together are
one cut of the line; a single character that the label does not hold is such a
separator (`Probe.read_labelled`). The label may stand anywhere in the line.
-/

namespace CrashDigest

/-- What stands behind the first separator is what follows its first occurrence. -/
theorem Token.nthOnward_one {w s before after : Text} (hw : w ≠ [])
    (h : s.cut w = some (before, after)) : nthOnward (.word w) 1 s = some after := by
  rw [nthOnward, splitUpTo, separated_word hw, Separator.pieces_word hw, h]
  exact congrArg some (Pieces.whole_ofSpans _ after)

theorem Probe.read_labelled_of_cut {label sep front rest : Text} (hsep : sep ≠ [])
    (h : (label ++ sep).cut sep = some (front, rest)) (line : Text) :
    (labelled label sep).read line =
      (line.cut (label ++ sep)).map fun (_, after) => rest ++ after := by
  rw [read, labelled, Piece.of]
  cases line.cut (label ++ sep) with
  | none => rfl
  | some found => exact Token.nthOnward_one hsep (Text.cut_append_right h found.2)

/-- A labelled value is what follows the first occurrence of the label with its separator. -/
theorem Probe.read_labelled {label : Text} {c : Char} (h : c ∉ label) (line : Text) :
    (labelled label [c]).read line = (line.cut (label ++ [c])).map Prod.snd :=
  read_labelled_of_cut (List.cons_ne_nil c []) (Text.cut_singleton_append h []) line

end CrashDigest
