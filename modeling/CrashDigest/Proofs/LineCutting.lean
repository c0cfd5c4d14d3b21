import Mathlib.Data.List.Basic
import CrashDigest.Proofs.TextCut
import CrashDigest.Text.Lines

/-!
# How a text is cut into lines

Two equations say all there is to know about the lines of a sequence: one for a
sequence in which no line ends (`cut_of_not_mem`), and one for a line that ends
with more behind it (`cut_append`). Every sequence is one or the other, and the
proofs here go from one line feed to the next.

So the lines are what stands between the line feeds, each but the last without a
carriage return at its end, and the last only if it is not empty
(`cut_eq_splitOn`). The same two equations count the lines, and show that a
carriage return put in front of every line feed changes none of them.
-/

namespace CrashDigest.Lines

variable {α : Type} {lf cr : α} {line items : List α}

theorem getLast?_append_cons_iff {rest : List α} :
    (line ++ lf :: rest).getLast? = some lf ↔ rest = [] ∨ rest.getLast? = some lf := by
  rcases List.eq_nil_or_concat rest with rfl | ⟨front, c, rfl⟩
  · simp
  · rw [List.concat_eq_append, ← List.cons_append, ← List.append_assoc, List.getLast?_concat]
    simp

variable [DecidableEq α]

/-- A line that has ended, without the carriage return in front of its line feed. -/
def withoutReturn (cr : α) (line : List α) : List α :=
  if line.getLast? = some cr then line.dropLast else line

theorem withoutReturn_concat (cr : α) (line : List α) : withoutReturn cr (line ++ [cr]) = line := by
  simp [withoutReturn]

theorem withoutReturn_of_ne (h : line.getLast? ≠ some cr) : withoutReturn cr line = line :=
  if_neg h

theorem subset_of_withoutReturn (cr : α) (line : List α) : withoutReturn cr line ⊆ line := by
  rw [withoutReturn]
  split
  · exact List.dropLast_subset line
  · exact List.Subset.refl line

theorem ended_reverse (cr : α) (line : List α) : ended cr line.reverse = withoutReturn cr line := by
  rcases List.eq_nil_or_concat line with rfl | ⟨front, c, rfl⟩
  · rfl
  · rw [List.concat_eq_append, List.reverse_append, List.reverse_singleton,
      List.singleton_append, ended]
    by_cases hc : c = cr
    · rw [if_pos hc, hc, withoutReturn_concat, List.reverse_reverse]
    · rw [if_neg hc, withoutReturn_of_ne (by simpa using hc)]
      simp

theorem cutFrom_append {front : List α} (h : lf ∉ front) (line rest : List α) :
    cutFrom lf cr line (front ++ rest) = cutFrom lf cr (front.reverse ++ line) rest := by
  induction front generalizing line with
  | nil => rfl
  | cons c front ih =>
      obtain ⟨hne, hfront⟩ := List.ne_and_not_mem_of_not_mem_cons h
      rw [List.cons_append, cutFrom, if_neg (Ne.symm hne), ih hfront, List.reverse_cons,
        List.append_assoc, List.singleton_append]

/-! ## The two equations -/

theorem cut_of_not_mem (cr : α) (h : lf ∉ line) :
    cut lf cr line = if line = [] then [] else [line] := by
  rw [cut, ← List.append_nil line, cutFrom_append h, List.append_nil, List.append_nil, cutFrom]
  simp

theorem cut_append (cr : α) (h : lf ∉ line) (rest : List α) :
    cut lf cr (line ++ lf :: rest) = withoutReturn cr line :: cut lf cr rest := by
  rw [cut, cutFrom_append h, List.append_nil, cutFrom, if_pos rfl, ended_reverse, cut]

/-! ## What follows from them -/

theorem lf_not_mem_of_mem_cut (h : line ∈ cut lf cr items) : lf ∉ line := by
  induction items using Text.induction_on_first lf with
  | absent items hitems =>
      rw [cut_of_not_mem cr hitems] at h
      split at h
      · cases h
      · rwa [List.mem_singleton.mp h]
  | first front rest hfront ih =>
      rw [cut_append cr hfront] at h
      rcases List.mem_cons.mp h with rfl | hmem
      · exact fun hlf => hfront (subset_of_withoutReturn cr front hlf)
      · exact ih hmem

/-- Lines with their ends are cut where they were put together. -/
theorem cut_flatMap {lines : List (List α)} (hlf : ∀ line ∈ lines, lf ∉ line)
    (hcr : ∀ line ∈ lines, line.getLast? ≠ some cr) :
    cut lf cr (lines.flatMap (· ++ [lf])) = lines := by
  induction lines with
  | nil => rfl
  | cons line lines ih =>
      obtain ⟨hline, hlines⟩ := List.forall_mem_cons.mp hlf
      obtain ⟨hlast, hlasts⟩ := List.forall_mem_cons.mp hcr
      rw [List.flatMap_cons, List.append_assoc, List.singleton_append, cut_append cr hline,
        withoutReturn_of_ne hlast, ih hlines hlasts]

/-- The lines are what stands between the line feeds. -/
theorem cut_eq_splitOn (lf cr : α) (items : List α) :
    cut lf cr items = (items.splitOn lf).dropLast.map (withoutReturn cr) ++
      ((items.splitOn lf).getLast?.filter (· ≠ [])).toList := by
  induction items using Text.induction_on_first lf with
  | absent line hline =>
      rw [cut_of_not_mem cr hline, List.splitOn_eq_singleton hline]
      by_cases hnil : line = []
      · simp [hnil]
      · simp [hnil, Option.filter]
  | first line rest hline ih =>
      have hne := List.splitOn_ne_nil lf rest
      rw [cut_append cr hline, ih, List.splitOn_append_cons_self, List.splitOn_eq_singleton hline,
        List.singleton_append, List.dropLast_cons_of_ne_nil hne, List.map_cons, List.cons_append,
        List.getLast?_cons_of_ne_nil hne]

theorem length_cut (lf cr : α) (items : List α) :
    (cut lf cr items).length =
      items.count lf + if items = [] ∨ items.getLast? = some lf then 0 else 1 := by
  induction items using Text.induction_on_first lf with
  | absent line hline =>
      have hlast : line.getLast? ≠ some lf := fun hlast => hline (List.mem_of_getLast? hlast)
      rw [cut_of_not_mem cr hline, List.count_eq_zero.mpr hline]
      by_cases hnil : line = [] <;> simp [hnil, hlast]
  | first line rest hline ih =>
      have hne : line ++ lf :: rest ≠ [] := by simp
      rw [cut_append cr hline, List.length_cons, ih, List.count_append,
        List.count_eq_zero.mpr hline, List.count_cons_self]
      simp only [hne, false_or, getLast?_append_cons_iff]
      omega

/-- The sequence with a carriage return in front of every line feed. -/
def returned (lf cr : α) (items : List α) : List α :=
  items.flatMap fun c => if c = lf then [cr, lf] else [c]

theorem returned_of_not_mem (cr : α) (h : lf ∉ line) : returned lf cr line = line := by
  rw [returned, List.flatMap_congr fun c hc => if_neg (ne_of_mem_of_not_mem hc h)]
  simp

theorem returned_append (cr : α) (h : lf ∉ line) (rest : List α) :
    returned lf cr (line ++ lf :: rest) = line ++ [cr] ++ lf :: returned lf cr rest := by
  have hline := returned_of_not_mem cr h
  unfold returned at hline ⊢
  rw [List.flatMap_append, hline, List.flatMap_cons, if_pos rfl]
  simp

/-- A carriage return in front of every line feed that has none changes no line. -/
theorem cut_returned (hne : lf ≠ cr) (h : ¬ [cr, lf] <:+: items) :
    cut lf cr (returned lf cr items) = cut lf cr items := by
  induction items using Text.induction_on_first lf with
  | absent line hline => rw [returned_of_not_mem cr hline]
  | first line rest hline ih =>
      have hrest : ¬ [cr, lf] <:+: rest := fun hpair =>
        h (hpair.trans ⟨line ++ [lf], [], by simp⟩)
      have hlast : line.getLast? ≠ some cr := by
        intro hlast
        obtain ⟨front, rfl⟩ := List.getLast?_eq_some_iff.mp hlast
        exact h ⟨front, rest, by simp⟩
      -- the line has no carriage return of its own at its end, so the one put in is the one taken
      have hreturned : lf ∉ line ++ [cr] :=
        List.not_mem_append hline (mt List.mem_singleton.mp hne)
      rw [returned_append cr hline, cut_append cr hreturned, withoutReturn_concat, ih hrest,
        cut_append cr hline, withoutReturn_of_ne hlast]

end CrashDigest.Lines
