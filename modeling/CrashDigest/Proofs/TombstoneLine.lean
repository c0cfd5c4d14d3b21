import CrashDigest.Dump.Tombstone
import CrashDigest.Proofs.WordTokens

/-!
# A line of a tombstone

What the scan asks of a single line, in terms of the text of the line alone: a
frame is a number of two digits behind a `#`, and the address at fault is what
stands between its label and the next one, if it is a number.
-/

namespace CrashDigest.Tombstone

variable {line s a : Text}

/-- A line has a frame if `#0` and a digit from 0 to 7 stand in it. -/
theorem isFrame_iff : isFrame line = true ↔ ∃ d, '0' ≤ d ∧ d ≤ '7' ∧ ['#', '0', d] <:+: line := by
  fun_induction isFrame line with
  | case1 d rest ih =>
      rw [Bool.or_eq_true, Bool.and_eq_true, decide_eq_true_eq, decide_eq_true_eq, ih]
      constructor
      · rintro (⟨hlo, hhi⟩ | ⟨e, hlo, hhi, hrest⟩)
        · exact ⟨d, hlo, hhi, (List.prefix_append ['#', '0', d] rest).isInfix⟩
        · exact ⟨e, hlo, hhi, List.infix_cons_iff.mpr (Or.inr hrest)⟩
      · rintro ⟨e, hlo, hhi, hline⟩
        rcases List.infix_cons_iff.mp hline with hstart | hrest
        · obtain ⟨back, hback⟩ := hstart
          cases hback
          exact Or.inl ⟨hlo, hhi⟩
        · exact Or.inr ⟨e, hlo, hhi, hrest⟩
  | case2 c rest hshape ih =>
      rw [ih]
      refine exists_congr fun d => and_congr_right fun _ => and_congr_right fun _ => ?_
      rw [List.infix_cons_iff, or_iff_right]
      rintro ⟨back, hback⟩
      cases hback
      exact hshape d back rfl rfl
  | case3 => simp

/-- A number in hexadecimal digits, with or without `0x` in front. -/
def HexNumber (s : Text) : Prop :=
  ∃ digits : Text, digits ≠ [] ∧ (∀ c ∈ digits, isHexDigit c = true) ∧
    (s = digits ∨ s = '0' :: 'x' :: digits)

theorem isHexNumber_iff : isHexNumber s = true ↔ HexNumber s := by
  have hdigits (digits : Text) : (!digits.isEmpty && digits.all isHexDigit) = true ↔
      digits ≠ [] ∧ ∀ c ∈ digits, isHexDigit c = true := by simp
  rw [isHexNumber, hdigits]
  constructor
  · intro h
    split at h
    · next hstart =>
        obtain ⟨rest, rfl⟩ := Text.startsWith_iff.mp hstart
        exact ⟨rest, h.1, h.2, Or.inr rfl⟩
    · exact ⟨s, h.1, h.2, Or.inl rfl⟩
  · rintro ⟨digits, hne, hall, rfl | rfl⟩
    · have hstart : Text.startsWith s "0x" = false := by
        refine Bool.eq_false_iff.mpr fun hstart => ?_
        obtain ⟨rest, rfl⟩ := Text.startsWith_iff.mp hstart
        exact absurd (hall 'x' (by simp)) (by decide)
      rw [hstart]
      exact ⟨hne, hall⟩
    · exact ⟨hne, hall⟩

/-- What stands behind the label of the address at fault, up to the next such label. -/
def labelledAddress (line : Text) : Option Text :=
  (line.cut "fault addr ").map fun (_, after) => after.upTo "fault addr "

theorem labelledAddress_eq_some :
    labelledAddress line = some a ↔
      ∃ before after, line.cut "fault addr " = some (before, after) ∧
        after.upTo "fault addr " = a := by
  simp [labelledAddress]

/-- The address at fault on a line is the labelled one, if it is a number. -/
theorem faultAddressOn_eq_iff (ha : a ≠ []) :
    faultAddressOn line = a ↔ labelledAddress line = some a ∧ HexNumber a := by
  have hnth (t : Text) (ht : t ≠ []) : Token.nth (.word "fault addr ") 1 line = some t ↔
      labelledAddress line = some t := by
    rw [Token.nth_one_word (by decide) ht, labelledAddress_eq_some]
  rw [← hnth a ha, ← isHexNumber_iff, faultAddressOn]
  cases Token.nth (.word "fault addr ") 1 line with
  | none => simp [ha.symm]
  | some t =>
      show (if isHexNumber t then t else []) = a ↔ _
      rw [Option.some.injEq]
      constructor
      · intro h
        split at h
        · next hnumber => exact ⟨h, h ▸ hnumber⟩
        · exact absurd h.symm ha
      · rintro ⟨rfl, hnumber⟩
        exact if_pos hnumber

end CrashDigest.Tombstone
