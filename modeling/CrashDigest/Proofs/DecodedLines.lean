import CrashDigest.Proofs.LineCutting
import CrashDigest.Proofs.OneLine
import CrashDigest.Proofs.Utf8Codec

/-!
# Lines of bytes and lines of a text

A file is cut into lines before its bytes are decoded, and what is no UTF-8 is
replaced line by line. Decoding everything first and cutting the text gives the
same lines (`ofBytes_eq_ofText`), whatever the bytes are.

It comes down to one step of the machine that reads bytes. Where it has begun a
character, a byte of ASCII breaks that off just as the end of the bytes would,
and leaves nothing to remember (`step_of_ascii`). So everything can be decoded in
two parts, before and after any such byte (`decodeLossy_append`). Line feeds and
carriage returns are bytes of ASCII, and no other bytes are decoded to them.
-/

namespace CrashDigest

namespace Utf8

variable {state : State} {a b : UInt8} {bs : Bytes}

theorem step_of_ascii (hs : state.Wide) (hb : b.toNat < 0x80) :
    step state b = (finish state ++ [some (Char.ofNat b.toNat)], .start) := by
  cases state with
  | start => exact first_of_one hb
  | inside bits owed lo hi =>
      have hout : ¬ (lo ≤ b && b ≤ hi) = true := by
        simp only [Bool.and_eq_true, decide_eq_true_eq, UInt8.le_iff_toNat_le]
        have hlo := hs.1
        omega
      rw [step, if_neg hout, first_of_one hb]
      rfl

theorem piecesFrom_cons (state : State) (b : UInt8) (bs : Bytes) :
    piecesFrom state (b :: bs) = (step state b).1 ++ piecesFrom (step state b).2 bs := rfl

theorem piecesFrom_append (hs : state.Wide) (hb : b.toNat < 0x80) (front rest : Bytes) :
    piecesFrom state (front ++ b :: rest) =
      piecesFrom state front ++ some (Char.ofNat b.toNat) :: pieces rest := by
  induction front generalizing state with
  | nil =>
      rw [List.nil_append, piecesFrom_cons, step_of_ascii hs hb, List.append_assoc]
      rfl
  | cons c front ih =>
      rw [List.cons_append, piecesFrom_cons, piecesFrom_cons, ih (wide_step hs c),
        List.append_assoc]

theorem decodeLossy_append (hb : b.toNat < 0x80) (front rest : Bytes) :
    decodeLossy (front ++ b :: rest) =
      decodeLossy front ++ Char.ofNat b.toNat :: decodeLossy rest := by
  rw [decodeLossy, pieces, piecesFrom_append (show State.start.Wide from trivial) hb,
    List.map_append, List.map_cons]
  rfl

/-- Every byte completes something, breaks something off or is remembered. -/
theorem first_ne_nil_or (b : UInt8) : (first b).1 ≠ [] ∨ (first b).2 ≠ .start := by
  unfold first
  simp only []
  repeat' split
  all_goals simp

theorem step_ne_nil_or (state : State) (b : UInt8) :
    (step state b).1 ≠ [] ∨ (step state b).2 ≠ .start := by
  cases state with
  | start => exact first_ne_nil_or b
  | inside bits owed lo hi =>
      rw [step]
      repeat' split
      all_goals simp

theorem piecesFrom_ne_nil (h : state ≠ .start ∨ bs ≠ []) : piecesFrom state bs ≠ [] := by
  induction bs generalizing state with
  | nil =>
      cases state with
      | start => simp at h
      | inside => simp [piecesFrom, finish]
  | cons b bs ih =>
      rw [piecesFrom_cons]
      rcases step_ne_nil_or state b with hout | hstate
      · exact List.append_ne_nil_of_left_ne_nil hout _
      · exact List.append_ne_nil_of_right_ne_nil _ (ih (.inl hstate))

theorem decodeLossy_eq_nil_iff : decodeLossy bs = [] ↔ bs = [] := by
  constructor
  · intro h
    by_contra hbs
    exact piecesFrom_ne_nil (.inr hbs) (List.map_eq_nil_iff.mp h)
  · rintro rfl
    rfl

theorem getLast?_decodeLossy_iff (ha : Ascii a) :
    (decodeLossy bs).getLast? = some (Char.ofNat a.toNat) ↔ bs.getLast? = some a := by
  induction bs using Text.induction_on_first a with
  | absent line hline =>
      have htext := ascii_not_mem_decodeLossy ha hline
      exact ⟨fun h => absurd (List.mem_of_getLast? h) htext,
        fun h => absurd (List.mem_of_getLast? h) hline⟩
  | first line rest hline ih =>
      rw [decodeLossy_append ha.2, Lines.getLast?_append_cons_iff, Lines.getLast?_append_cons_iff,
        decodeLossy_eq_nil_iff, ih]

theorem decodeLossy_encode (s : Text) : decodeLossy (encode s) = s := by
  rw [decodeLossy, pieces_encode, List.map_map]
  exact List.map_id s

end Utf8

namespace Lines

open Utf8

theorem withoutReturn_decodeLossy (bs : Bytes) :
    withoutReturn '\r' (decodeLossy bs) = decodeLossy (withoutReturn 0x0D bs) := by
  have hiff := @getLast?_decodeLossy_iff 0x0D bs ⟨by decide, by decide⟩
  by_cases h : bs.getLast? = some 0x0D
  · obtain ⟨front, rfl⟩ := List.getLast?_eq_some_iff.mp h
    rw [withoutReturn_concat, decodeLossy_append (by decide)]
    exact withoutReturn_concat '\r' _
  · rw [withoutReturn_of_ne h]
    exact withoutReturn_of_ne (mt hiff.mp h)

/-- Cutting and decoding may come in either order. -/
theorem ofBytes_eq_ofText (bs : Bytes) : ofBytes bs = ofText (decodeLossy bs) := by
  unfold ofBytes ofText
  induction bs using Text.induction_on_first (0x0A : UInt8) with
  | absent line hline =>
      rw [cut_of_not_mem _ hline, cut_of_not_mem _ (newline_not_mem_decodeLossy hline)]
      simp only [decodeLossy_eq_nil_iff]
      split <;> rfl
  | first line rest hline ih =>
      have htext : decodeLossy (line ++ 0x0A :: rest) =
          decodeLossy line ++ '\n' :: decodeLossy rest := decodeLossy_append (by decide) ..
      rw [htext, cut_append _ hline, cut_append _ (newline_not_mem_decodeLossy hline),
        List.map_cons, ih, withoutReturn_decodeLossy]

theorem ofBytes_encode (s : Text) : ofBytes (encode s) = ofText s := by
  rw [ofBytes_eq_ofText, decodeLossy_encode]

/-- The lines of any bytes are those of the whole text they are decoded to: what stands between the
line feeds, without one carriage return at the end of each that has ended, and with the last only
if it is not empty. There is one for every line feed, and one more for what follows the last. A
carriage return in front of every line feed changes none of them if no line feed had one before. -/
theorem ofBytes_eq_splitOn (bs : Bytes) :
    let between := (decodeLossy bs).splitOn '\n'
    ofBytes bs = between.dropLast.map (withoutReturn '\r') ++
        (between.getLast?.filter (· ≠ [])).toList ∧
    (∀ line ∈ ofBytes bs, '\n' ∉ line) ∧
    (ofBytes bs).length =
        bs.count 0x0A + (if bs = [] ∨ bs.getLast? = some 0x0A then 0 else 1) ∧
    (¬ [0x0D, 0x0A] <:+: bs → ofBytes (returned 0x0A 0x0D bs) = ofBytes bs) := by
  refine ⟨?_, fun line hline => oneLine_of_mem_ofBytes hline, ?_, fun hfree => ?_⟩
  · rw [ofBytes_eq_ofText]
    exact cut_eq_splitOn '\n' '\r' (decodeLossy bs)
  · rw [ofBytes, List.length_map]
    exact length_cut 0x0A 0x0D bs
  · rw [ofBytes, cut_returned (by decide) hfree]
    rfl

-- The line feed breaks a character off, and the carriage return at the very end is kept.
example : ofBytes [0x61, 0xE2, 0x82, 0x0D, 0x0A, 0xAC, 0x0D] =
    [['a', '\uFFFD'], ['\uFFFD', '\r']] := by decide

end Lines

end CrashDigest
