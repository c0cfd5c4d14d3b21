import CrashDigest.Proofs.Utf8

/-!
# Reading back what was written

The reader of bytes and the encoding of characters were written down apart:
the one is a machine with bounds for the next byte, the other is arithmetic on
code points. They agree. Bytes are the UTF-8 of a text exactly if the reader
accepts them, and the text is then the one it reads (`decode?_eq_some_iff`).

Between the two stands `Spells`, which says of a few bytes that they are one
character. The machine consumes one spelling at a time, and the only spelling
of a character is its encoding.
-/

namespace CrashDigest.Utf8

/-- Whether a byte can stand behind the first one of a character. -/
def Tail (b : UInt8) : Prop := 0x80 ≤ b.toNat ∧ b.toNat ≤ 0xBF

/-- Whether some bytes are one character, and which number it has. The bounds on a second byte keep
out what fewer bytes can spell, the surrogates, and what lies behind the last character. -/
inductive Spells : Bytes → Nat → Prop where
  | one {b : UInt8} (hb : b.toNat < 0x80) : Spells [b] b.toNat
  | two {b c : UInt8} (hb : 0xC2 ≤ b.toNat ∧ b.toNat < 0xE0) (hc : Tail c) :
      Spells [b, c] (b.toNat % 0x20 * 0x40 + c.toNat % 0x40)
  | three {b c d : UInt8} (hb : 0xE0 ≤ b.toNat ∧ b.toNat < 0xF0) (hc : Tail c)
      (hlo : b.toNat = 0xE0 → 0xA0 ≤ c.toNat) (hhi : b.toNat = 0xED → c.toNat ≤ 0x9F)
      (hd : Tail d) :
      Spells [b, c, d] ((b.toNat % 0x10 * 0x40 + c.toNat % 0x40) * 0x40 + d.toNat % 0x40)
  | four {b c d e : UInt8} (hb : 0xF0 ≤ b.toNat ∧ b.toNat < 0xF5) (hc : Tail c)
      (hlo : b.toNat = 0xF0 → 0x90 ≤ c.toNat) (hhi : b.toNat = 0xF4 → c.toNat ≤ 0x8F)
      (hd : Tail d) (he : Tail e) :
      Spells [b, c, d, e]
        (((b.toNat % 0x08 * 0x40 + c.toNat % 0x40) * 0x40 + d.toNat % 0x40) * 0x40 +
          e.toNat % 0x40)

/-! ## The first byte -/

theorem first_of_one {b : UInt8} (h : b.toNat < 0x80) :
    first b = ([some (Char.ofNat b.toNat)], .start) := by
  unfold first
  simp only [if_pos h]

theorem first_of_two {b : UInt8} (h : 0xC2 ≤ b.toNat ∧ b.toNat < 0xE0) :
    first b = ([], .inside (b.toNat % 0x20) 0 0x80 0xBF) := by
  unfold first
  simp only []
  rw [if_neg (by omega), if_neg (by omega), if_pos h.2]

theorem first_of_three {b : UInt8} (h : 0xE0 ≤ b.toNat ∧ b.toNat < 0xF0) :
    first b = ([], .inside (b.toNat % 0x10) 1 (if b.toNat = 0xE0 then 0xA0 else 0x80)
      (if b.toNat = 0xED then 0x9F else 0xBF)) := by
  unfold first
  simp only []
  rw [if_neg (by omega), if_neg (by omega), if_neg (by omega)]
  by_cases h0 : b.toNat = 0xE0
  · simp only [h0, if_true]
    rfl
  · rw [if_neg h0, if_neg h0]
    by_cases hd : b.toNat = 0xED
    · simp only [hd, if_true]
    · rw [if_neg hd, if_neg hd, if_pos h.2]

theorem first_of_four {b : UInt8} (h : 0xF0 ≤ b.toNat ∧ b.toNat < 0xF5) :
    first b = ([], .inside (b.toNat % 0x08) 2 (if b.toNat = 0xF0 then 0x90 else 0x80)
      (if b.toNat = 0xF4 then 0x8F else 0xBF)) := by
  unfold first
  simp only []
  rw [if_neg (by omega), if_neg (by omega), if_neg (by omega), if_neg (by omega),
    if_neg (by omega), if_neg (by omega)]
  by_cases h0 : b.toNat = 0xF0
  · simp only [h0, if_true]
    rfl
  · rw [if_neg h0, if_neg h0]
    by_cases h4 : b.toNat = 0xF4
    · simp only [h4, if_true]
      rfl
    · rw [if_pos (by omega), if_neg h4]

theorem first_of_none {b : UInt8} (h : 0x80 ≤ b.toNat ∧ b.toNat < 0xC2 ∨ 0xF5 ≤ b.toNat) :
    first b = ([none], .start) := by
  unfold first
  simp only []
  rw [if_neg (by omega)]
  rcases h with ⟨_, hlt⟩ | hge
  · rw [if_pos hlt]
  · rw [if_neg (by omega), if_neg (by omega), if_neg (by omega), if_neg (by omega),
      if_neg (by omega), if_neg (by omega), if_neg (by omega), if_neg (by omega)]

/-! ## The machine reads one spelling at a time -/

section Inside

variable {bits owed : Nat} {lo hi b : UInt8} {bs : Bytes} {s : Text}

theorem piecesFrom_last (h : lo ≤ b ∧ b ≤ hi) :
    piecesFrom (.inside bits 0 lo hi) (b :: bs) =
      some (Char.ofNat (bits * 0x40 + b.toNat % 0x40)) :: pieces bs := by
  rw [piecesFrom, step, if_pos (by simpa using h)]
  rfl

theorem piecesFrom_more (h : lo ≤ b ∧ b ≤ hi) :
    piecesFrom (.inside bits (owed + 1) lo hi) (b :: bs) =
      piecesFrom (.inside (bits * 0x40 + b.toNat % 0x40) owed 0x80 0xBF) bs := by
  rw [piecesFrom, step, if_pos (by simpa using h)]
  rfl

/-- Where nothing is broken, an unfinished character is given its next byte. -/
theorem exists_next (h : piecesFrom (.inside bits owed lo hi) bs = s.map some) :
    ∃ b rest, bs = b :: rest ∧ lo ≤ b ∧ b ≤ hi := by
  cases bs with
  | nil => cases s <;> cases h
  | cons b bs =>
      by_cases hin : (lo ≤ b && b ≤ hi) = true
      · exact ⟨b, bs, rfl, by simpa using hin⟩
      · rw [piecesFrom, step, if_neg hin] at h
        cases s <;> cases h

theorem ite_le_iff {p : Prop} [Decidable p] {lo' : UInt8} :
    (if p then lo else lo') ≤ b ↔ (p → lo.toNat ≤ b.toNat) ∧ (¬ p → lo'.toNat ≤ b.toNat) := by
  by_cases hp : p <;> simp [hp, UInt8.le_iff_toNat_le]

theorem le_ite_iff {p : Prop} [Decidable p] {hi' : UInt8} :
    (b ≤ if p then hi else hi') ↔ (p → b.toNat ≤ hi.toNat) ∧ (¬ p → b.toNat ≤ hi'.toNat) := by
  by_cases hp : p <;> simp [hp, UInt8.le_iff_toNat_le]

theorem tail_iff : (0x80 ≤ b ∧ b ≤ 0xBF) ↔ Tail b := by
  rw [UInt8.le_iff_toNat_le, UInt8.le_iff_toNat_le]
  rfl

end Inside

theorem pieces_of_spells {bs : Bytes} {n : Nat} (h : Spells bs n) (rest : Bytes) :
    pieces (bs ++ rest) = some (Char.ofNat n) :: pieces rest := by
  rw [pieces]
  cases h with
  | one hb =>
      rw [List.cons_append, piecesFrom, step, first_of_one hb]
      rfl
  | two hb hc =>
      rw [List.cons_append, piecesFrom, step, first_of_two hb]
      exact piecesFrom_last (tail_iff.mpr hc)
  | three hb hc hlo hhi hd =>
      rw [List.cons_append, piecesFrom, step, first_of_three hb]
      refine (piecesFrom_more ?_).trans (piecesFrom_last (tail_iff.mpr hd))
      simp only [ite_le_iff, le_ite_iff, UInt8.reduceToNat]
      exact ⟨⟨hlo, fun _ => hc.1⟩, hhi, fun _ => hc.2⟩
  | four hb hc hlo hhi hd he =>
      rw [List.cons_append, piecesFrom, step, first_of_four hb]
      refine (piecesFrom_more ?_).trans
        ((piecesFrom_more (tail_iff.mpr hd)).trans (piecesFrom_last (tail_iff.mpr he)))
      simp only [ite_le_iff, le_ite_iff, UInt8.reduceToNat]
      exact ⟨⟨hlo, fun _ => hc.1⟩, hhi, fun _ => hc.2⟩

/-- Bytes in which nothing is broken begin with a spelling. -/
theorem exists_spells {b : UInt8} {bs : Bytes} {s : Text} (h : pieces (b :: bs) = s.map some) :
    ∃ front rest n, b :: bs = front ++ rest ∧ Spells front n := by
  rw [pieces, piecesFrom, step] at h
  by_cases hone : b.toNat < 0x80
  · exact ⟨[b], bs, _, rfl, .one hone⟩
  by_cases hnone : b.toNat < 0xC2 ∨ 0xF5 ≤ b.toNat
  · rw [first_of_none (by omega)] at h
    cases s <;> cases h
  by_cases htwo : b.toNat < 0xE0
  · have hb : 0xC2 ≤ b.toNat ∧ b.toNat < 0xE0 := by omega
    rw [first_of_two hb] at h
    obtain ⟨c, rest, rfl, hc⟩ := exists_next h
    exact ⟨[b, c], rest, _, rfl, .two hb (tail_iff.mp hc)⟩
  by_cases hthree : b.toNat < 0xF0
  · have hb : 0xE0 ≤ b.toNat ∧ b.toNat < 0xF0 := by omega
    rw [first_of_three hb] at h
    obtain ⟨c, rest, rfl, hc⟩ := exists_next h
    obtain ⟨d, rest, rfl, hd⟩ := exists_next ((piecesFrom_more hc).symm.trans h)
    simp only [ite_le_iff, le_ite_iff, UInt8.reduceToNat] at hc
    exact ⟨[b, c, d], rest, _, rfl,
      .three hb (by unfold Tail; omega) hc.1.1 hc.2.1 (tail_iff.mp hd)⟩
  · have hb : 0xF0 ≤ b.toNat ∧ b.toNat < 0xF5 := by omega
    rw [first_of_four hb] at h
    obtain ⟨c, rest, rfl, hc⟩ := exists_next h
    obtain ⟨d, rest, rfl, hd⟩ := exists_next ((piecesFrom_more hc).symm.trans h)
    obtain ⟨e, rest, rfl, he⟩ := exists_next
      ((piecesFrom_more hd).symm.trans ((piecesFrom_more hc).symm.trans h))
    simp only [ite_le_iff, le_ite_iff, UInt8.reduceToNat] at hc
    exact ⟨[b, c, d, e], rest, _, rfl,
      .four hb (by unfold Tail; omega) hc.1.1 hc.2.1 (tail_iff.mp hd) (tail_iff.mp he)⟩

/-! ## A character has one spelling -/

theorem toNat_ofNat_of_valid {n : Nat} (h : n.isValidChar) : (Char.ofNat n).val.toNat = n := by
  have hchar : Char.ofNat n = Char.ofNatAux n h := dif_pos h
  rw [hchar]
  rfl

theorem ofNat_eq_of_toNat {n : Nat} {b : UInt8} (h : n = b.toNat) : UInt8.ofNat n = b := by
  rw [h, UInt8.ofNat_toNat]

theorem isValidChar_of_spells {bs : Bytes} {n : Nat} (h : Spells bs n) : n.isValidChar := by
  cases h <;> simp only [Nat.isValidChar, Tail] at * <;> omega

theorem encodeChar_of_spells {bs : Bytes} {n : Nat} (h : Spells bs n) :
    String.utf8EncodeChar (Char.ofNat n) = bs := by
  have hvalid := isValidChar_of_spells h
  rw [String.utf8EncodeChar]
  simp only [toNat_ofNat_of_valid hvalid]
  cases h with
  | one hb => rw [if_pos (by omega), UInt8.ofNat_toNat]
  | @two b c hb hc =>
      unfold Tail at hc
      rw [if_neg (by omega), if_pos (by omega), ofNat_eq_of_toNat (b := b) (by omega),
        ofNat_eq_of_toNat (b := c) (by omega)]
  | @three b c d hb hc hlo hhi hd =>
      unfold Tail at hc hd
      rw [if_neg (by omega), if_neg (by omega), if_pos (by omega),
        ofNat_eq_of_toNat (b := b) (by omega), ofNat_eq_of_toNat (b := c) (by omega),
        ofNat_eq_of_toNat (b := d) (by omega)]
  | @four b c d e hb hc hlo hhi hd he =>
      unfold Tail at hc hd he
      rw [if_neg (by omega), if_neg (by omega), if_neg (by omega),
        ofNat_eq_of_toNat (b := b) (by omega), ofNat_eq_of_toNat (b := c) (by omega),
        ofNat_eq_of_toNat (b := d) (by omega), ofNat_eq_of_toNat (b := e) (by omega)]

theorem toNat_ofNat_of_lt {n : Nat} (h : n < 0x100) : (UInt8.ofNat n).toNat = n :=
  UInt8.toNat_ofNat'.trans (Nat.mod_eq_of_lt h)

theorem exists_spells_encodeChar (c : Char) : ∃ n, Spells (String.utf8EncodeChar c) n := by
  have hvalid : c.val.toNat.isValidChar := c.valid
  rw [String.utf8EncodeChar]
  generalize c.val.toNat = v at hvalid ⊢
  simp only [Nat.isValidChar] at hvalid
  have htail (n : Nat) : Tail (.ofNat (n % 64 + 128)) := by
    rw [Tail, toNat_ofNat_of_lt (by omega)]
    omega
  split
  · exact ⟨_, .one (by rw [toNat_ofNat_of_lt] <;> omega)⟩
  · split
    · exact ⟨_, .two (by rw [toNat_ofNat_of_lt] <;> omega) (htail v)⟩
    · split
      · exact ⟨_, .three (by rw [toNat_ofNat_of_lt] <;> omega) (htail _)
          (by rw [toNat_ofNat_of_lt, toNat_ofNat_of_lt] <;> omega)
          (by rw [toNat_ofNat_of_lt, toNat_ofNat_of_lt] <;> omega) (htail v)⟩
      · exact ⟨_, .four (by rw [toNat_ofNat_of_lt] <;> omega) (htail _)
          (by rw [toNat_ofNat_of_lt, toNat_ofNat_of_lt] <;> omega)
          (by rw [toNat_ofNat_of_lt, toNat_ofNat_of_lt] <;> omega) (htail _) (htail v)⟩

/-! ## Texts -/

theorem encode_cons (c : Char) (s : Text) : encode (c :: s) = String.utf8EncodeChar c ++ encode s :=
  List.flatMap_cons

theorem encode_singleton (c : Char) : encode [c] = String.utf8EncodeChar c := by
  rw [encode_cons]
  exact List.append_nil _

theorem pieces_encode (s : Text) : pieces (encode s) = s.map some := by
  induction s with
  | nil => rfl
  | cons c s ih =>
      obtain ⟨n, hn⟩ := exists_spells_encodeChar c
      have hc : [Char.ofNat n] = [c] :=
        encode_injective (by rw [encode_singleton, encode_singleton, encodeChar_of_spells hn])
      rw [encode_cons, pieces_of_spells hn, ih, List.head_eq_of_cons_eq hc]
      rfl

theorem eq_encode_of_pieces {bs : Bytes} {s : Text} (h : pieces bs = s.map some) :
    bs = encode s := by
  induction s generalizing bs with
  | nil =>
      cases bs with
      | nil => rfl
      | cons b bs =>
          obtain ⟨front, rest, n, hbs, hfront⟩ := exists_spells h
          rw [hbs, pieces_of_spells hfront] at h
          cases h
  | cons c s ih =>
      cases bs with
      | nil => cases h
      | cons b bs =>
          obtain ⟨front, rest, n, hbs, hfront⟩ := exists_spells h
          rw [hbs, pieces_of_spells hfront] at h
          obtain ⟨hc, hs⟩ := List.cons.inj h
          rw [hbs, ih hs, encode_cons, ← Option.some.inj hc, encodeChar_of_spells hfront]

/-- Reading accepts exactly what writing produces. -/
theorem decode?_eq_some_iff {bs : Bytes} {s : Text} : decode? bs = some s ↔ bs = encode s := by
  constructor
  · intro h
    exact eq_encode_of_pieces (eq_map_some_of_mapM h)
  · rintro rfl
    rw [decode?, pieces_encode, List.mapM_map]
    induction s with
    | nil => rfl
    | cons c s ih => rw [List.mapM_cons, ih]; rfl

end CrashDigest.Utf8
