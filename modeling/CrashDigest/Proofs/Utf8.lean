import CrashDigest.Text.Utf8

/-!
# ASCII in UTF-8

A character of ASCII in the text is a byte of its own in the bytes, and there is
no other way to come by one. The second half is what this file proves: the
machine that reads bytes completes such a character on its own byte only. A
character of several bytes never comes out as one, since the bits that its first
bytes have brought are already too many; `State.Wide` says how many that is in
each state, and the machine keeps it. The line feed is the case that matters
most.

The other fact about the encoding is that it can be undone, so two texts with
the same bytes are the same text.
-/

namespace CrashDigest.Utf8

/-- Whether a byte is a character of its own. Zero is left out: it is also what `Char.ofNat` makes
of a number that is no character. -/
def Ascii (a : UInt8) : Prop := 0 < a.toNat ∧ a.toNat < 0x80

theorem eq_of_ofNat_eq {n : Nat} {a : UInt8} (ha : Ascii a)
    (h : Char.ofNat n = Char.ofNat a.toNat) : n = a.toNat := by
  obtain ⟨hpos, hlt⟩ := ha
  have hvalid : a.toNat.isValidChar := Or.inl (by omega)
  have hchar : Char.ofNat a.toNat = Char.ofNatAux a.toNat hvalid := dif_pos hvalid
  rw [hchar] at h
  by_cases hn : n.isValidChar
  · have hsame : Char.ofNatAux n hn = Char.ofNatAux a.toNat hvalid := (dif_pos hn).symm.trans h
    exact congrArg Char.toNat hsame
  · have hzero : Char.ofNatAux 0 (by decide) = Char.ofNatAux a.toNat hvalid :=
      (dif_neg hn).symm.trans h
    have hnone : 0 = a.toNat := congrArg Char.toNat hzero
    omega

/-- An unfinished character waits for a byte beyond ASCII, and can only become a
character beyond ASCII: its bits are enough for that already, or the next byte is
sure to bring what is missing. -/
def State.Wide : State → Prop
  | .start => True
  | .inside bits owed lo hi =>
      0x80 ≤ lo.toNat ∧ hi.toNat ≤ 0xBF ∧
        (2 ≤ bits ∨ 1 ≤ owed ∧ (1 ≤ bits ∨ 0x90 ≤ lo.toNat))

theorem wide_first (b : UInt8) : (first b).2.Wide := by
  have hlt := b.toNat_lt
  unfold first
  simp only []
  repeat' split
  all_goals first
    | trivial
    | (simp only [State.Wide, UInt8.reduceToNat]; omega)

theorem wide_step {state : State} (hs : state.Wide) (b : UInt8) : (step state b).2.Wide := by
  cases state with
  | start => exact wide_first b
  | inside bits owed lo hi =>
      obtain ⟨hlo, hhi, hbits⟩ := hs
      rw [step]
      split
      · next hin =>
          simp only [Bool.and_eq_true, decide_eq_true_eq, UInt8.le_iff_toNat_le] at hin
          split
          · trivial
          · simp only [State.Wide, UInt8.reduceToNat]
            omega
      · exact wide_first b

section Ascii

variable {state : State} {a b : UInt8} {bs : Bytes}

theorem ascii_not_mem_first (ha : Ascii a) (hb : b ≠ a) :
    some (Char.ofNat a.toNat) ∉ (first b).1 := by
  unfold first
  simp only []
  split
  · intro h
    have hsame := eq_of_ofNat_eq ha (Option.some.inj (List.mem_singleton.mp h)).symm
    exact hb (UInt8.toNat_inj.mp hsame)
  · repeat' split
    all_goals simp

theorem ascii_not_mem_step (hs : state.Wide) (ha : Ascii a) (hb : b ≠ a) :
    some (Char.ofNat a.toNat) ∉ (step state b).1 := by
  cases state with
  | start => exact ascii_not_mem_first ha hb
  | inside bits owed lo hi =>
      obtain ⟨hlo, hhi, hbits⟩ := hs
      rw [step]
      split
      · next hin =>
          simp only [Bool.and_eq_true, decide_eq_true_eq, UInt8.le_iff_toNat_le] at hin
          split
          · intro h
            have hsame := eq_of_ofNat_eq ha (Option.some.inj (List.mem_singleton.mp h)).symm
            have hlt := ha.2
            omega
          · simp
      · simpa using ascii_not_mem_first ha hb

theorem ascii_not_mem_piecesFrom (hs : state.Wide) (ha : Ascii a) (h : a ∉ bs) :
    some (Char.ofNat a.toNat) ∉ piecesFrom state bs := by
  induction bs generalizing state with
  | nil => cases state <;> simp [piecesFrom, finish]
  | cons b bs ih =>
      obtain ⟨hne, hrest⟩ := List.ne_and_not_mem_of_not_mem_cons h
      rw [piecesFrom]
      exact List.not_mem_append (ascii_not_mem_step hs ha hne.symm) (ih (wide_step hs b) hrest)

theorem ascii_not_mem_decodeLossy (ha : Ascii a) (h : a ∉ bs) :
    Char.ofNat a.toNat ∉ decodeLossy bs := by
  intro hmem
  obtain ⟨piece, hpiece, hc⟩ := List.mem_map.mp hmem
  cases piece with
  | none =>
      have hsame := eq_of_ofNat_eq (n := 0xFFFD) ha hc
      have hlt := ha.2
      omega
  | some c =>
      obtain rfl : c = Char.ofNat a.toNat := hc
      exact ascii_not_mem_piecesFrom (show State.start.Wide from trivial) ha h hpiece

end Ascii

theorem newline_not_mem_decodeLossy {bs : Bytes} (hb : (0x0A : UInt8) ∉ bs) :
    '\n' ∉ decodeLossy bs :=
  ascii_not_mem_decodeLossy (a := 0x0A) ⟨by decide, by decide⟩ hb

theorem eq_map_some_of_mapM {pieces : List (Option Char)} {s : Text}
    (h : pieces.mapM id = some s) : pieces = s.map some := by
  induction pieces generalizing s with
  | nil =>
      cases h
      rfl
  | cons piece pieces ih =>
      rw [List.mapM_cons] at h
      obtain ⟨c, hc, h⟩ := Option.bind_eq_some_iff.mp h
      obtain ⟨rest, hrest, hs⟩ := Option.bind_eq_some_iff.mp h
      obtain rfl : c :: rest = s := Option.some.inj hs
      rw [ih hrest, List.map_cons, ← hc]
      rfl

theorem newline_not_mem_decode? {bs : Bytes} {s : Text}
    (hb : (0x0A : UInt8) ∉ bs) (h : decode? bs = some s) : '\n' ∉ s := by
  intro hs
  have hmem : some '\n' ∈ pieces bs := by
    rw [eq_map_some_of_mapM h]
    exact List.mem_map_of_mem hs
  exact ascii_not_mem_piecesFrom (a := 0x0A) (show State.start.Wide from trivial)
    ⟨by decide, by decide⟩ hb hmem

/-- Two texts with the same bytes are the same text. -/
theorem encode_injective {s t : Text} (h : encode s = encode t) : s = t := by
  have hbytes : s.utf8Encode = t.utf8Encode := congrArg List.toByteArray h
  have hdecoded := congrArg ByteArray.utf8Decode? hbytes
  simpa using hdecoded

end CrashDigest.Utf8
