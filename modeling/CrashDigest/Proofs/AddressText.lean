import Mathlib.Data.List.Infix
import Mathlib.Logic.Relation
import CrashDigest.Dump.Address

/-!
# Texts without their addresses

An at sign is no digit, so no address reaches over one, and what is taken out
on one side of an at sign does not depend on the other side
(`stripFrom_append_at`). Every address of the length that is looked for goes,
wherever it stands, and which digits it had makes no difference to the rest
(`strip_eq_of_readdressed`).

Taking an address out joins what stood on its two sides, and the joined text is
not looked at again. An at sign with too few digits can so come by the digits
that stood behind the next address. `hasAddress_stripFrom_iff` says exactly when
that happens, and `Torn.close` what it takes in the text: two at signs
with fewer digits than an address between them.
-/

namespace CrashDigest.Address

variable {n k : Nat} {c : Char} {s t u v d : Text}

/-! ## Digits -/

/-- `n` hexadecimal digits and nothing else. -/
structure Digits (n : Nat) (d : Text) : Prop where
  length : d.length = n
  hex : ∀ c ∈ d, isHexDigit c = true

instance (n : Nat) (d : Text) : Decidable (Digits n d) :=
  decidable_of_iff (d.length = n ∧ d.all isHexDigit = true)
    ⟨fun ⟨hlength, hall⟩ => ⟨hlength, List.all_eq_true.mp hall⟩,
      fun ⟨hlength, hhex⟩ => ⟨hlength, List.all_eq_true.mpr hhex⟩⟩

theorem at_not_mem (h : ∀ c ∈ d, isHexDigit c = true) : '@' ∉ d :=
  fun hmem => absurd (h '@' hmem) (by decide)

theorem startsWithDigits_iff :
    startsWithDigits n s = true ↔ ∃ d rest, Digits n d ∧ s = d ++ rest := by
  rw [startsWithDigits, Bool.and_eq_true, decide_eq_true_eq, List.all_eq_true]
  constructor
  · rintro ⟨hlength, hhex⟩
    exact ⟨s.take n, s.drop n, ⟨hlength, hhex⟩, (List.take_append_drop n s).symm⟩
  · rintro ⟨d, rest, ⟨rfl, hhex⟩, rfl⟩
    rw [List.take_left]
    exact ⟨rfl, hhex⟩

theorem startsWithDigits_append (h : startsWithDigits n s = true) (t : Text) :
    startsWithDigits n (s ++ t) = true := by
  obtain ⟨d, rest, hd, rfl⟩ := startsWithDigits_iff.mp h
  exact startsWithDigits_iff.mpr ⟨d, rest ++ t, hd, List.append_assoc d rest t⟩

theorem startsWithDigits_append_of_le (h : n ≤ s.length) (t : Text) :
    startsWithDigits n (s ++ t) = startsWithDigits n s := by
  rw [startsWithDigits, List.take_append_of_le_length h, startsWithDigits]

/-- Behind some digits only the others are still to come. -/
theorem startsWithDigits_digits_append (hd : Digits k d) (v : Text) :
    startsWithDigits (k + n) (d ++ v) = startsWithDigits n v := by
  rw [startsWithDigits, ← hd.length, List.take_length_add_append, List.length_append,
    List.all_append, List.all_eq_true.mpr hd.hex, Bool.true_and, startsWithDigits]
  simp

/-- An at sign ends the digits. -/
theorem startsWithDigits_append_at (n : Nat) (u s : Text) :
    startsWithDigits n (u ++ '@' :: s) = startsWithDigits n u := by
  rcases Nat.lt_or_ge u.length n with hshort | hlong
  · have hleft : startsWithDigits n u = false := by
      rw [startsWithDigits, List.take_of_length_le hshort.le, decide_eq_false hshort.ne,
        Bool.false_and]
    rw [hleft]
    refine Bool.eq_false_iff.mpr fun h => ?_
    obtain ⟨d, rest, hd, heq⟩ := startsWithDigits_iff.mp h
    have hwhole : u ++ ['@'] <+: d ++ rest :=
      ⟨s, by rw [← heq, List.append_assoc, List.singleton_append]⟩
    have hstart : u ++ ['@'] <+: d := by
      refine List.prefix_of_prefix_length_le hwhole (List.prefix_append d rest) ?_
      rw [hd.length, List.length_append]
      exact hshort
    exact at_not_mem hd.hex (hstart.subset (by simp))
  · exact startsWithDigits_append_of_le hlong _

/-! ## What is left

The equations of `stripFrom` in terms of the text in front: an address goes, and
an at sign without its digits stays, like any other character. -/

theorem stripFrom_skip (n : Nat) (d s : Text) :
    stripFrom n d.length (d ++ s) = stripFrom n 0 s := by
  induction d with
  | nil => rfl
  | cons c d ih => exact ih

theorem stripFrom_address (hd : Digits n d) (s : Text) :
    stripFrom n 0 ('@' :: (d ++ s)) = stripFrom n 0 s := by
  have hstart : startsWithDigits n (d ++ s) = true := startsWithDigits_iff.mpr ⟨d, s, hd, rfl⟩
  have hskip := stripFrom_skip n d s
  rw [hd.length] at hskip
  rw [stripFrom, hstart, if_pos (by decide), hskip]

theorem stripFrom_at (h : startsWithDigits n s = false) :
    stripFrom n 0 ('@' :: s) = '@' :: stripFrom n 0 s := by
  rw [stripFrom, h, if_neg (by decide)]

theorem stripFrom_cons (h : c ≠ '@') (s : Text) :
    stripFrom n 0 (c :: s) = c :: stripFrom n 0 s := by
  rw [stripFrom, if_neg (by simp [h])]

theorem stripFrom_append (h : '@' ∉ u) (s : Text) :
    stripFrom n 0 (u ++ s) = u ++ stripFrom n 0 s := by
  induction u with
  | nil => rfl
  | cons c u ih =>
      have hc : c ≠ '@' := fun hc => h (hc ▸ List.mem_cons_self)
      rw [List.cons_append, stripFrom_cons hc, ih (List.not_mem_of_not_mem_cons h),
        List.cons_append]

/-- What stands before an at sign and what stands from it on are stripped apart. -/
theorem stripFrom_append_at (n : Nat) (u s : Text) :
    stripFrom n 0 (u ++ '@' :: s) = stripFrom n 0 u ++ stripFrom n 0 ('@' :: s) := by
  -- an address may be under way, but it ends before the at sign
  suffices hskip : ∀ skip ≤ u.length, stripFrom n skip (u ++ '@' :: s) =
      stripFrom n skip u ++ stripFrom n 0 ('@' :: s) from hskip 0 (Nat.zero_le _)
  induction u with
  | nil =>
      intro skip hskip
      obtain rfl : skip = 0 := Nat.le_zero.mp hskip
      rfl
  | cons c u ih =>
      intro skip hskip
      cases skip with
      | succ skip => exact ih skip (Nat.le_of_succ_le_succ hskip)
      | zero =>
          rw [List.cons_append, stripFrom, stripFrom, startsWithDigits_append_at]
          split
          · next hstart =>
              obtain ⟨d, rest, hd, rfl⟩ :=
                startsWithDigits_iff.mp (Bool.and_eq_true_iff.mp hstart).2
              refine ih n ?_
              rw [List.length_append, hd.length]
              exact Nat.le_add_right n _
          · rw [ih 0 (Nat.zero_le _), List.cons_append]

/-- Every address of the length goes, whatever stands on its two sides. -/
theorem stripFrom_around (hd : Digits n d) (u v : Text) :
    stripFrom n 0 (u ++ '@' :: (d ++ v)) = stripFrom n 0 u ++ stripFrom n 0 v := by
  rw [stripFrom_append_at, stripFrom_address hd]

/-! ## Other addresses

A short address with eight more digits behind it is taken for a long one, and
its own digits go with it. Any other short address gets through the first pass
as it is. -/

/-- One address replaced by another of the same length. -/
inductive Moved : Text → Text → Prop
  | intro (u v : Text) {n : Nat} {a b : Text} (hn : n = 8 ∨ n = 16) (ha : Digits n a)
      (hb : Digits n b) : Moved (u ++ '@' :: (a ++ v)) (u ++ '@' :: (b ++ v))

/-- Any number of addresses replaced. -/
def Readdressed : Text → Text → Prop := Relation.ReflTransGen Moved

theorem strip_long (hd : Digits 16 d) (u v : Text) :
    strip (u ++ '@' :: (d ++ v)) = stripFrom 8 0 (stripFrom 16 0 u ++ stripFrom 16 0 v) := by
  rw [strip, stripFrom_around hd]

theorem strip_short_of_digits (hd : Digits 8 d) (u : Text) (hv : startsWithDigits 8 v = true) :
    strip (u ++ '@' :: (d ++ v)) =
      stripFrom 8 0 (stripFrom 16 0 u ++ stripFrom 16 0 (v.drop 8)) := by
  obtain ⟨e, rest, he, rfl⟩ := startsWithDigits_iff.mp hv
  have hlong : Digits 16 (d ++ e) :=
    ⟨by rw [List.length_append, hd.length, he.length],
      fun c hc => (List.mem_append.mp hc).elim (hd.hex c) (he.hex c)⟩
  rw [← List.append_assoc d, strip_long hlong, ← he.length, List.drop_left]

theorem strip_short (hd : Digits 8 d) (u : Text) (hv : startsWithDigits 8 v = false) :
    strip (u ++ '@' :: (d ++ v)) = stripFrom 8 0 (stripFrom 16 0 u) ++
      stripFrom 8 0 (stripFrom 16 0 v) := by
  have hlong : startsWithDigits (8 + 8) (d ++ v) = false :=
    (startsWithDigits_digits_append hd v).trans hv
  rw [strip, stripFrom_append_at, stripFrom_at hlong, stripFrom_append (at_not_mem hd.hex),
    stripFrom_around hd]

theorem strip_eq_of_moved (h : Moved s t) : strip s = strip t := by
  cases h with
  | intro u v hn ha hb =>
      rcases hn with rfl | rfl
      · cases hv : startsWithDigits 8 v with
        | true => rw [strip_short_of_digits ha u hv, strip_short_of_digits hb u hv]
        | false => rw [strip_short ha u hv, strip_short hb u hv]
      · rw [strip_long ha, strip_long hb]

theorem strip_eq_of_readdressed (h : Readdressed s t) : strip s = strip t := by
  induction h with
  | refl => rfl
  | tail _ hlast ih => exact ih.trans (strip_eq_of_moved hlast)

theorem Readdressed.eq_nil_iff (h : Readdressed s t) : s = [] ↔ t = [] := by
  induction h with
  | refl => exact Iff.rfl
  | tail _ hlast ih =>
      refine ih.trans ?_
      cases hlast with
      | intro u v hn ha hb => simp

/-! ## Addresses in what is left -/

/-- Whether a text has an address of `n` digits or more. -/
def HasAddress (n : Nat) (s : Text) : Prop :=
  ∃ d, Digits n d ∧ '@' :: d <:+: s

/-- `k` hexadecimal digits with any number of addresses of `n` digits before and between them. -/
inductive Scattered (n : Nat) : Nat → Text → Prop
  | nil : Scattered n 0 []
  | digit {k : Nat} {c : Char} {row : Text} (hc : isHexDigit c = true) (h : Scattered n k row) :
      Scattered n (k + 1) (c :: row)
  | address {k : Nat} {d row : Text} (hd : Digits n d) (h : Scattered n k row) :
      Scattered n k ('@' :: (d ++ row))

/-- Whether some at sign has `n` digits behind it that addresses stand between. -/
def Torn (n : Nat) (s : Text) : Prop :=
  ∃ row, Scattered n n row ∧ startsWithDigits n row = false ∧ '@' :: row <:+: s

variable {row : Text}

theorem Scattered.le_length (h : Scattered n k row) : k ≤ row.length := by
  induction h with
  | nil => exact Nat.le_refl 0
  | digit _ _ ih => exact Nat.succ_le_succ ih
  | address _ _ ih =>
      rw [List.length_cons, List.length_append]
      omega

/-- Without the addresses the digits stand together. -/
theorem Scattered.stripFrom_append (h : Scattered n k row) :
    ∃ d, Digits k d ∧ ∀ v, stripFrom n 0 (row ++ v) = d ++ stripFrom n 0 v := by
  induction h with
  | nil => exact ⟨[], ⟨rfl, List.forall_mem_nil _⟩, fun _ => rfl⟩
  | @digit k c row hc _ ih =>
      obtain ⟨d, hd, hstrip⟩ := ih
      have hne : c ≠ '@' := fun hat => at_not_mem (d := [c]) (by simpa using hc) (by simp [hat])
      refine ⟨c :: d, ⟨congrArg (· + 1) hd.length, List.forall_mem_cons.mpr ⟨hc, hd.hex⟩⟩, ?_⟩
      intro v
      rw [List.cons_append, stripFrom_cons hne, hstrip, List.cons_append]
  | @address k e row he _ ih =>
      obtain ⟨d, hd, hstrip⟩ := ih
      refine ⟨d, hd, fun v => ?_⟩
      rw [List.cons_append, List.append_assoc, stripFrom_address he, hstrip]

/-- Where an at sign is left, there was one without its digits. -/
theorem exists_at_of_stripFrom {skip : Nat} {front back : Text}
    (h : stripFrom n skip s = front ++ '@' :: back) :
    ∃ u v, s = u ++ '@' :: v ∧ startsWithDigits n v = false ∧ stripFrom n 0 v = back := by
  fun_induction stripFrom n skip s generalizing front with
  | case1 => simp at h
  | case2 skip c s ih =>
      obtain ⟨u, v, rfl, hv⟩ := ih h
      exact ⟨c :: u, v, rfl, hv⟩
  | case3 c s _ ih =>
      obtain ⟨u, v, rfl, hv⟩ := ih h
      exact ⟨c :: u, v, rfl, hv⟩
  | case4 c s hkept ih =>
      cases front with
      | nil =>
          obtain ⟨rfl, hback⟩ := List.cons.inj h
          exact ⟨[], s, rfl, by simpa using hkept, hback⟩
      | cons e front =>
          obtain ⟨u, v, rfl, hv⟩ := ih (List.cons.inj h).2
          exact ⟨c :: u, v, rfl, hv⟩

/-- Where digits are left, they stood there with nothing but addresses between them. -/
theorem exists_scattered_of_stripFrom {skip : Nat} {back : Text}
    (h : stripFrom n skip s = d ++ back) (hd : ∀ c ∈ d, isHexDigit c = true) :
    ∃ row rest, s.drop skip = row ++ rest ∧ Scattered n d.length row := by
  fun_induction stripFrom n skip s generalizing d with
  | case1 skip =>
      obtain rfl := (List.append_eq_nil_iff.mp h.symm).1
      exact ⟨[], [], by simp, .nil⟩
  | case2 skip c s ih => exact ih h hd
  | case3 c s hgone ih =>
      obtain ⟨hc, hstart⟩ := Bool.and_eq_true_iff.mp hgone
      obtain rfl := of_decide_eq_true hc
      obtain ⟨e, after, he, rfl⟩ := startsWithDigits_iff.mp hstart
      obtain ⟨row, rest, hdrop, hrow⟩ := ih h hd
      rw [← he.length, List.drop_left] at hdrop
      refine ⟨'@' :: (e ++ row), rest, ?_, .address he hrow⟩
      rw [List.drop_zero, hdrop, List.cons_append, List.append_assoc]
  | case4 c s hkept ih =>
      cases d with
      | nil => exact ⟨[], c :: s, rfl, .nil⟩
      | cons e d =>
          obtain ⟨rfl, hback⟩ := List.cons.inj h
          obtain ⟨hc, hd⟩ := List.forall_mem_cons.mp hd
          obtain ⟨row, rest, hdrop, hrow⟩ := ih hback hd
          exact ⟨c :: row, rest, congrArg (c :: ·) hdrop, .digit hc hrow⟩

/-- An address is left exactly if some at sign is torn from its digits by other addresses. -/
theorem hasAddress_stripFrom_iff : HasAddress n (stripFrom n 0 s) ↔ Torn n s := by
  constructor
  · rintro ⟨d, hd, front, back, hleft⟩
    rw [List.append_assoc, List.cons_append] at hleft
    obtain ⟨u, v, rfl, hv, hback⟩ := exists_at_of_stripFrom hleft.symm
    obtain ⟨row, rest, hdrop, hrow⟩ := exists_scattered_of_stripFrom hback hd.hex
    rw [List.drop_zero] at hdrop
    subst hdrop
    rw [hd.length] at hrow
    refine ⟨row, hrow, ?_, u, rest, by simp⟩
    exact Bool.eq_false_iff.mpr fun h =>
      Bool.false_ne_true (hv.symm.trans (startsWithDigits_append h rest))
  · rintro ⟨row, hrow, hstart, u, v, rfl⟩
    obtain ⟨d, hd, hstrip⟩ := hrow.stripFrom_append
    have hat : startsWithDigits n (row ++ v) = false :=
      (startsWithDigits_append_of_le hrow.le_length v).trans hstart
    refine ⟨d, hd, stripFrom n 0 u, stripFrom n 0 v, ?_⟩
    rw [List.append_assoc u, List.cons_append, stripFrom_append_at, stripFrom_at hat, hstrip,
      List.append_assoc, List.cons_append]

/-! ## Two at signs close to each other -/

/-- Whether two at signs have fewer than `n` digits, and nothing else, between them. -/
def Close (n : Nat) (s : Text) : Prop :=
  ∃ d, d.length < n ∧ (∀ c ∈ d, isHexDigit c = true) ∧ '@' :: (d ++ ['@']) <:+: s

theorem Scattered.digits_or_at (h : Scattered n k row) :
    Digits k row ∨
      ∃ d rest, d.length ≤ k ∧ (∀ c ∈ d, isHexDigit c = true) ∧ row = d ++ '@' :: rest := by
  induction h with
  | nil => exact .inl ⟨rfl, List.forall_mem_nil _⟩
  | @digit k c row hc _ ih =>
      refine ih.imp (fun hrow => ?_) fun ⟨d, rest, hlength, hd, hrow⟩ => ?_
      · exact ⟨congrArg (· + 1) hrow.length, List.forall_mem_cons.mpr ⟨hc, hrow.hex⟩⟩
      · exact ⟨c :: d, rest, Nat.succ_le_succ hlength, List.forall_mem_cons.mpr ⟨hc, hd⟩,
          congrArg (c :: ·) hrow⟩
  | address _ _ _ => exact .inr ⟨[], _, Nat.zero_le _, List.forall_mem_nil _, rfl⟩

theorem Torn.close (h : Torn n s) : Close n s := by
  obtain ⟨row, hrow, hstart, hrowIn⟩ := h
  rcases hrow.digits_or_at with hdigits | ⟨d, rest, hlength, hd, rfl⟩
  · have hall := startsWithDigits_iff.mpr ⟨row, [], hdigits, (List.append_nil row).symm⟩
    exact absurd (hstart.symm.trans hall) Bool.false_ne_true
  · refine ⟨d, Nat.lt_of_le_of_ne hlength fun hfull => ?_, hd, List.IsInfix.trans ?_ hrowIn⟩
    · have hall := startsWithDigits_iff.mpr ⟨d, '@' :: rest, ⟨hfull, hd⟩, rfl⟩
      exact Bool.false_ne_true (hstart.symm.trans hall)
    · exact ⟨[], rest, by simp⟩

theorem exists_digits_of_stripFrom {back : Text} (h : stripFrom n 0 s = d ++ '@' :: back)
    (hd : ∀ c ∈ d, isHexDigit c = true) :
    ∃ e rest, e.length ≤ d.length ∧ (∀ c ∈ e, isHexDigit c = true) ∧ s = e ++ '@' :: rest := by
  induction s generalizing d with
  | nil => simp [stripFrom] at h
  | cons c s ih =>
      by_cases hc : c = '@'
      · exact ⟨[], s, Nat.zero_le _, List.forall_mem_nil _, by rw [hc, List.nil_append]⟩
      · rw [stripFrom_cons hc] at h
        cases d with
        | nil => exact absurd (List.cons.inj h).1 hc
        | cons f d =>
            obtain ⟨rfl, hback⟩ := List.cons.inj h
            obtain ⟨hcHex, hd⟩ := List.forall_mem_cons.mp hd
            obtain ⟨e, rest, hlength, he, rfl⟩ := ih hback hd
            exact ⟨c :: e, rest, Nat.succ_le_succ hlength, List.forall_mem_cons.mpr ⟨hcHex, he⟩,
              rfl⟩

/-- If two at signs are close in what is left, the first of them had one as close in the text. -/
theorem Close.of_stripFrom {m : Nat} (h : Close n (stripFrom m 0 s)) : Close n s := by
  obtain ⟨d, hlength, hd, front, back, hleft⟩ := h
  rw [List.append_assoc, List.cons_append] at hleft
  obtain ⟨u, v, rfl, _, hback⟩ := exists_at_of_stripFrom hleft.symm
  rw [List.append_assoc, List.singleton_append] at hback
  obtain ⟨e, rest, hle, he, rfl⟩ := exists_digits_of_stripFrom hback hd
  exact ⟨e, Nat.lt_of_le_of_lt hle hlength, he, u, rest, by simp⟩

end CrashDigest.Address
