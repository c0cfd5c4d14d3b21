import Mathlib.Data.List.Induction
import Mathlib.Data.List.TakeWhile
import CrashDigest.Dump.JavaCrash
import CrashDigest.Proofs.AddressText
import CrashDigest.Proofs.Fields

/-!
# The signature of a Java crash

Two crashes count as one if their fields are the same, so the fields should not
depend on where objects happened to lie. They do not: reports that differ in
their addresses only give the same fields (`fields_eq_of_readdressed`).

That no field shows an address is another matter. Each field is one of the three
texts of the report without its addresses, with a fixed text before it or with a
part left out that has none, so an address in a field comes from the stripping
alone. `hasAddress_fields_iff` says when there is one.
-/

namespace CrashDigest

theorem not_isHexDigit_of_isBlank {c : Char} (h : isBlank c = true) : isHexDigit c = false := by
  refine Bool.eq_false_iff.mpr fun hc => ?_
  simp only [isHexDigit, Char.isDigit, Bool.or_eq_true, Bool.and_eq_true, decide_eq_true_eq,
    Char.le_def, UInt32.le_iff_toNat_le] at hc
  simp only [isBlank, blankRanges, List.any_cons, List.any_nil, Bool.or_eq_true, Bool.and_eq_true,
    decide_eq_true_eq, Char.toNat] at h
  simp at hc h
  omega

namespace Address

variable {n : Nat} {s u v : Text}

/-! ## Addresses in a part of a text -/

theorem hasAddress_append_left (h : '@' ∉ u) (s : Text) :
    HasAddress n (u ++ s) ↔ HasAddress n s := by
  refine exists_congr fun d => and_congr_right fun _ => ?_
  induction u with
  | nil => rfl
  | cons c u ih =>
      rw [List.cons_append, List.infix_cons_iff, ih (List.not_mem_of_not_mem_cons h),
        or_iff_right]
      rintro ⟨rest, hrest⟩
      exact h (List.head_eq_of_cons_eq hrest ▸ List.mem_cons_self)

theorem hasAddress_append_right (hn : 0 < n) (h : ∀ c ∈ v, isHexDigit c = false) (s : Text) :
    HasAddress n (s ++ v) ↔ HasAddress n s := by
  refine exists_congr fun d => and_congr_right fun hd => ?_
  induction v using List.reverseRecOn with
  | nil => rw [List.append_nil]
  | append_singleton v c ih =>
      obtain ⟨hv, hc⟩ := List.forall_mem_append.mp h
      rw [← List.append_assoc, List.infix_concat_iff, ih hv, or_iff_right]
      rintro ⟨front, hfront⟩
      rcases List.eq_nil_or_concat d with rfl | ⟨e, f, rfl⟩
      · exact absurd hd.length hn.ne
      · have hlast : f = c := by
          rw [List.concat_eq_append, ← List.cons_append, ← List.append_assoc] at hfront
          exact List.head_eq_of_cons_eq (List.append_inj' hfront rfl).2
        have hf := hd.hex f (by simp)
        rw [hlast, hc c (by simp)] at hf
        cases hf

/-- Blanks around a text have no part in its addresses. -/
theorem hasAddress_trim (hn : 0 < n) (s : Text) : HasAddress n s.trim ↔ HasAddress n s := by
  have hfront : '@' ∉ s.takeWhile isBlank := fun hmem =>
    absurd (List.mem_takeWhile_imp hmem) (by decide)
  have hback : ∀ c ∈ ((s.dropWhile isBlank).reverse.takeWhile isBlank).reverse,
      isHexDigit c = false := fun c hmem =>
    not_isHexDigit_of_isBlank (List.mem_takeWhile_imp (List.mem_reverse.mp hmem))
  have hwhole : s = s.takeWhile isBlank ++
      (s.trim ++ ((s.dropWhile isBlank).reverse.takeWhile isBlank).reverse) := by
    rw [Text.trim, Text.trimEnd, ← List.reverse_append, List.takeWhile_append_dropWhile,
      List.reverse_reverse, List.takeWhile_append_dropWhile]
  conv_rhs => rw [hwhole]
  rw [hasAddress_append_left hfront, hasAddress_append_right hn hback]

theorem not_hasAddress (h : '@' ∉ s) : ¬ HasAddress n s := fun ⟨_, _, haddress⟩ =>
  h (haddress.subset List.mem_cons_self)

end Address

namespace JavaCrash

open Address

/-- What a report says of the exception: the last cause or, without one, the line before the first
frame. -/
def Report.message (r : Report) : Text :=
  if r.causedBy = [] then r.exception else r.causedBy

theorem summary_eq (r : Report) : r.summary = strip r.message := rfl

/-- The fields of a report, one behind the other. -/
theorem entries_fields (kind : JavaCrashKind) (r : Report) :
    (fields kind r).entries = (.data 0, strip r.process) :: summaryFields kind r.summary ++
      [(.data 2, strip r.frames)] := by
  refine Fields.entries_ofList ?_
  unfold summaryFields
  split
  · show [FieldKey.data 0, .data 1, .data 2].Nodup
    decide
  · split
    · show [FieldKey.data 0, .data 1, .data 3, .data 2].Nodup
      decide
    · show [FieldKey.data 0, .data 1, .data 2].Nodup
      decide

/-- The size of a message is taken from behind the name of the exception, where all the addresses
stand. -/
theorem hasAddress_size {s : Text} (h : s.trim.startsWith transactionSize = true) :
    HasAddress 8 (s.trim.drop (transactionTooLarge.length + 2)) ↔ HasAddress 8 s := by
  have hfront : '@' ∉ s.trim.take (transactionTooLarge.length + 2) := by
    obtain ⟨rest, hrest⟩ := Text.startsWith_iff.mp h
    rw [← hrest, List.take_append_of_le_length (by decide)]
    decide
  rw [← hasAddress_append_left hfront, List.take_append_drop, hasAddress_trim (by decide)]

theorem hasAddress_summaryFields (kind : JavaCrashKind) (s : Text) :
    (∃ e ∈ summaryFields kind s, HasAddress 8 e.2) ↔ HasAddress 8 s := by
  unfold summaryFields
  split
  · rw [← hasAddress_append_left (u := "app_native_crash") (by decide)]
    simp
  · split
    · next hsize =>
        have hname : ¬ HasAddress 8 transactionTooLarge := not_hasAddress (by decide)
        rw [← hasAddress_size hsize]
        simp [hname]
    · simp

/-- An address is left in a text exactly if, once the long ones are gone, some at sign is torn from
its digits by other addresses. Two at signs must then have stood close to each other from the
start. A field of a report shows an address exactly if one is left in the text that the field is
made of. -/
theorem hasAddress_fields_iff (s : Text) (kind : JavaCrashKind) (r : Report) :
    (HasAddress 8 (strip s) ↔ Torn 8 (stripFrom 16 0 s)) ∧
    (HasAddress 8 (strip s) → Close 8 s) ∧
    ((∃ e ∈ (fields kind r).entries, HasAddress 8 e.2) ↔
      Torn 8 (stripFrom 16 0 r.process) ∨ Torn 8 (stripFrom 16 0 r.message) ∨
        Torn 8 (stripFrom 16 0 r.frames)) := by
  have hstrip (s : Text) : HasAddress 8 (strip s) ↔ Torn 8 (stripFrom 16 0 s) :=
    hasAddress_stripFrom_iff
  refine ⟨hstrip s, fun h => ((hstrip s).mp h).close.of_stripFrom, ?_⟩
  have hsummary := hasAddress_summaryFields kind r.summary
  rw [entries_fields, ← hstrip, ← hstrip, ← hstrip, ← summary_eq, ← hsummary]
  simp [or_and_right, exists_or]

/-- An at sign with seven digits, and an address with one digit too many behind it. -/
def tornAddress : Text := "Foo@1a2b3c4@deadbeefd"

theorem hasAddress_tornAddress : HasAddress 8 (strip tornAddress) :=
  ⟨"1a2b3c4d".toList, by decide, by decide⟩

/-- The digit too many is left where the address was, and makes eight. -/
theorem strip_tornAddress :
    strip tornAddress = ("Foo@1a2b3c4d" : Text) ∧ HasAddress 8 (strip tornAddress) :=
  ⟨by decide, hasAddress_tornAddress⟩

/-- Its two at signs are close, and a report on a process of that name shows the address. -/
theorem close_tornAddress :
    HasAddress 8 (strip tornAddress) ∧ Close 8 tornAddress ∧
    ∃ e ∈ (fields .app ⟨tornAddress, [], [], []⟩).entries, HasAddress 8 e.2 := by
  obtain ⟨htorn, hclose, hfields⟩ :=
    hasAddress_fields_iff tornAddress .app ⟨tornAddress, [], [], []⟩
  exact ⟨hasAddress_tornAddress, hclose hasAddress_tornAddress,
    hfields.mpr (.inl (htorn.mp hasAddress_tornAddress))⟩

/-! ## Other addresses -/

/-- Two reports that differ in the digits of addresses only. -/
structure Report.Readdressed (r r' : Report) : Prop where
  process : Address.Readdressed r.process r'.process
  causedBy : Address.Readdressed r.causedBy r'.causedBy
  exception : Address.Readdressed r.exception r'.exception
  frames : Address.Readdressed r.frames r'.frames

variable {r r' : Report}

theorem Report.Readdressed.summary_eq (h : r.Readdressed r') : r.summary = r'.summary := by
  rw [Report.summary, Report.summary]
  by_cases hnone : r.causedBy = []
  · rw [if_pos hnone, if_pos (h.causedBy.eq_nil_iff.mp hnone),
      strip_eq_of_readdressed h.exception]
  · rw [if_neg hnone, if_neg (fun hnone' => hnone (h.causedBy.eq_nil_iff.mpr hnone')),
      strip_eq_of_readdressed h.causedBy]

/-- Where the objects of a crash lay makes no difference to its fields. -/
theorem fields_eq_of_readdressed (kind : JavaCrashKind) (h : r.Readdressed r') :
    fields kind r = fields kind r' := by
  rw [fields, fields, strip_eq_of_readdressed h.process, h.summary_eq,
    strip_eq_of_readdressed h.frames]

/-- A crash whose cause has a digit and a long address behind a short address. -/
def firstCrash : Report :=
  ⟨" p", " X: a@0123abcd5@00000000ffffffff", [], "F@1a2b3c4d.run"⟩

/-- The same crash with its objects elsewhere. -/
def secondCrash : Report :=
  ⟨" p", " X: a@456789015@0123456701234567", [], "F@deadbeef.run"⟩

theorem fields_of_secondCrash :
    firstCrash.Readdressed secondCrash ∧
    fields .systemServer firstCrash = fields .systemServer secondCrash := by
  have hshort : Moved " X: a@0123abcd5@00000000ffffffff" " X: a@456789015@00000000ffffffff" :=
    .intro " X: a" "5@00000000ffffffff" (a := "0123abcd") (b := "45678901") (.inl rfl)
      (by decide) (by decide)
  have hlong : Moved " X: a@456789015@00000000ffffffff" " X: a@456789015@0123456701234567" :=
    .intro " X: a@456789015" "" (a := "00000000ffffffff") (b := "0123456701234567") (.inr rfl)
      (by decide) (by decide)
  have hframe : Moved "F@1a2b3c4d.run" "F@deadbeef.run" :=
    .intro "F" ".run" (a := "1a2b3c4d") (b := "deadbeef") (.inl rfl)
      (by decide) (by decide)
  have hcrashes : firstCrash.Readdressed secondCrash :=
    ⟨.refl, .tail (.single hshort) hlong, .refl, .single hframe⟩
  exact ⟨hcrashes, fields_eq_of_readdressed .systemServer hcrashes⟩
end JavaCrash

end CrashDigest
