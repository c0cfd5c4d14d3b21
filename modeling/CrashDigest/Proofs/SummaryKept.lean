import Mathlib.Data.List.DropRight
import CrashDigest.Proofs.CrashSignature

/-!
# The summary in the fields

The summary of a Java crash goes to the fields in one of three ways: behind a
fixed text for a native crash, in two parts for a message that was too large,
and else as it is. The kind of a report is known from the artifact, and whether
the summary is in two parts shows in the fields, so it can be put together again
(`toldSummary`).

Only the blanks around it can be lost, with a message that was too large: the
test looks at the summary without them, and so does the cut behind the name of
the exception. What is cut out there is the glue of two characters, which the
name and the beginning of the message guarantee (`glue_size`).
-/

namespace CrashDigest

namespace Text

theorem dropWhile_trim (s : Text) : s.trim.dropWhile isBlank = s.trim := by
  obtain ⟨tail, htail⟩ : s.trim <+: s.dropWhile isBlank := List.rdropWhile_prefix isBlank _
  have hhead := List.head?_dropWhile_not isBlank s
  rw [← htail] at hhead
  cases htrim : s.trim with
  | nil => rfl
  | cons c rest =>
      rw [htrim] at hhead
      have hblank : isBlank c = false := hhead
      rw [List.dropWhile_cons, hblank, if_neg Bool.false_ne_true]

/-- A text that has been trimmed has no blanks around it any more. -/
theorem trim_trim (s : Text) : s.trim.trim = s.trim := by
  rw [trim, dropWhile_trim]
  exact List.rdropWhile_idempotent isBlank _

end Text

namespace JavaCrash

variable {kind : JavaCrashKind} {r : Report} {s : Text}

/-- The summary that some fields tell, for the kind of the report they are made of. -/
def toldSummary (kind : JavaCrashKind) (f : Fields) : Text :=
  let signature := (f.get? (.data 1)).getD []
  if kind = .appNative then signature.drop ("app_native_crash" : Text).length
  else
    match f.get? (.data 3) with
    | some size => signature ++ (": " : Text) ++ size
    | none => signature

/-- The name of the exception and the size, with a glue between them, are the summary. -/
theorem glue_size (h : transactionSize <+: s) :
    transactionTooLarge ++ (": " : Text) ++ s.drop (transactionTooLarge.length + 2) = s := by
  have hglue : transactionTooLarge ++ (": " : Text) <+: s :=
    .trans ⟨"data parcel size", by decide⟩ h
  exact List.prefix_iff_eq_append.mp hglue

/-! ## The three ways -/

theorem fields_appNative (r : Report) :
    (fields .appNative r).get? (.data 1) = some (("app_native_crash" : Text) ++ r.summary) ∧
    (fields .appNative r).get? (.data 3) = none := by
  rw [Fields.get?, Fields.get?, entries_fields]
  exact ⟨rfl, rfl⟩

theorem fields_of_size (hkind : kind ≠ .appNative) (h : transactionSize <+: r.summary.trim) :
    (fields kind r).get? (.data 1) = some transactionTooLarge ∧
    (fields kind r).get? (.data 3) =
      some (r.summary.trim.drop (transactionTooLarge.length + 2)) ∧
    (fields kind r).keys = [.data 0, .data 1, .data 3, .data 2] := by
  rw [Fields.get?, Fields.get?, Fields.keys, entries_fields, summaryFields, if_neg hkind,
    if_pos (Text.startsWith_iff.mpr h)]
  exact ⟨rfl, rfl, rfl⟩

theorem fields_of_no_size (hkind : kind ≠ .appNative)
    (h : ¬ transactionSize <+: r.summary.trim) :
    (fields kind r).get? (.data 1) = some r.summary ∧
    (fields kind r).get? (.data 3) = none ∧
    (fields kind r).keys = [.data 0, .data 1, .data 2] := by
  rw [Fields.get?, Fields.get?, Fields.keys, entries_fields, summaryFields, if_neg hkind,
    if_neg (mt Text.startsWith_iff.mp h)]
  exact ⟨rfl, rfl, rfl⟩

theorem toldSummary_appNative (r : Report) :
    toldSummary .appNative (fields .appNative r) = r.summary := by
  rw [toldSummary, if_pos rfl, (fields_appNative r).1]
  exact List.drop_left

theorem toldSummary_of_size (hkind : kind ≠ .appNative) (h : transactionSize <+: r.summary.trim) :
    toldSummary kind (fields kind r) = r.summary.trim := by
  obtain ⟨hsignature, hsize, _⟩ := fields_of_size hkind h
  rw [toldSummary, if_neg hkind, hsignature, hsize]
  exact glue_size h

theorem toldSummary_of_no_size (hkind : kind ≠ .appNative)
    (h : ¬ transactionSize <+: r.summary.trim) : toldSummary kind (fields kind r) = r.summary := by
  obtain ⟨hsignature, hsize, _⟩ := fields_of_no_size hkind h
  rw [toldSummary, if_neg hkind, hsignature, hsize]
  rfl

/-- The summary of a report stands behind a fixed text if the crash is native. Else the name of the
exception and the size make it up, if it is for a message that was too large, and one field is all
of it if not. In all cases it can be put together again, but for the blanks around it. -/
theorem toldSummary_fields (kind : JavaCrashKind) (r : Report) :
    let s := Address.strip (if r.causedBy = [] then r.exception else r.causedBy)
    let f := fields kind r
    (if kind = .appNative then
      f.get? (.data 1) = some (("app_native_crash" : Text) ++ s) ∧ f.has (.data 3) = false
    else
      (f.has (.data 3) = true ↔
        ("android.os.TransactionTooLargeException: data parcel size" : Text) <+: s.trim) ∧
      match f.get? (.data 3) with
      | some size =>
          f.get? (.data 1) = some ("android.os.TransactionTooLargeException" : Text) ∧
          ("android.os.TransactionTooLargeException" : Text) ++ (": " : Text) ++ size = s.trim ∧
          f.keys = [.data 0, .data 1, .data 3, .data 2]
      | none => f.get? (.data 1) = some s ∧ f.keys = [.data 0, .data 1, .data 2]) ∧
    (toldSummary kind f).trim = s.trim := by
  intro s f
  by_cases hkind : kind = .appNative
  · subst hkind
    obtain ⟨hsignature, hnone⟩ := fields_appNative r
    refine ⟨?_, congrArg Text.trim (toldSummary_appNative r)⟩
    rw [if_pos rfl, Fields.has, hnone]
    exact ⟨hsignature, rfl⟩
  · by_cases hsize : transactionSize <+: r.summary.trim
    · obtain ⟨hsignature, hdetail, hkeys⟩ := fields_of_size hkind hsize
      refine ⟨?_, ?_⟩
      · rw [if_neg hkind, Fields.has, hdetail]
        exact ⟨iff_of_true rfl hsize, hsignature, glue_size hsize, hkeys⟩
      · rw [toldSummary_of_size hkind hsize]
        exact Text.trim_trim r.summary
    · obtain ⟨hsignature, hdetail, hkeys⟩ := fields_of_no_size hkind hsize
      refine ⟨?_, congrArg Text.trim (toldSummary_of_no_size hkind hsize)⟩
      rw [if_neg hkind, Fields.has, hdetail]
      exact ⟨iff_of_false Bool.false_ne_true hsize, hsignature, hkeys⟩

end JavaCrash

end CrashDigest
