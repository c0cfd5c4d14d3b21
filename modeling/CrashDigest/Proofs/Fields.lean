import CrashDigest.Fields
import CrashDigest.Proofs.Assoc
import CrashDigest.Proofs.OneLine

/-!
# Fields as the record sees them

A record writes a field as its name, an equals sign and its value, so three
things matter: no two names are written alike, no name holds an equals sign or
a line feed, and the values stay within one line. The names are settled here
for good. For the values this file only says how the property passes through
`set` and `ofList`; that the scans put nothing else in is shown scan by scan.

Fields that are made of a list in which no name comes twice are that list,
which is how the extractions make theirs.
-/

namespace CrashDigest

namespace FieldKey

theorem name_injective {a b : FieldKey} (h : a.name = b.name) : a = b := by
  cases a with
  | data n =>
      cases b with
      | data m =>
          have hdigits : Nat.toDigits 10 n = Nat.toDigits 10 m :=
            List.append_cancel_left h
          have hn := congrArg (Nat.ofDigitChars 10 · 0) hdigits
          simp only [Nat.ofDigitChars_toDigits (b := 10) (by omega) (by omega)] at hn
          rw [hn]
      | modemVersion => cases h
  | modemVersion =>
      cases b with
      | data m => cases h
      | modemVersion => rfl

theorem not_mem_name {key : FieldKey} {c : Char} (hc : c = '=' ∨ c = '\n') :
    c ∉ key.name := by
  cases key with
  | data n =>
      refine List.not_mem_append ?_ fun hdigit => ?_
      · rcases hc with rfl | rfl <;> decide
      · have hd := Nat.isDigit_of_mem_toDigits (by omega) (by omega) hdigit
        rcases hc with rfl | rfl <;> cases hd
  | modemVersion => rcases hc with rfl | rfl <;> decide

end FieldKey

namespace Fields

/-- The names that have a value, in their order. -/
def keys (f : Fields) : List FieldKey := f.entries.map Prod.fst

/-- Whether every value stays within one line. -/
def OneLine (f : Fields) : Prop := ∀ e ∈ f.entries, e.2.OneLine

theorem entries_setAll {f : Fields} {entries : List (FieldKey × Text)}
    (h : (f.keys ++ entries.map Prod.fst).Nodup) :
    (f.setAll entries).entries = f.entries ++ entries := by
  induction entries generalizing f with
  | nil => simp [setAll]
  | cons e entries ih =>
      obtain ⟨key, value⟩ := e
      have hkey : key ∉ f.keys := fun hmem =>
        (List.nodup_append.mp h).2.2 key hmem key List.mem_cons_self rfl
      have hset : (f.set key value).entries = f.entries ++ [(key, value)] :=
        Assoc.put_of_not_mem hkey
      have hnext : ((f.set key value).keys ++ entries.map Prod.fst).Nodup := by
        rw [keys, hset, List.map_append, List.append_assoc]
        exact h
      show ((f.set key value).setAll entries).entries = _
      rw [ih hnext, hset, List.append_assoc, List.singleton_append]

/-- Fields made of a list without a repeated name are that list. -/
theorem entries_ofList {entries : List (FieldKey × Text)}
    (h : (entries.map Prod.fst).Nodup) : (ofList entries).entries = entries := by
  simpa [ofList, empty] using entries_setAll (f := empty) (by simpa [keys, empty] using h)

theorem keys_ofList {entries : List (FieldKey × Text)}
    (h : (entries.map Prod.fst).Nodup) : (ofList entries).keys = entries.map Prod.fst := by
  rw [keys, entries_ofList h]

theorem oneLine_empty : empty.OneLine := fun _ h => nomatch h

theorem OneLine.set {f : Fields} (hf : f.OneLine) {key : FieldKey} {value : Text}
    (hv : value.OneLine) : (f.set key value).OneLine := by
  intro e he
  rcases Assoc.mem_put he with rfl | hmem
  · exact hv
  · exact hf e hmem

theorem OneLine.setAll {f : Fields} (hf : f.OneLine) {entries : List (FieldKey × Text)}
    (he : ∀ e ∈ entries, e.2.OneLine) : (f.setAll entries).OneLine :=
  List.foldlRecOn entries _ hf fun _ hg e hmem => OneLine.set hg (he e hmem)

theorem oneLine_ofList {entries : List (FieldKey × Text)}
    (he : ∀ e ∈ entries, e.2.OneLine) : (ofList entries).OneLine :=
  oneLine_empty.setAll he

/-- Values of one line under some names. -/
theorem oneLine_ofList_zip {keys : List FieldKey} {values : List Text}
    (hv : ∀ v ∈ values, v.OneLine) : (ofList (keys.zip values)).OneLine :=
  oneLine_ofList fun _ he => hv _ (List.of_mem_zip he).2

theorem OneLine.of_get? {f : Fields} (hf : f.OneLine) {key : FieldKey} {value : Text}
    (h : f.get? key = some value) : value.OneLine := by
  obtain ⟨front, back, hentries, _⟩ := List.lookup_eq_some_iff.mp h
  exact hf (key, value) (by simp [hentries])

end Fields

end CrashDigest
