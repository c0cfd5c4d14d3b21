import CrashDigest.Proofs.Fields
import Mathlib.Data.List.Induction
import Mathlib.Data.List.Nodup
import Mathlib.Data.List.Perm.Subperm

/-!
# Fields as a map with an order

A record shows its fields in the order in which their names were set first,
and the extractions set some of them more than once or merge what others have
set. Everything about this follows from two laws of `set`: a name that has its
place keeps it, so that setting it may be moved past other settings
(`set_setAll`), and setting what stands already does nothing (`set_of_get?`).

By the first, merging in fields that were set one after the other is setting
the same once more (`merge_setAll`). So however settings and merges are nested,
the fields are those of all the settings in one row (`Edits.fields_eq_ofList`),
merging is associative because gluing rows is, and of a row it is easy to say
what it makes: `IsMapOf` does, with the first settings for the order of the
names and the last ones for the values.
-/

namespace CrashDigest

/-- Where no key comes twice, the keys in their order and what stands under them are everything. -/
theorem Assoc.eq_filterMap {κ ν : Type} [DecidableEq κ] {entries : List (κ × ν)}
    (h : (entries.map Prod.fst).Nodup) :
    entries = (entries.map Prod.fst).filterMap fun key =>
      (entries.lookup key).map fun value => (key, value) := by
  induction entries with
  | nil => rfl
  | cons e rest ih =>
      obtain ⟨k, v⟩ := e
      obtain ⟨hk, hrest⟩ := List.nodup_cons.mp h
      have hother : ∀ key ∈ rest.map Prod.fst,
          ((k, v) :: rest).lookup key = rest.lookup key := by
        intro key hkey
        rw [List.lookup_cons, beq_eq_false_iff_ne.mpr (ne_of_mem_of_not_mem hkey hk)]
      rw [List.map_cons, List.filterMap_cons, List.lookup_cons_self, Option.map_some,
        List.filterMap_congr fun key hkey => by rw [hother key hkey], ← ih hrest]

namespace Fields

variable {f g : Fields} {key : FieldKey} {value : Text} {settings : List (FieldKey × Text)}

theorem length_keys (f : Fields) : f.keys.length = f.size := List.length_map _

theorem nodup_keys_empty : empty.keys.Nodup := List.Pairwise.nil

/-! ## Setting -/

theorem keys_set : (f.set key value).keys = if key ∈ f.keys then f.keys else f.keys ++ [key] :=
  Assoc.keys_put

theorem mem_keys_set : key ∈ (f.set key value).keys := by
  rw [keys_set]
  split
  · assumption
  · exact List.mem_append_right _ (List.mem_singleton_self key)

theorem get?_set (q : FieldKey) :
    (f.set key value).get? q = if q = key then some value else f.get? q :=
  Assoc.lookup_put q

theorem set_set (old : Text) : (f.set key old).set key value = f.set key value :=
  congrArg Fields.mk (Assoc.put_put old)

/-- A name that has its place keeps it, whatever else is set. -/
theorem set_comm {key' : FieldKey} {value' : Text} (hne : key ≠ key') (h : key ∈ f.keys) :
    (f.set key' value').set key value = (f.set key value).set key' value' :=
  congrArg Fields.mk (Assoc.put_comm hne h)

theorem set_of_get? (h : f.get? key = some value) : f.set key value = f :=
  congrArg Fields.mk (Assoc.put_of_lookup h)

theorem nodup_keys_set (h : f.keys.Nodup) : (f.set key value).keys.Nodup :=
  Assoc.nodup_keys_put h

theorem setAll_append (front back : List (FieldKey × Text)) :
    f.setAll (front ++ back) = (f.setAll front).setAll back :=
  List.foldl_append

theorem nodup_keys_setAll (h : f.keys.Nodup) (settings : List (FieldKey × Text)) :
    (f.setAll settings).keys.Nodup := by
  induction settings generalizing f with
  | nil => exact h
  | cons e settings ih => exact ih (nodup_keys_set h)

theorem get?_setAll (q : FieldKey) :
    (f.setAll settings).get? q = (settings.reverse.lookup q).or (f.get? q) := by
  induction settings generalizing f with
  | nil => rfl
  | cons e settings ih =>
      obtain ⟨key, value⟩ := e
      show ((f.set key value).setAll settings).get? q = _
      rw [ih, get?_set, List.reverse_cons, List.lookup_append, Option.or_assoc, List.lookup_cons,
        List.lookup_nil]
      by_cases hq : q = key
      · rw [if_pos hq, beq_iff_eq.mpr hq, Option.some_or]
      · rw [if_neg hq, beq_eq_false_iff_ne.mpr hq, Option.none_or]

/-- What stands already is not moved or changed by setting it again. -/
theorem setAll_of_get? (h : ∀ e ∈ settings, f.get? e.1 = some e.2) : f.setAll settings = f := by
  induction settings with
  | nil => rfl
  | cons e settings ih =>
      obtain ⟨hfirst, hrest⟩ := List.forall_mem_cons.mp h
      show (f.set e.1 e.2).setAll settings = f
      rw [set_of_get? hfirst, ih hrest]

/-- A name that has its place may be set before others or behind them. -/
theorem set_setAll (hplaced : key ∈ f.keys) (hother : key ∉ settings.map Prod.fst) :
    (f.setAll settings).set key value = (f.set key value).setAll settings := by
  induction settings generalizing f with
  | nil => rfl
  | cons e settings ih =>
      obtain ⟨q, w⟩ := e
      obtain ⟨hne, hrest⟩ := List.ne_and_not_mem_of_not_mem_cons hother
      have hstill : key ∈ (f.set q w).keys := by
        rw [keys_set]
        split
        · exact hplaced
        · exact List.mem_append_left _ hplaced
      show ((f.set q w).setAll settings).set key value = ((f.set key value).set q w).setAll settings
      rw [ih hstill hrest, set_comm hne hplaced]

/-! ## Merging -/

/-- Setting a name in the other fields first comes to the same as setting it afterwards. -/
theorem merge_set (hg : g.keys.Nodup) : f.merge (g.set key value) = (f.merge g).set key value := by
  obtain ⟨entries⟩ := g
  show f.setAll (Assoc.put key value entries) = (f.setAll entries).set key value
  induction entries generalizing f with
  | nil => rfl
  | cons e entries ih =>
      obtain ⟨k, v⟩ := e
      obtain ⟨hk, hrest⟩ := List.nodup_cons.mp hg
      rw [Assoc.put]
      split
      · next heq =>
          subst heq
          show (f.set k value).setAll entries = ((f.set k v).setAll entries).set k value
          rw [set_setAll mem_keys_set hk, set_set]
      · exact ih hrest

theorem merge_setAll (hg : g.keys.Nodup) (settings : List (FieldKey × Text)) :
    f.merge (g.setAll settings) = (f.merge g).setAll settings := by
  induction settings generalizing g with
  | nil => rfl
  | cons e settings ih =>
      show f.merge ((g.set e.1 e.2).setAll settings) = ((f.merge g).set e.1 e.2).setAll settings
      rw [ih (nodup_keys_set hg), merge_set hg]

theorem merge_assoc (hg : g.keys.Nodup) (h : Fields) : (f.merge g).merge h = f.merge (g.merge h) :=
  (merge_setAll hg h.entries).symm

theorem empty_merge (hg : g.keys.Nodup) : empty.merge g = g :=
  congrArg Fields.mk (entries_ofList hg)

theorem get?_eq_some (hf : f.keys.Nodup) : f.get? key = some value ↔ (key, value) ∈ f.entries :=
  Assoc.lookup_eq_some hf

theorem get?_eq_none : f.get? key = none ↔ key ∉ f.keys :=
  Assoc.lookup_eq_none

theorem mem_keys_iff : key ∈ f.keys ↔ f.has key = true := by
  rw [has, ← not_iff_not, ← get?_eq_none, Option.not_isSome_iff_eq_none]

theorem get?_merge (hg : g.keys.Nodup) (q : FieldKey) :
    (f.merge g).get? q = (g.get? q).or (f.get? q) := by
  have hreverse : (g.entries.reverse.map Prod.fst).Nodup := by
    rw [List.map_reverse]
    exact List.nodup_reverse.mpr hg
  have hlookup : g.entries.reverse.lookup q = g.get? q := by
    refine Option.ext fun value => ?_
    rw [Assoc.lookup_eq_some hreverse, List.mem_reverse, get?_eq_some hg]
  rw [merge, get?_setAll, hlookup]

theorem merge_merge_self (hg : g.keys.Nodup) : (f.merge g).merge g = f.merge g := by
  refine setAll_of_get? fun e he => ?_
  rw [get?_merge hg, (get?_eq_some hg).mpr he, Option.some_or]

/-! ## Equality without the order -/

theorem same_iff (hf : f.keys.Nodup) (hg : g.keys.Nodup) :
    f.same g = true ↔ ∀ key, f.get? key = g.get? key := by
  rw [same, Bool.and_eq_true, decide_eq_true_iff, List.all_eq_true]
  simp only [decide_eq_true_iff]
  constructor
  · rintro ⟨hsize, hall⟩ key
    have hincluded {key : FieldKey} {value : Text} (h : f.get? key = some value) :
        g.get? key = some value := hall _ ((get?_eq_some hf).mp h)
    have hsubset : f.keys ⊆ g.keys := by
      intro key hkey
      obtain ⟨value, hvalue⟩ := Option.isSome_iff_exists.mp (mem_keys_iff.mp hkey)
      exact mem_keys_iff.mpr (Option.isSome_iff_exists.mpr ⟨value, hincluded hvalue⟩)
    have hlength : g.keys.length ≤ f.keys.length := by
      rw [length_keys, length_keys]
      omega
    have hperm : f.keys.Perm g.keys := (hf.subperm hsubset).perm_of_length_le hlength
    cases hkey : f.get? key with
    | some value => rw [hincluded hkey]
    | none =>
        rw [eq_comm, get?_eq_none, ← hperm.mem_iff, ← get?_eq_none, hkey]
  · intro h
    have hperm : f.keys.Perm g.keys := (List.perm_ext_iff_of_nodup hf hg).mpr fun key => by
      rw [mem_keys_iff, mem_keys_iff, has, has, h]
    refine ⟨?_, fun e he => ?_⟩
    · rw [← length_keys, ← length_keys, hperm.length_eq]
    · rw [← h, (get?_eq_some hf).mpr he]

/-- Which of two fields is merged into the other matters where they disagree. -/
theorem same_merge_iff (hf : f.keys.Nodup) (hg : g.keys.Nodup) :
    (f.merge g).same (g.merge f) = true ↔
      ∀ key value value', f.get? key = some value → g.get? key = some value' → value = value' := by
  have hfg : (f.merge g).keys.Nodup := nodup_keys_setAll hf _
  have hgf : (g.merge f).keys.Nodup := nodup_keys_setAll hg _
  rw [same_iff hfg hgf]
  simp only [get?_merge hf, get?_merge hg]
  constructor
  · intro h key value value' hvalue hvalue'
    have hkey := h key
    rw [hvalue, hvalue'] at hkey
    exact (Option.some.inj hkey).symm
  · intro h key
    cases hvalue : f.get? key with
    | none => rw [Option.none_or, Option.or_none]
    | some value =>
        cases hvalue' : g.get? key with
        | none => rfl
        | some value' => rw [h key value value' hvalue hvalue']

/-! ## Setting from nothing -/

theorem eraseDups_concat (keys : List FieldKey) (key : FieldKey) :
    (keys ++ [key]).eraseDups =
      if key ∈ keys.eraseDups then keys.eraseDups else keys.eraseDups ++ [key] := by
  rw [List.eraseDups_append, List.removeAll]
  by_cases hkey : key ∈ keys <;> simp [hkey, List.eraseDups_cons]

theorem keys_ofList_eq (settings : List (FieldKey × Text)) :
    (ofList settings).keys = (settings.map Prod.fst).eraseDups := by
  induction settings using List.reverseRecOn with
  | nil => rfl
  | append_singleton settings e ih =>
      have hstep : ofList (settings ++ [e]) = (ofList settings).set e.1 e.2 :=
        setAll_append settings [e]
      rw [hstep, keys_set, ih, List.map_append, List.map_singleton, eraseDups_concat]

theorem get?_ofList (settings : List (FieldKey × Text)) (key : FieldKey) :
    (ofList settings).get? key = settings.reverse.lookup key := by
  rw [ofList, get?_setAll, get?, empty, List.lookup_nil, Option.or_none]

theorem nodup_keys_ofList (settings : List (FieldKey × Text)) : (ofList settings).keys.Nodup :=
  nodup_keys_setAll nodup_keys_empty settings

theorem merge_ofList (settings : List (FieldKey × Text)) :
    f.merge (ofList settings) = f.setAll settings :=
  merge_setAll nodup_keys_empty settings

/-- What fields say that come from some settings, made one after the other. -/
structure IsMapOf (f : Fields) (settings : List (FieldKey × Text)) : Prop where
  distinct : f.keys.Nodup
  /-- The names stand in the order in which each was set first. -/
  ordered : f.keys = (settings.map Prod.fst).eraseDups
  /-- Under a name stands what was set last. -/
  latest : ∀ key, f.get? key = settings.reverse.lookup key
  has_iff : ∀ key, f.has key = true ↔ key ∈ f.keys
  entries_eq : f.entries = f.keys.filterMap fun key => (f.get? key).map fun value => (key, value)
  size_eq : f.size = f.keys.length
  isEmpty_iff : f.isEmpty = true ↔ f.keys = []

theorem isMapOf_ofList (settings : List (FieldKey × Text)) :
    (ofList settings).IsMapOf settings where
  distinct := nodup_keys_ofList settings
  ordered := keys_ofList_eq settings
  latest := get?_ofList settings
  has_iff key := mem_keys_iff.symm
  entries_eq := Assoc.eq_filterMap (nodup_keys_ofList settings)
  size_eq := (length_keys _).symm
  isEmpty_iff := by rw [isEmpty, List.isEmpty_iff, keys, List.map_eq_nil_iff]

end Fields

/-- A way in which fields are made. -/
inductive Edits where
  /-- Nothing is set. -/
  | nothing
  | set (before : Edits) (key : FieldKey) (value : Text)
  /-- Fields that were made in such a way too are merged in. -/
  | merge (before other : Edits)
  deriving DecidableEq, Repr

namespace Edits

/-- The fields that are made. -/
def fields : Edits → Fields
  | .nothing => .empty
  | .set before key value => before.fields.set key value
  | .merge before other => before.fields.merge other.fields

/-- Everything that is set, in its order. What is merged in counts with all that made it. -/
def settings : Edits → List (FieldKey × Text)
  | .nothing => []
  | .set before key value => before.settings ++ [(key, value)]
  | .merge before other => before.settings ++ other.settings

/-- How settings and merges are nested makes no difference. -/
theorem fields_eq_ofList (e : Edits) : e.fields = .ofList e.settings := by
  induction e with
  | nothing => rfl
  | set before key value ih =>
      rw [fields, settings, ih, Fields.ofList, Fields.ofList, Fields.setAll_append]
      rfl
  | merge before other ihbefore ihother =>
      rw [fields, settings, ihbefore, ihother, Fields.merge_ofList, Fields.ofList, Fields.ofList,
        Fields.setAll_append]

theorem nodup_keys_fields (e : Edits) : e.fields.keys.Nodup := by
  rw [fields_eq_ofList]
  exact Fields.nodup_keys_ofList e.settings

/-- Fields are a map in the order of first setting, and merging is the algebra of such maps. -/
theorem fields_isMapOf_settings (e a b c : Edits) :
    e.fields.IsMapOf e.settings ∧
      (a.fields.same b.fields = true ↔ ∀ key, a.fields.get? key = b.fields.get? key) ∧
      a.fields.merge b.fields =
        b.fields.entries.foldl (fun f (key, value) => f.set key value) a.fields ∧
      Fields.empty.merge b.fields = b.fields ∧
      (a.fields.merge b.fields).merge b.fields = a.fields.merge b.fields ∧
      (a.fields.merge b.fields).merge c.fields = a.fields.merge (b.fields.merge c.fields) ∧
      ((a.fields.merge b.fields).same (b.fields.merge a.fields) = true ↔
        ∀ key value value', a.fields.get? key = some value → b.fields.get? key = some value' →
          value = value') := by
  have ha := a.nodup_keys_fields
  have hb := b.nodup_keys_fields
  refine ⟨?_, Fields.same_iff ha hb, rfl, Fields.empty_merge hb, Fields.merge_merge_self hb,
    Fields.merge_assoc hb c.fields, Fields.same_merge_iff ha hb⟩
  rw [fields_eq_ofList]
  exact Fields.isMapOf_ofList e.settings

end Edits

end CrashDigest
