import CrashDigest.Assoc

/-!
# Ordered associations as a store

`put` is described by the three things a reader can ask of an association list:
what stands under a key, which keys there are and in what order, and which
entries there are at all. Every proof about fields or about a tree of files
asks one of these and never looks at the recursion.
-/

namespace CrashDigest.Assoc

variable {κ ν : Type} [DecidableEq κ] {key : κ} {value : ν} {entries : List (κ × ν)}

theorem lookup_put [BEq κ] [LawfulBEq κ] (q : κ) :
    (put key value entries).lookup q =
      if q = key then some value else entries.lookup q := by
  induction entries with
  | nil =>
      rw [put, List.lookup_cons, List.lookup_nil]
      by_cases hq : q = key
      · rw [if_pos hq, beq_iff_eq.mpr hq]
      · rw [if_neg hq, beq_eq_false_iff_ne.mpr hq]
  | cons e rest ih =>
      obtain ⟨k, v⟩ := e
      rw [put]
      split
      · next hk =>
          subst hk
          rw [List.lookup_cons, List.lookup_cons]
          by_cases hq : q = k
          · rw [if_pos hq, beq_iff_eq.mpr hq]
          · rw [if_neg hq, beq_eq_false_iff_ne.mpr hq]
      · next hk =>
          rw [List.lookup_cons, List.lookup_cons, ih]
          by_cases hq : q = k
          · subst hq
            simp only [if_neg hk, beq_self_eq_true]
          · rw [beq_eq_false_iff_ne.mpr hq]

theorem keys_put :
    (put key value entries).map Prod.fst =
      if key ∈ entries.map Prod.fst then entries.map Prod.fst
      else entries.map Prod.fst ++ [key] := by
  induction entries with
  | nil => simp [put]
  | cons e rest ih =>
      obtain ⟨k, v⟩ := e
      rw [put]
      split
      · next hk => simp [hk]
      · next hk =>
          rw [List.map_cons, ih]
          have hk' : key ≠ k := Ne.symm hk
          by_cases hmem : key ∈ rest.map Prod.fst <;> simp [hmem, hk']

theorem mem_put {e : κ × ν} (h : e ∈ put key value entries) :
    e = (key, value) ∨ e ∈ entries := by
  induction entries with
  | nil => exact Or.inl (List.mem_singleton.mp h)
  | cons e' rest ih =>
      rw [put] at h
      split at h
      · rcases List.mem_cons.mp h with rfl | hmem
        · exact Or.inl rfl
        · exact Or.inr (List.mem_cons_of_mem _ hmem)
      · rcases List.mem_cons.mp h with rfl | hmem
        · exact Or.inr List.mem_cons_self
        · exact (ih hmem).imp_right (List.mem_cons_of_mem _)

/-- A key that is not there yet gets its place at the end. -/
theorem put_of_not_mem (h : key ∉ entries.map Prod.fst) :
    put key value entries = entries ++ [(key, value)] := by
  induction entries with
  | nil => rfl
  | cons e rest ih =>
      obtain ⟨k, v⟩ := e
      obtain ⟨hne, hrest⟩ := List.ne_and_not_mem_of_not_mem_cons h
      rw [put, if_neg (Ne.symm hne), ih hrest, List.cons_append]

theorem put_put (old : ν) :
    put key value (put key old entries) = put key value entries := by
  induction entries with
  | nil => simp [put]
  | cons e rest ih =>
      obtain ⟨k, v⟩ := e
      by_cases hk : k = key
      · simp [put, hk]
      · simp [put, hk, ih]

/-- A key that is there keeps its place, whatever else is put. -/
theorem put_comm {key' : κ} {value' : ν} (hne : key ≠ key') (h : key ∈ entries.map Prod.fst) :
    put key value (put key' value' entries) = put key' value' (put key value entries) := by
  induction entries with
  | nil => cases h
  | cons e rest ih =>
      obtain ⟨k, v⟩ := e
      by_cases hk : k = key
      · subst hk
        simp [put, hne]
      · have hrest : key ∈ rest.map Prod.fst :=
          List.mem_of_ne_of_mem (Ne.symm hk) h
        by_cases hk' : k = key'
        · subst hk'
          simp [put, Ne.symm hne]
        · simp [put, hk, hk', ih hrest]

theorem nodup_keys_put (h : (entries.map Prod.fst).Nodup) :
    ((put key value entries).map Prod.fst).Nodup := by
  rw [keys_put]
  split
  · exact h
  · next hkey =>
      refine List.nodup_append.mpr ⟨h, by simp, fun k hk k' hk' => ?_⟩
      rw [List.mem_singleton.mp hk']
      exact ne_of_mem_of_not_mem hk hkey

/-- Putting what stands there already changes nothing. -/
theorem put_of_lookup (h : entries.lookup key = some value) : put key value entries = entries := by
  induction entries with
  | nil => cases h
  | cons e rest ih =>
      obtain ⟨k, v⟩ := e
      rw [List.lookup_cons] at h
      by_cases hk : k = key
      · subst hk
        simp only [beq_self_eq_true, Option.some.injEq] at h
        rw [put, if_pos rfl, h]
      · rw [beq_eq_false_iff_ne.mpr (Ne.symm hk)] at h
        rw [put, if_neg hk, ih h]

omit [DecidableEq κ] in
theorem lookup_eq_none [BEq κ] [LawfulBEq κ] :
    entries.lookup key = none ↔ key ∉ entries.map Prod.fst := by
  rw [List.lookup_eq_none_iff]
  simp only [bne_iff_ne, List.mem_map, not_exists, not_and]
  exact ⟨fun h e he heq => h e he heq.symm, fun h e he heq => h e he heq.symm⟩

theorem lookup_eq_some [BEq κ] [LawfulBEq κ] (h : (entries.map Prod.fst).Nodup) :
    entries.lookup key = some value ↔ (key, value) ∈ entries := by
  induction entries with
  | nil => simp
  | cons e rest ih =>
      obtain ⟨k, v⟩ := e
      obtain ⟨hk, hrest⟩ := List.nodup_cons.mp h
      rw [List.lookup_cons, List.mem_cons, Prod.mk.injEq]
      by_cases heq : key = k
      · subst heq
        have habsent : (key, value) ∉ rest := fun hmem =>
          hk (List.mem_map.mpr ⟨_, hmem, rfl⟩)
        simp [habsent, eq_comm]
      · rw [beq_eq_false_iff_ne.mpr heq]
        simp [heq, ih hrest]

end CrashDigest.Assoc
