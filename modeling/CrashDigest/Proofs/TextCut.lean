import CrashDigest.Text.Basic

/-!
# What a cut leaves

`seek` walks along a text and keeps what it has passed in an accumulator, and
`cut`, `cutLast` and `includes` are all made of it. Nobody who reads tokens off
a line wants to see the accumulator, so this file says once what comes out: the
two sides of a cut, with the word between them, are the text again, whichever
end the cut was looked for from, and of the places where a text could be cut it
is the first (`cut_eq_some_iff`).

Much is cut at one item again and again, and `induction_on_first` goes along with
that.
-/

namespace CrashDigest.Text

/-- A sequence does not hold an item, or it goes on behind the first one. -/
@[elab_as_elim]
theorem induction_on_first {α : Type} (c : α) {motive : List α → Prop} (s : List α)
    (absent : ∀ s, c ∉ s → motive s)
    (first : ∀ front rest, c ∉ front → motive rest → motive (front ++ c :: rest)) :
    motive s := by
  -- on the length, because what is behind the first item is not the tail
  induction hlength : s.length using Nat.strongRecOn generalizing s with
  | _ n ih =>
      by_cases h : c ∈ s
      · obtain ⟨front, rest, rfl, hfront⟩ := List.eq_append_cons_of_mem h
        have hshort : rest.length < n := by
          rw [← hlength, List.length_append, List.length_cons]
          omega
        exact first front rest hfront (ih rest.length hshort rest rfl)
      · exact absent s h

theorem startsWith_iff {s w : Text} : s.startsWith w = true ↔ w <+: s :=
  List.isPrefixOf_iff_prefix

theorem seekFrom_eq_some {here : Text → Bool} {before s a b : Text}
    (h : seekFrom here before s = some (a, b)) :
    a ++ b = before.reverse ++ s ∧ here b = true := by
  induction s generalizing before with
  | nil =>
      rw [seekFrom] at h
      split at h
      · next hh =>
          cases h
          exact ⟨rfl, hh⟩
      · cases h
  | cons c s ih =>
      rw [seekFrom] at h
      split at h
      · next hh =>
          cases h
          exact ⟨rfl, hh⟩
      · obtain ⟨hab, hh⟩ := ih h
        exact ⟨by simpa using hab, hh⟩

theorem seek_eq_some {here : Text → Bool} {s a b : Text}
    (h : s.seek here = some (a, b)) : a ++ b = s ∧ here b = true := by
  simpa using seekFrom_eq_some h

theorem cut_eq_some {s w a b : Text} (h : s.cut w = some (a, b)) :
    s = a ++ w ++ b := by
  obtain ⟨⟨before, rest⟩, hseek, hab⟩ := Option.map_eq_some_iff.mp h
  obtain ⟨hs, hw⟩ := seek_eq_some hseek
  obtain ⟨after, rfl⟩ := startsWith_iff.mp hw
  cases hab
  simp [← hs]

theorem cutLast_eq_some {s w a b : Text} (h : s.cutLast w = some (a, b)) :
    s = a ++ w ++ b := by
  obtain ⟨⟨after, before⟩, hcut, hab⟩ := Option.map_eq_some_iff.mp h
  cases hab
  have hs := congrArg List.reverse (cut_eq_some hcut)
  simpa using hs

theorem isSome_seekFrom {here : Text → Bool} {s u : Text} (hu : u <:+ s) (hhere : here u = true)
    (before : Text) : (seekFrom here before s).isSome = true := by
  induction s generalizing before with
  | nil =>
      obtain rfl := List.suffix_nil.mp hu
      rw [seekFrom, if_pos hhere]
      rfl
  | cons c s ih =>
      rw [seekFrom]
      split
      · rfl
      · next hnot =>
          rcases List.suffix_cons_iff.mp hu with rfl | hs
          · exact absurd hhere hnot
          · exact ih hs _

/-- A word occurs in a text exactly if it stands there in one piece. -/
theorem includes_iff {s w : Text} : s.includes w = true ↔ w <:+: s := by
  rw [includes, Option.isSome_iff_exists]
  constructor
  · rintro ⟨⟨a, b⟩, hcut⟩
    exact ⟨a, b, (cut_eq_some hcut).symm⟩
  · rintro ⟨a, b, rfl⟩
    have hstart : (w ++ b).startsWith w = true := startsWith_iff.mpr (List.prefix_append w b)
    have hseek : (seekFrom (fun rest : Text => rest.startsWith w) [] (a ++ w ++ b)).isSome = true :=
      isSome_seekFrom (u := w ++ b) ⟨a, (List.append_assoc a w b).symm⟩ hstart []
    obtain ⟨found, hfound⟩ := Option.isSome_iff_exists.mp hseek
    exact ⟨_, by rw [cut, seek, hfound, Option.map_some]⟩

theorem cut_snd_suffix {s w a b : Text} (h : s.cut w = some (a, b)) :
    w ++ b <:+ s :=
  ⟨a, by rw [cut_eq_some h, List.append_assoc]⟩

/-! ## The first occurrence -/

/-- Where a property holds, nothing behind is reached. -/
theorem length_le_of_seekFrom {here : Text → Bool} {before s a b x y : Text}
    (h : seekFrom here before s = some (a, b)) (hs : s = x ++ y) (hy : here y = true) :
    a.length ≤ before.length + x.length := by
  induction s generalizing before x with
  | nil =>
      obtain ⟨rfl, rfl⟩ := List.append_eq_nil_iff.mp hs.symm
      rw [seekFrom, if_pos hy] at h
      cases h
      simp
  | cons c s ih =>
      rw [seekFrom] at h
      split at h
      · cases h
        simp
      · next hnot =>
          cases x with
          | nil => exact absurd (hs ▸ hy) hnot
          | cons d x =>
              have hle := ih h (List.cons.inj hs).2
              rw [List.length_cons] at hle ⊢
              omega

theorem length_le_of_cut {s w a b x y : Text} (h : s.cut w = some (a, b)) (hs : s = x ++ w ++ y) :
    a.length ≤ x.length := by
  obtain ⟨⟨before, rest⟩, hseek, hab⟩ := Option.map_eq_some_iff.mp h
  cases hab
  rw [List.append_assoc] at hs
  have hle := length_le_of_seekFrom hseek hs (startsWith_iff.mpr (List.prefix_append w y))
  rwa [List.length_nil, Nat.zero_add] at hle

/-- A text is cut at the first occurrence of the word: no other begins before it. -/
theorem cut_eq_some_iff {s w a b : Text} : s.cut w = some (a, b) ↔
    s = a ++ w ++ b ∧ ∀ x y, s = x ++ w ++ y → a.length ≤ x.length := by
  constructor
  · exact fun h => ⟨cut_eq_some h, fun x y => length_le_of_cut h⟩
  · rintro ⟨hs, hfirst⟩
    have hin : s.includes w = true := includes_iff.mpr ⟨a, b, hs.symm⟩
    obtain ⟨⟨x, y⟩, hcut⟩ := Option.isSome_iff_exists.mp hin
    have hxy := cut_eq_some hcut
    have hlength : x.length = a.length :=
      Nat.le_antisymm (length_le_of_cut hcut hs) (hfirst x y hxy)
    have hsame : x ++ (w ++ y) = a ++ (w ++ b) := by
      rw [← List.append_assoc, ← List.append_assoc, ← hxy, ← hs]
    obtain ⟨rfl, hrest⟩ := List.append_inj hsame hlength
    rw [hcut, List.append_cancel_left hrest]

/-- What is put behind a text does not move the place where it is cut. -/
theorem cut_append_right {s w a b : Text} (h : s.cut w = some (a, b)) (t : Text) :
    (s ++ t).cut w = some (a, b ++ t) := by
  obtain ⟨hs, hfirst⟩ := cut_eq_some_iff.mp h
  refine cut_eq_some_iff.mpr ⟨by rw [hs, List.append_assoc], fun x y hxy => ?_⟩
  refine Nat.le_of_not_lt fun hlt => ?_
  -- an occurrence that begins earlier would end in the text, too
  have hlength := congrArg List.length hs
  simp only [List.length_append] at hlength
  have hin : x ++ w <+: s := by
    refine List.prefix_of_prefix_length_le ⟨y, hxy.symm⟩ (List.prefix_append s t) ?_
    rw [List.length_append]
    omega
  obtain ⟨z, hz⟩ := hin
  exact Nat.not_le_of_lt hlt (hfirst x z hz.symm)

/-! ## Cutting behind a front -/

/-- Where nothing begins in a front, the search goes on behind it. -/
theorem seekFrom_append {here : Text → Bool} {front rest : Text}
    (h : ∀ u, u <:+ front → u ≠ [] → here (u ++ rest) = false) (before : Text) :
    seekFrom here before (front ++ rest) = seekFrom here (front.reverse ++ before) rest := by
  induction front generalizing before with
  | nil => rfl
  | cons c front ih =>
      have hhere : here (c :: (front ++ rest)) = false :=
        h (c :: front) List.suffix_rfl (List.cons_ne_nil c front)
      have hfront := ih fun u hu => h u (hu.trans (List.suffix_cons c front))
      rw [List.cons_append, seekFrom, if_neg (by simp [hhere]), hfront, List.reverse_cons,
        List.append_assoc, List.singleton_append]

theorem seekFrom_eq_map (here : Text → Bool) (before s : Text) :
    seekFrom here before s = (seekFrom here [] s).map fun (a, b) => (before.reverse ++ a, b) := by
  induction s generalizing before with
  | nil =>
      rw [seekFrom, seekFrom]
      split
      · simp
      · rfl
  | cons c s ih =>
      rw [seekFrom, seekFrom]
      split
      · simp
      · rw [ih (c :: before), ih [c], Option.map_map]
        congr 1
        funext ⟨a, b⟩
        simp

/-- A word that does not begin in a front is cut at where it is cut at behind the front. -/
theorem cut_append {w front rest : Text}
    (h : ∀ u, u <:+ front → u ≠ [] → ¬ w <+: u ++ rest) :
    (front ++ rest).cut w = (rest.cut w).map fun (a, b) => (front ++ a, b) := by
  have hseek : seekFrom (fun s : Text => s.startsWith w) [] (front ++ rest) =
      seekFrom (fun s : Text => s.startsWith w) (front.reverse ++ []) rest :=
    seekFrom_append (fun u hu hne =>
      Bool.eq_false_iff.mpr fun hw => h u hu hne (startsWith_iff.mp hw)) []
  rw [cut, seek, hseek, seekFrom_eq_map, Option.map_map, cut, seek, Option.map_map]
  congr 1
  funext ⟨a, b⟩
  simp

/-- A text that starts with the word is cut there. -/
theorem cut_self_append (w rest : Text) : (w ++ rest).cut w = some ([], rest) := by
  have hstart : (w ++ rest).startsWith w = true := startsWith_iff.mpr (List.prefix_append w rest)
  have hseek : (w ++ rest).seek (·.startsWith w) = some ([], w ++ rest) := by
    rw [seek]
    cases hs : w ++ rest with
    | nil => rw [seekFrom, if_pos (hs ▸ hstart), List.reverse_nil]
    | cons c s => rw [seekFrom, if_pos (hs ▸ hstart), List.reverse_nil]
  rw [cut, hseek, Option.map_some]
  exact congrArg (fun after => some ([], after)) List.drop_left

/-- A text is cut at a character right behind a front that does not hold it. -/
theorem cut_singleton_append {front : Text} {c : Char} (h : c ∉ front) (rest : Text) :
    (front ++ ([c] ++ rest)).cut [c] = some (front, rest) := by
  have hfront : ∀ u, u <:+ front → u ≠ [] → ¬ [c] <+: u ++ ([c] ++ rest) := by
    rintro u hu hne ⟨more, hmore⟩
    obtain ⟨d, u, rfl⟩ := List.exists_cons_of_ne_nil hne
    obtain rfl : c = d := List.head_eq_of_cons_eq hmore
    exact h (hu.subset List.mem_cons_self)
  rw [cut_append hfront, cut_self_append, Option.map_some]
  exact congrArg (fun before => some (before, rest)) (List.append_nil front)

/-- A cut at a character is the cut at the first one. -/
theorem cut_singleton_eq_some_iff {s a b : Text} {c : Char} :
    s.cut [c] = some (a, b) ↔ s = a ++ c :: b ∧ c ∉ a := by
  constructor
  · intro h
    have hmem : c ∈ s := by simp [cut_eq_some h]
    obtain ⟨front, rest, hs, hfront⟩ := List.eq_append_cons_of_mem hmem
    have hcut : s.cut [c] = some (front, rest) := hs ▸ cut_singleton_append hfront rest
    obtain ⟨rfl, rfl⟩ := Prod.mk.inj (Option.some.inj (hcut.symm.trans h))
    exact ⟨hs, hfront⟩
  · rintro ⟨rfl, ha⟩
    exact cut_singleton_append ha b

end CrashDigest.Text
