import Mathlib.Data.List.Nodup
import CrashDigest.Pattern.Search
import CrashDigest.Proofs.TextCut

/-!
# Ways through a word

Many automata begin with the states of a word, and until they have come to the
end of it there is little to follow. Behind the text that has been seen there is
one thread for every beginning of the word with which that text ends, and the
longest comes first (`Automaton.ways`). They are all in different states, so none
of them is in the way of another, and a character takes each of them on or ends
it.

The first thread to come to the end of the word has been under way longest, so it
has found the first occurrence. `searchFrom_of_cut` brings the search there, and
`searchFrom_of_cut_eq_none` says how it ends if there is none; what the automaton
does behind the word is no concern of this file.
-/

namespace CrashDigest

namespace Automaton

variable {a : Automaton} {w seen front s before after : Text} {c : Char} {k : Nat}

/-! ## Threads at one place -/

/-- What becomes of a thread that waits for a character. -/
def stepOn (a : Automaton) (c : Char) (t : Thread) : Option Thread :=
  match a.states[t.state]? with
  | some (.take set next) => if set.has c then some ⟨next, t.start⟩ else none
  | _ => none

/-- The threads are collected with the last one first, and going on turns them round again. -/
theorem advance_reverse (a : Automaton) (c : Char) (threads : List Thread) :
    a.advance c threads.reverse = threads.filterMap (a.stepOn c) := by
  rw [advance, List.foldl_reverse]
  induction threads with
  | nil => rfl
  | cons t threads ih =>
      rw [List.foldr_cons, ih, List.filterMap_cons, stepOn]
      cases hstate : a.states[t.state]? with
      | none => rfl
      | some state =>
          cases state with
          | take set next => by_cases hc : set.has c = true <;> simp [hc]
          | _ => rfl

theorem getElem?_fresh {i : Nat} {state : State} (h : a.states[i]? = some state) :
    (Array.replicate a.states.size false)[i]? = some false := by
  rw [Array.getElem?_replicate, if_pos (Array.getElem?_eq_some_iff.mp h).1]

section Follow

variable {position : Position} {start fuel i next first second : Nat} {set : CharSet}
  {todo : List Nat} {entered : Array Bool} {waiting : List Thread}

theorem follow_nil :
    a.follow position start fuel [] entered waiting = ⟨entered, waiting, none⟩ := by
  cases fuel <;> rfl

theorem follow_take (hnew : entered[i]? = some false)
    (hstate : a.states[i]? = some (State.take set next)) :
    a.follow position start (fuel + 1) (i :: todo) entered waiting =
      a.follow position start fuel todo (entered.setIfInBounds i true) (⟨i, start⟩ :: waiting) := by
  rw [follow, Array.getD_eq_getD_getElem?, hnew, hstate]
  rfl

theorem follow_fork (hnew : entered[i]? = some false)
    (hstate : a.states[i]? = some (State.fork first second)) :
    a.follow position start (fuel + 1) (i :: todo) entered waiting =
      a.follow position start fuel (first :: second :: todo) (entered.setIfInBounds i true)
        waiting := by
  rw [follow, Array.getD_eq_getD_getElem?, hnew, hstate]
  rfl

theorem follow_accept (hnew : entered[i]? = some false) (hstate : a.states[i]? = some .accept) :
    a.follow position start (fuel + 1) (i :: todo) entered waiting =
      ⟨entered.setIfInBounds i true, waiting, some start⟩ := by
  rw [follow, Array.getD_eq_getD_getElem?, hnew, hstate]
  rfl

end Follow

section Arrive

variable {n : Nat} {set : CharSet} {threads : List Thread}

/-- Threads in different states that all wait for a character stay as they are. -/
theorem arrive_waiting (position : Position)
    (htake : ∀ t ∈ threads, ∃ set next, a.states[t.state]? = some (.take set next))
    (hnodup : (threads.map Thread.state).Nodup) {entered : Array Bool}
    (hnew : ∀ t ∈ threads, entered[t.state]? = some false) (waiting : List Thread) :
    ∃ entered', a.arrive position threads entered waiting =
      ⟨entered', threads.reverse ++ waiting, none⟩ := by
  induction threads generalizing entered waiting with
  | nil => exact ⟨entered, rfl⟩
  | cons t threads ih =>
      obtain ⟨⟨set, next, hstate⟩, htakes⟩ := List.forall_mem_cons.mp htake
      obtain ⟨ht, hrest⟩ := List.forall_mem_cons.mp hnew
      obtain ⟨hnotin, hnodup⟩ := List.nodup_cons.mp hnodup
      have hfollow : a.follow position t.start (2 * a.states.size + 1) [t.state] entered waiting =
          ⟨entered.setIfInBounds t.state true, t :: waiting, none⟩ := by
        rw [follow_take ht hstate, follow_nil]
      have hnew' : ∀ u ∈ threads, (entered.setIfInBounds t.state true)[u.state]? = some false := by
        intro u hu
        have hne : t.state ≠ u.state := fun h => hnotin (h ▸ List.mem_map_of_mem hu)
        rw [Array.getElem?_setIfInBounds_ne hne]
        exact hrest u hu
      obtain ⟨entered', harrive⟩ := ih htakes hnodup hnew' (t :: waiting)
      refine ⟨entered', ?_⟩
      rw [arrive, hfollow]
      simp only [harrive, List.reverse_cons, List.append_assoc, List.singleton_append]

/-- A thread at the end of the pattern ends all the threads behind it. -/
theorem arrive_accept (position : Position) (start : Nat) (later : List Thread)
    (h : a.states[n]? = some .accept) :
    ∃ entered, a.arrive position (⟨n, start⟩ :: later) (.replicate a.states.size false) [] =
      ⟨entered, [], some start⟩ := by
  rw [arrive, follow_accept (getElem?_fresh h) h]
  exact ⟨_, rfl⟩

/-- A thread that may take something or end does both. -/
theorem arrive_fork (position : Position) (start : Nat) (later : List Thread)
    (hfork : a.states[n]? = some (State.fork (n + 1) (n + 2)))
    (htake : a.states[n + 1]? = some (State.take set n))
    (haccept : a.states[n + 2]? = some .accept) :
    ∃ entered, a.arrive position (⟨n, start⟩ :: later) (.replicate a.states.size false) [] =
      ⟨entered, [⟨n + 1, start⟩], some start⟩ := by
  have hlt : n + 2 < a.states.size := (Array.getElem?_eq_some_iff.mp haccept).1
  have hfuel : 3 ≤ 2 * a.states.size + 1 := by omega
  obtain ⟨fuel, hfuel⟩ := Nat.exists_eq_add_of_le' hfuel
  let opened := (Array.replicate a.states.size false).setIfInBounds n true
  have hfirst : opened[n + 1]? = some false := by
    rw [Array.getElem?_setIfInBounds_ne (by omega), getElem?_fresh htake]
  have hsecond : (opened.setIfInBounds (n + 1) true)[n + 2]? = some false := by
    rw [Array.getElem?_setIfInBounds_ne (by omega), Array.getElem?_setIfInBounds_ne (by omega),
      getElem?_fresh haccept]
  rw [arrive, hfuel, follow_fork (getElem?_fresh hfork) hfork, follow_take hfirst htake,
    follow_accept hsecond haccept]
  exact ⟨_, rfl⟩

end Arrive

/-! ## Ways through a word -/

/-- Whether the automaton begins with the states of a word, one for each character. -/
def Spells (a : Automaton) (w : Text) : Prop :=
  ∀ k c, w[k]? = some c → a.states[k]? = some (State.take (.single c) (k + 1))

/-- The way that has taken the first `k` characters of a word, if they are the last ones of a
text. -/
def wayAt (w seen : Text) (k : Nat) : Option Thread :=
  if (w.take k).isSuffixOf seen then some ⟨k, seen.length - k⟩ else none

/-- The ways through a word behind a text in which it has not been found, the longest first. -/
def ways (w seen : Text) : List Thread :=
  (List.range (w.length + 1)).reverse.filterMap (wayAt w seen)

/-- Those of the ways that have taken something. -/
def older (w seen : Text) : List Thread :=
  (List.range w.length).reverse.filterMap fun k => wayAt w seen (k + 1)

theorem state_of_wayAt {t : Thread} (h : wayAt w seen k = some t) : t.state = k := by
  rw [wayAt] at h
  split at h
  · cases h
    rfl
  · cases h

theorem nodup_states_ways (w seen : Text) : ((ways w seen).map Thread.state).Nodup := by
  rw [ways, List.map_filterMap]
  refine (List.nodup_reverse.mpr List.nodup_range).filterMap fun k l state hk hl => ?_
  obtain ⟨t, ht, rfl⟩ := Option.map_eq_some_iff.mp hk
  obtain ⟨u, hu, hstate⟩ := Option.map_eq_some_iff.mp hl
  rw [← state_of_wayAt ht, ← state_of_wayAt hu, hstate]

theorem ways_of_suffix (h : w <:+ seen) :
    ∃ later, ways w seen = ⟨w.length, seen.length - w.length⟩ :: later := by
  have hway : wayAt w seen w.length = some ⟨w.length, seen.length - w.length⟩ := by
    simp [wayAt, h]
  rw [ways, List.range_succ, List.reverse_append, List.reverse_singleton, List.singleton_append,
    List.filterMap_cons_some hway]
  exact ⟨_, rfl⟩

theorem ways_of_not_suffix (h : ¬ w <:+ seen) :
    ways w seen = (List.range w.length).reverse.filterMap (wayAt w seen) := by
  have hway : wayAt w seen w.length = none := by simp [wayAt, h]
  rw [ways, List.range_succ, List.reverse_append, List.reverse_singleton, List.singleton_append,
    List.filterMap_cons_none hway]

/-- A new way begins at every place, and it is the last one. -/
theorem ways_eq (w seen : Text) : ways w seen = older w seen ++ [⟨0, seen.length⟩] := by
  rw [ways, List.range_succ_eq_map, List.reverse_cons, List.filterMap_append, ← List.map_reverse,
    List.filterMap_map]
  rfl

theorem older_nil (w : Text) : older w [] = [] := by
  rw [older, List.filterMap_eq_nil_iff]
  intro k hk
  have hlt : k < w.length := List.mem_range.mp (List.mem_reverse.mp hk)
  rw [wayAt, if_neg]
  rw [List.isSuffixOf_iff_suffix, List.suffix_nil, List.take_eq_nil_iff]
  rintro (hzero | rfl)
  · cases hzero
  · cases hlt

theorem take_succ_suffix_iff (hk : k < w.length) :
    w.take (k + 1) <:+ seen ++ [c] ↔ w.take k <:+ seen ∧ w[k]? = some c := by
  rw [List.take_succ_eq_append_getElem hk, List.getElem?_eq_getElem hk, Option.some_inj,
    List.suffix_concat_iff]
  constructor
  · rintro (hnil | ⟨t, ht, hsuffix⟩)
    · exact absurd hnil (List.concat_ne_nil _ _)
    · obtain ⟨rfl, hc⟩ := List.append_inj' ht rfl
      exact ⟨hsuffix, List.head_eq_of_cons_eq hc⟩
  · rintro ⟨hsuffix, rfl⟩
    exact Or.inr ⟨_, rfl, hsuffix⟩

theorem stepOn_of_spells (ha : a.Spells w) (hk : k < w.length) (start : Nat) (c : Char) :
    a.stepOn c ⟨k, start⟩ = if w[k]? = some c then some ⟨k + 1, start⟩ else none := by
  rw [stepOn, ha k w[k] (List.getElem?_eq_getElem hk), List.getElem?_eq_getElem hk]
  refine if_congr ?_ rfl rfl
  rw [CharSet.has_single_iff, Option.some_inj, eq_comm]

/-- A way goes on with the next character of the word. -/
theorem bind_wayAt (ha : a.Spells w) (hk : k < w.length) (seen : Text) (c : Char) :
    (wayAt w seen k).bind (a.stepOn c) = wayAt w (seen ++ [c]) (k + 1) := by
  simp only [wayAt, List.isSuffixOf_iff_suffix, take_succ_suffix_iff hk, List.length_append,
    List.length_singleton, Nat.add_sub_add_right]
  split
  · next hsuffix => simp only [Option.bind_some, stepOn_of_spells ha hk, hsuffix, true_and]
  · next hsuffix => simp only [hsuffix, false_and, if_false, Option.bind_none]

/-- As long as the word has not been found, the ways that can take a character are the ones that
have taken something behind it. -/
theorem filterMap_ways (ha : a.Spells w) (h : ¬ w <:+ seen) (c : Char) :
    (ways w seen).filterMap (a.stepOn c) = older w (seen ++ [c]) := by
  rw [ways_of_not_suffix h, older, List.filterMap_filterMap]
  exact List.filterMap_congr fun k hk =>
    bind_wayAt ha (List.mem_range.mp (List.mem_reverse.mp hk)) seen c

/-! ## Until the word has been found -/

theorem arrive_ways (ha : a.Spells w) (h : ¬ w <:+ seen) (position : Position) :
    ∃ entered, a.arrive position (ways w seen) (.replicate a.states.size false) [] =
      ⟨entered, (ways w seen).reverse, none⟩ := by
  have hstate : ∀ t ∈ ways w seen, ∃ set next, a.states[t.state]? = some (State.take set next) := by
    intro t ht
    rw [ways_of_not_suffix h] at ht
    obtain ⟨k, hk, hway⟩ := List.mem_filterMap.mp ht
    have hlt : k < w.length := List.mem_range.mp (List.mem_reverse.mp hk)
    rw [state_of_wayAt hway]
    exact ⟨_, _, ha k w[k] (List.getElem?_eq_getElem hlt)⟩
  have hnew : ∀ t ∈ ways w seen,
      (Array.replicate a.states.size false)[t.state]? = some false := by
    intro t ht
    obtain ⟨set, next, hset⟩ := hstate t ht
    exact getElem?_fresh hset
  have harrive := arrive_waiting position hstate (nodup_states_ways w seen) hnew []
  rwa [List.append_nil] at harrive

theorem searchFrom_cons (ha : a.Spells w) (h : ¬ w <:+ seen) (atStart : Bool) (c : Char)
    (s : Text) :
    a.searchFrom atStart seen.length (older w seen) none (c :: s) =
      a.searchFrom atStart (seen ++ [c]).length (older w (seen ++ [c])) none s := by
  obtain ⟨entered, harrive⟩ := arrive_ways ha h ⟨atStart && seen.length = 0, (c :: s).isEmpty⟩
  rw [searchFrom, ← filterMap_ways ha h, List.length_append, List.length_singleton]
  simp only [Option.isNone_none, if_true, ← ways_eq, harrive, advance_reverse]
  cases (ways w seen).filterMap (a.stepOn c) <;> rfl

theorem searchFrom_nil (ha : a.Spells w) (h : ¬ w <:+ seen) (atStart : Bool) :
    a.searchFrom atStart seen.length (older w seen) none [] = none := by
  obtain ⟨entered, harrive⟩ := arrive_ways ha h ⟨atStart && seen.length = 0, ([] : Text).isEmpty⟩
  rw [searchFrom]
  simp only [Option.isNone_none, if_true, ← ways_eq, harrive]

theorem searchFrom_append (ha : a.Spells w) (atStart : Bool) (s : Text)
    (h : ∀ u, u <+: front → u ≠ front → ¬ w <:+ seen ++ u) :
    a.searchFrom atStart seen.length (older w seen) none (front ++ s) =
      a.searchFrom atStart (seen ++ front).length (older w (seen ++ front)) none s := by
  induction front generalizing seen with
  | nil => rw [List.append_nil, List.nil_append]
  | cons c front ih =>
      have hseen : ¬ w <:+ seen := by
        have hnil := h [] List.nil_prefix (List.cons_ne_nil c front).symm
        rwa [List.append_nil] at hnil
      have hrest : ∀ u, u <+: front → u ≠ front → ¬ w <:+ seen ++ [c] ++ u := by
        intro u hu hne
        rw [List.append_assoc]
        exact h (c :: u) (List.cons_prefix_cons.mpr ⟨rfl, hu⟩) fun heq => hne (List.cons.inj heq).2
      rw [List.cons_append, searchFrom_cons ha hseen, ih hrest, List.append_assoc]
      rfl

/-- The search comes to the end of the first occurrence with the word not found before. -/
theorem searchFrom_of_cut (ha : a.Spells w) (atStart : Bool) (h : s.cut w = some (before, after)) :
    a.searchFrom atStart 0 [] none s =
      a.searchFrom atStart (before ++ w).length (older w (before ++ w)) none after := by
  obtain ⟨rfl, hfirst⟩ := Text.cut_eq_some_iff.mp h
  have hfree : ∀ u, u <+: before ++ w → u ≠ before ++ w → ¬ w <:+ [] ++ u := by
    rintro u ⟨more, hmore⟩ hne ⟨x, rfl⟩
    have hle : before.length ≤ x.length := hfirst x (more ++ after) (by simp [← hmore])
    have hlength := congrArg List.length hmore
    simp only [List.length_append] at hlength
    obtain rfl : more = [] := List.length_eq_zero_iff.mp (by omega)
    exact hne (by simpa using hmore)
  have hsearch := searchFrom_append ha atStart after hfree
  rwa [older_nil] at hsearch

theorem searchFrom_of_cut_eq_none (ha : a.Spells w) (atStart : Bool) (h : s.cut w = none) :
    a.searchFrom atStart 0 [] none s = none := by
  have hnot : ¬ w <:+: s := by
    rw [← Text.includes_iff, Text.includes, h]
    exact Bool.false_ne_true
  have hfree : ∀ u, u <+: s → u ≠ s → ¬ w <:+ [] ++ u :=
    fun u hu _ hsuffix => hnot (hsuffix.isInfix.trans hu.isInfix)
  have hsearch := searchFrom_append ha atStart [] hfree
  rw [older_nil, List.append_nil] at hsearch
  exact hsearch.trans (searchFrom_nil ha (fun hsuffix => hnot hsuffix.isInfix) atStart)

end Automaton

end CrashDigest
