import CrashDigest.Proofs.OneLine
import CrashDigest.Proofs.WordTokens
import CrashDigest.Proofs.WordWays

/-!
# Searching for a word by its pattern

What stands for itself in a pattern is found without an automaton, by going
along the text. The automaton of the word finds the same (`Pattern.find_word`),
and so does the one of a word with the rest of the line behind it
(`Pattern.find_word_dots`). Up to the end of the word the two are alike; behind it
the one has matched, and the other goes on as far as the line does.
-/

namespace CrashDigest

namespace Pattern

variable {a : Automaton} {w s seen : Text}

/-! ## The states -/

theorem wordCode_eq (w : Text) (rest : List State) :
    wordCode w 0 w.length rest =
      (w.zipIdx.map fun (c, i) => State.take (.single c) (i + 1)) ++ rest := by
  have hnext (i : Nat) : (if i + 1 = w.length then w.length else 0 + i + 1) = i + 1 := by
    split <;> omega
  simp only [wordCode, hnext]
  exact List.foldr_cons_eq_append ..

theorem spells_of_wordCode {rest : List State}
    (h : a.states = (wordCode w 0 w.length rest).toArray) : a.Spells w := by
  intro k c hc
  have hlt : k < w.length := (List.getElem?_eq_some_iff.mp hc).1
  rw [h, List.getElem?_toArray, wordCode_eq, List.getElem?_append_left (by simpa using hlt),
    List.getElem?_map, List.getElem?_zipIdx, hc]
  simp

theorem states_behind_word {rest : List State}
    (h : a.states = (wordCode w 0 w.length rest).toArray) (i : Nat) :
    a.states[w.length + i]? = rest[i]? := by
  rw [h, List.getElem?_toArray, wordCode_eq, List.getElem?_append_right (by simp)]
  simp

theorem states_word (hw : w ≠ []) :
    (word w).automaton.states = (wordCode w 0 w.length [.accept]).toArray := by
  obtain ⟨c, w, rfl⟩ := List.exists_cons_of_ne_nil hw
  simp [automaton, code, stateCount]

theorem states_word_dots (hw : w ≠ []) :
    (seq (.word w) dots).automaton.states =
      (wordCode w 0 w.length
        [.fork (w.length + 1) (w.length + 2), .take .dot w.length, .accept]).toArray := by
  obtain ⟨c, w, rfl⟩ := List.exists_cons_of_ne_nil hw
  simp [automaton, code, stateCount, dots, canTakeNothing, turn]

/-! ## Once the word has been found -/

theorem searchFrom_word (hw : w ≠ []) (h : w <:+ seen) (atStart : Bool) (s : Text) :
    (word w).automaton.searchFrom atStart seen.length (Automaton.older w seen) none s =
      some (seen.length - w.length, seen.length) := by
  have haccept : (word w).automaton.states[w.length]? = some .accept :=
    states_behind_word (states_word hw) 0
  obtain ⟨later, hways⟩ := Automaton.ways_of_suffix h
  obtain ⟨entered, harrive⟩ := Automaton.arrive_accept ⟨atStart && seen.length = 0, s.isEmpty⟩
    (seen.length - w.length) later haccept
  rw [Automaton.searchFrom.eq_def]
  simp only [Option.isNone_none, if_true, ← Automaton.ways_eq, hways, harrive]
  cases s <;> rfl

/-- The thread that has found the word takes the rest of the line. -/
theorem searchFrom_dots (hw : w ≠ []) (hs : Text.OneLine s) (atStart : Bool) {start passed : Nat}
    (best : Option (Nat × Nat)) {threads later : List Thread}
    (hthreads : (if best.isNone then threads ++ [⟨0, passed⟩] else threads) =
      ⟨w.length, start⟩ :: later) :
    (seq (.word w) dots).automaton.searchFrom atStart passed threads best s =
      some (start, passed + s.length) := by
  have hstates := states_behind_word (states_word_dots hw)
  have hfork : (seq (.word w) dots).automaton.states[w.length]? =
      some (.fork (w.length + 1) (w.length + 2)) := hstates 0
  have htake : (seq (.word w) dots).automaton.states[w.length + 1]? =
      some (.take .dot w.length) := hstates 1
  induction s generalizing passed best threads later with
  | nil =>
      obtain ⟨entered, harrive⟩ := Automaton.arrive_fork ⟨atStart && passed = 0, true⟩ start later
        hfork htake (hstates 2)
      rw [Automaton.searchFrom.eq_def]
      simp only [hthreads, List.isEmpty_nil, harrive]
      rfl
  | cons c s ih =>
      obtain ⟨hc, hs⟩ := List.ne_and_not_mem_of_not_mem_cons hs
      obtain ⟨entered, harrive⟩ := Automaton.arrive_fork ⟨atStart && passed = 0, false⟩ start later
        hfork htake (hstates 2)
      have hadvance : (seq (.word w) dots).automaton.advance c [⟨w.length + 1, start⟩] =
          [⟨w.length, start⟩] := by
        simp [Automaton.advance, htake, CharSet.has_dot_iff.mpr hc.symm]
      have hrest : (seq (.word w) dots).automaton.searchFrom atStart (passed + 1)
          [⟨w.length, start⟩] (some (start, passed)) s = some (start, passed + 1 + s.length) :=
        ih hs _ rfl
      rw [Automaton.searchFrom.eq_def]
      simp only [hthreads, List.isEmpty_cons, harrive, hadvance, hrest, List.length_cons]
      congr 2
      omega

/-! ## What is found -/

/-- The automaton of a word finds its first occurrence. -/
theorem find_word (hw : w ≠ []) : (word w).automaton.find = Separator.findWord w := by
  have hspells := spells_of_wordCode (states_word hw)
  funext offset s
  rw [Automaton.find, Separator.findWord, if_neg (by simpa using hw)]
  cases hcut : s.cut w with
  | none =>
      rw [Automaton.searchFrom_of_cut_eq_none hspells _ hcut]
      rfl
  | some found =>
      obtain ⟨before, after⟩ := found
      have hstart : (before ++ w).length - w.length = before.length := by simp
      have hsize : (before ++ w).length - before.length = w.length := by simp
      rw [Automaton.searchFrom_of_cut hspells _ hcut, searchFrom_word hw (List.suffix_append _ _),
        hstart]
      show some (Match.ofSpan before.length ((before ++ w).length - before.length) s) = _
      rw [hsize, Text.cut_eq_some hcut, List.append_assoc, Match.ofSpan_append_append]
      rfl

/-- With the rest of the line behind it, it finds the line from the first occurrence on. -/
theorem find_word_dots (hw : w ≠ []) (hs : s.OneLine) :
    (seq (.word w) dots).find s =
      (s.cut w).map fun (before, after) => ⟨before, w ++ after, []⟩ := by
  have hspells := spells_of_wordCode (states_word_dots hw)
  rw [find, Automaton.find]
  cases hcut : s.cut w with
  | none =>
      rw [Automaton.searchFrom_of_cut_eq_none hspells _ hcut]
      rfl
  | some found =>
      obtain ⟨before, after⟩ := found
      have hline := Text.cut_eq_some hcut
      have hafter : Text.OneLine after := hs.of_subset (by simp [hline])
      obtain ⟨later, hways⟩ := Automaton.ways_of_suffix (List.suffix_append before w)
      have hthreads := (Automaton.ways_eq w (before ++ w)).symm.trans hways
      have hstart : (before ++ w).length - w.length = before.length := by simp
      have hsize : (before ++ w).length + after.length - before.length = (w ++ after).length := by
        simp only [List.length_append]
        omega
      rw [Automaton.searchFrom_of_cut hspells _ hcut,
        searchFrom_dots hw hafter _ none hthreads, hstart]
      show some (Match.ofSpan before.length _ s) = some ⟨before, w ++ after, []⟩
      rw [hsize, hline, ← Match.ofSpan_append_append, List.append_nil, List.append_assoc]

end Pattern

theorem Token.nthOnward_matching_word {w : Text} (hw : w ≠ []) (i : Nat) (s : Text) :
    nthOnward (.matching (.word w)) i s = nthOnward (.word w) i s :=
  congrArg (nthOnward · i s)
    (Separator.ofSearch_congr (Pattern.find_word hw) (Automaton.find_lawful _)
      (Separator.findWord_lawful w))

end CrashDigest
