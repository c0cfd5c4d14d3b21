import CrashDigest.Pattern.Parser

/-!
# Plain text as a pattern

Most of what is looked for is written without any of the signs that have a
meaning in a pattern. Reading such a text makes an item of every character, and
the items grow together to one word again (`parse?_word`). With `.*` behind it,
it is the word and the rest of the line (`parse?_word_dots`).

Neither is ever nested too deeply. But a word can be so long that its automaton
would be too large, and then it has no pattern.
-/

namespace CrashDigest.Pattern

/-- The characters that do not stand for themselves where a pattern is written. -/
def signs : Text := ['.', '^', '$', '[', '\\', '(', ')', '|', '*', '+', '?', '\x7b']

/-- Whether every character of a text stands for itself where a pattern is written. -/
def IsPlain (w : Text) : Prop := ∀ c ∈ w, c ∉ signs

instance (w : Text) : Decidable (IsPlain w) := List.decidableBAll (· ∉ signs) w

/-- The characters of a text, each as an item of its own. -/
def letters (w : Text) : List Nested := w.map fun c => .leaf (.word [c])

variable {c : Char} {s w : Text} {p : Pattern}

/-! ## Reading the characters -/

theorem repetition_of_plain (h : c ∉ signs) (s : Text) : repetition (c :: s) = none := by
  unfold repetition
  split <;> simp_all [signs]

theorem item_of_plain (h : c ∉ signs) (fuel : Nat) (s : Text) :
    item fuel (c :: s) = some (.leaf (.word [c]), s) := by
  unfold item
  split <;> simp_all [signs]

theorem parseFrom_of_plain (h : c ∉ signs) (fuel groups : Nat) (outer : List Group) (g : Group)
    (s : Text) :
    parseFrom (fuel + 1) groups outer g (c :: s) =
      parseFrom fuel groups outer (g.add (.leaf (.word [c]))) s := by
  have hsigns : c ≠ '(' ∧ c ≠ ')' ∧ c ≠ '|' := by
    refine ⟨?_, ?_, ?_⟩ <;> rintro rfl <;> exact h (by decide)
  obtain ⟨hopen, hclose, hbar⟩ := hsigns
  rw [parseFrom, repetition_of_plain h]
  · simp only [item_of_plain h]
  all_goals simp [hopen, hclose, hbar]

theorem parseFrom_append (h : IsPlain w) (fuel groups : Nat) (outer : List Group)
    (number : Option Nat) (finished items : List Nested) (s : Text) :
    parseFrom (w.length + fuel) groups outer ⟨number, finished, items⟩ (w ++ s) =
      parseFrom fuel groups outer ⟨number, finished, (letters w).reverse ++ items⟩ s := by
  induction w generalizing items with
  | nil =>
      rw [List.length_nil, Nat.zero_add]
      rfl
  | cons c w ih =>
      obtain ⟨hc, hw⟩ := List.forall_mem_cons.mp h
      rw [List.length_cons, Nat.succ_add, List.cons_append, parseFrom_of_plain hc, Group.add,
        ih hw, letters, letters, List.map_cons, List.reverse_cons, List.append_assoc]
      rfl

/-! ## Putting the characters together -/

theorem foldr_consItem {rest : List Pattern} (hw : w ≠ [])
    (hrest : ∀ v, rest.head? ≠ some (.word v)) :
    (w.map fun c => .word [c]).foldr consItem rest = .word w :: rest := by
  induction w with
  | nil => exact absurd rfl hw
  | cons c w ih =>
      rw [List.map_cons, List.foldr_cons]
      cases w with
      | nil =>
          rw [List.map_nil, List.foldr_nil, consItem]
          intro v w rest _ heq
          exact hrest w (heq ▸ rfl)
      | cons d w =>
          rw [ih (List.cons_ne_nil d w)]
          rfl

/-- The characters of a word, one behind the other, are the word. -/
theorem concat_letters {more rest : List Pattern} (hw : w ≠ [])
    (hmore : (more.flatMap items).foldr consItem [] = rest)
    (hrest : ∀ v, rest.head? ≠ some (.word v)) :
    concat ((w.map fun c => .word [c]) ++ more) = ofItems (.word w :: rest) := by
  have hitems : (w.map fun c => Pattern.word [c]).flatMap items = w.map fun c => .word [c] := by
    rw [List.flatMap_map, List.map_eq_flatMap]
    rfl
  rw [concat, List.flatMap_append, List.foldr_append, hmore, hitems, foldr_consItem hw hrest]

theorem foldl_depth_le {parts : List Nested} {bound : Nat} (h : ∀ part ∈ parts, part.depth ≤ bound)
    {depth : Nat} (hdepth : depth ≤ bound) :
    parts.foldl (fun depth part => max depth part.depth) depth ≤ bound := by
  induction parts generalizing depth with
  | nil => exact hdepth
  | cons part parts ih =>
      obtain ⟨hpart, hparts⟩ := List.forall_mem_cons.mp h
      exact ih hparts (Nat.max_le.mpr ⟨hdepth, hpart⟩)

/-- What a group holds whose items begin with the characters of a word. -/
theorem content_letters (hw : w ≠ []) (number : Option Nat) {items more : List Nested}
    (hitems : items.reverse = letters w ++ more) (hmore : ∀ part ∈ more, part.depth ≤ 1) :
    (Group.mk number [] items).content.pattern =
        concat ((w.map fun c => .word [c]) ++ more.map Nested.pattern) ∧
      (Group.mk number [] items).content.depth ≤ 2 := by
  have hpatterns : (letters w ++ more).map Nested.pattern =
      (w.map fun c => .word [c]) ++ more.map Nested.pattern := by
    rw [letters, List.map_append, List.map_map]
    rfl
  have hdepths : ∀ part ∈ letters w ++ more, part.depth ≤ 1 := by
    rw [letters, List.forall_mem_append, List.forall_mem_map]
    exact ⟨fun _ _ => Nat.zero_le 1, hmore⟩
  have hdepth := foldl_depth_le hdepths (Nat.zero_le 1)
  show (Nested.join concat items.reverse).pattern = _ ∧ (Nested.join concat items.reverse).depth ≤ 2
  rw [hitems, ← hpatterns]
  obtain ⟨c, w, rfl⟩ := List.exists_cons_of_ne_nil hw
  -- a part that stands alone is not put together, but it is a word already
  match w, more, hdepth with
  | [], [], _ => exact ⟨rfl, Nat.zero_le 2⟩
  | [], _ :: _, hdepth => exact ⟨rfl, Nat.succ_le_succ hdepth⟩
  | _ :: _, _, hdepth => exact ⟨rfl, Nat.succ_le_succ hdepth⟩

/-! ## What a plain text describes -/

theorem parse?_of_parseFrom {found : Nested}
    (h : parseFrom s.length 0 [] (.opened none) s = some found) (hdepth : found.depth ≤ 2) :
    parse? s = if found.pattern.isAffordable then some found.pattern else none := by
  have hmax : decide (found.depth ≤ maxDepth) = true :=
    decide_eq_true (Nat.le_trans hdepth (by decide))
  rw [parse?, h]
  simp only [hmax, Bool.true_and]

theorem parse?_word (hplain : IsPlain w) (hw : w ≠ []) :
    parse? w = if (word w).isAffordable then some (.word w) else none := by
  have hread : parseFrom w.length 0 [] (.opened none) w =
      some (Group.mk none [] ((letters w).reverse ++ [])).content := by
    have happend := parseFrom_append hplain 0 0 [] none [] [] []
    rwa [Nat.add_zero, List.append_nil] at happend
  have hitems : ((letters w).reverse ++ []).reverse = letters w ++ [] := by simp
  obtain ⟨hpattern, hdepth⟩ := content_letters hw none hitems fun _ h => nomatch h
  have hword : concat ((w.map fun c => .word [c]) ++ []) = .word w :=
    concat_letters hw rfl fun _ h => nomatch h
  rw [parse?_of_parseFrom hread hdepth, hpattern.trans hword]

theorem parse?_word_dots (hplain : IsPlain w) (hw : w ≠ []) :
    parse? (w ++ ['.', '*']) =
      if (seq (.word w) dots).isAffordable then some (.seq (.word w) dots) else none := by
  have hread : parseFrom (w ++ ['.', '*']).length 0 [] (.opened none) (w ++ ['.', '*']) =
      some (Group.mk none [] (⟨dots, 1⟩ :: ((letters w).reverse ++ []))).content := by
    rw [List.length_append]
    exact parseFrom_append hplain 2 0 [] none [] [] ['.', '*']
  have hitems : (⟨dots, 1⟩ :: ((letters w).reverse ++ [])).reverse = letters w ++ [⟨dots, 1⟩] := by
    simp
  obtain ⟨hpattern, hdepth⟩ := content_letters hw none hitems (by simp)
  have hword : concat ((w.map fun c => .word [c]) ++ [dots]) = .seq (.word w) dots :=
    concat_letters hw rfl fun _ h => nomatch Option.some.inj h
  rw [parse?_of_parseFrom hread hdepth, hpattern.trans hword]

end CrashDigest.Pattern
