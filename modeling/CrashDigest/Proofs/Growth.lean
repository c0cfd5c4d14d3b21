import CrashDigest.Slot

/-!
# Values that are found for good

A scan reads its lines one by one and cannot know which is the last, so what it
has found after some lines is what it would have found had the file ended
there. Two things can then be asked of a longer file: whether a value that was
found is still the same, and whether a text has only been added to. Both are
orders, so they hold along a whole scan once they hold for one line, which is
`foldl_grows`. A longer file is scanned by going on where the shorter one ended.

A slot for the first value keeps it whatever comes, and so does a search.
-/

namespace CrashDigest

/-- What a step leaves in an order with what was before, a fold of it does. -/
theorem foldl_grows {σ α : Type} {R : σ → σ → Prop} {f : σ → α → σ} (hrefl : ∀ s, R s s)
    (htrans : ∀ {a b c}, R a b → R b c → R a c) (hstep : ∀ s x, R s (f s x)) (s : σ)
    (xs : List α) : R s (xs.foldl f s) := by
  induction xs generalizing s with
  | nil => exact hrefl s
  | cons x xs ih => exact htrans (hstep s x) (ih _)

theorem foldl_append_grows {σ α : Type} {R : σ → σ → Prop} {f : σ → α → σ} (hrefl : ∀ s, R s s)
    (htrans : ∀ {a b c}, R a b → R b c → R a c) (hstep : ∀ s x, R s (f s x)) (s : σ)
    (xs ys : List α) : R s (xs.foldl f s) ∧ R (xs.foldl f s) ((xs ++ ys).foldl f s) := by
  rw [List.foldl_append]
  exact ⟨foldl_grows hrefl htrans hstep s xs, foldl_grows hrefl htrans hstep _ ys⟩

/-! ## Texts -/

/-- Whether a text, unless it was empty, has stayed the same. -/
def Text.Kept (before after : Text) : Prop :=
  before ≠ [] → after = before

/-- Pieces glued together are a beginning of more pieces glued together. -/
theorem Text.join_isPrefix {glue : Text} {pieces more : List Text} (h : pieces <+: more) :
    join glue pieces <+: join glue more := by
  obtain ⟨rest, rfl⟩ := h
  unfold join
  induction pieces with
  | nil => exact List.nil_prefix
  | cons piece pieces ih =>
      rcases pieces with _ | ⟨next, pieces⟩
      · rcases rest with _ | ⟨next, rest⟩
        · exact List.prefix_rfl
        · rw [List.singleton_append, List.intercalate_cons_cons, List.append_assoc]
          simp
      · rw [List.cons_append, List.cons_append, List.intercalate_cons_cons,
          List.intercalate_cons_cons]
        exact (List.prefix_append_right_inj _).mpr ih

namespace Slot

/-! ## Slots -/

/-- Whether a slot that had a value has one, and the same if it is for the first value. -/
structure Kept (s s' : Slot) : Prop where
  capture : s'.capture = s.capture
  found : s.isFound = true → s'.isFound = true
  value : s.capture = .first → ∀ v ∈ s.value, v ∈ s'.value

variable {s s' : Slot}

theorem Kept.refl (s : Slot) : s.Kept s := ⟨rfl, fun h => h, fun _ _ hv => hv⟩

theorem Kept.trans {s'' : Slot} (h : s.Kept s') (h' : s'.Kept s'') : s.Kept s'' :=
  ⟨h'.capture.trans h.capture, fun hf => h'.found (h.found hf),
    fun hs v hv => h'.value (h.capture.trans hs) v (h.value hs v hv)⟩

theorem isFound_offer {candidate : Option Text} (h : s.takes candidate = true) :
    (s.offer candidate).isFound = true := by
  rw [offer, if_pos h]
  exact (Bool.and_eq_true_iff.mp h).1

/-- A slot for the first value that has one takes no other. -/
theorem not_takes {candidate : Option Text} (hs : s.capture = .first) (hf : s.isFound = true) :
    ¬ s.takes candidate = true := by
  obtain ⟨v, hv⟩ := Option.isSome_iff_exists.mp hf
  simp [takes, isOpen, hs, hv]

theorem kept_offer (s : Slot) (candidate : Option Text) : s.Kept (s.offer candidate) := by
  unfold offer
  split
  · next htakes =>
      have hfound : ({ s with value := candidate } : Slot).isFound = true :=
        (Bool.and_eq_true_iff.mp htakes).1
      refine ⟨rfl, fun _ => hfound, fun hs v hv => absurd htakes (not_takes hs ?_)⟩
      exact Option.isSome_iff_exists.mpr ⟨v, hv⟩
  · exact Kept.refl s

theorem Kept.value_eq (h : s.Kept s') (hs : s.capture = .first) (hf : s.isFound = true) :
    s'.value = s.value := by
  obtain ⟨v, hv⟩ := Option.isSome_iff_exists.mp hf
  exact (h.value hs v hv).trans hv.symm

theorem text_of_not_found (h : s.isFound = false) : s.text = [] := by
  have hnone : s.value = none := Option.isSome_eq_false_iff.mp h |> Option.isNone_iff_eq_none.mp
  rw [text, hnone]
  rfl

theorem isFound_of_text_ne_nil (h : s.text ≠ []) : s.isFound = true := by
  cases hf : s.isFound with
  | true => rfl
  | false => exact absurd (text_of_not_found hf) h

theorem Kept.text (h : s.Kept s') (hs : s.capture = .first) : s.text.Kept s'.text :=
  fun hne => congrArg (Option.getD · []) (h.value_eq hs (isFound_of_text_ne_nil hne))

end Slot

/-- What a search has found it still finds with more lines. -/
theorem Text.kept_findSome? (read : Text → Option Text) (s t : List Text) :
    Kept ((s.findSome? read).getD []) (((s ++ t).findSome? read).getD []) := by
  intro hne
  rw [List.findSome?_append]
  cases h : s.findSome? read with
  | none => exact absurd (by rw [h]; rfl) hne
  | some v => rfl

end CrashDigest
