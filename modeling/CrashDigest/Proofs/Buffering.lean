import CrashDigest.Proofs.FileTree

/-!
# Writing through a buffer

A record is given to its file in one piece. A writer that hands it over line by
line has the lines wait in a buffer until there is no room for more, so a device
that takes no data may show it at any line, or not before the buffer is emptied
at the end, depending on nothing but lengths. Nothing of this can be seen
afterwards: whatever the pieces and however large the buffer, the outcome is
that of writing everything at once (`writeThrough_eq_fill`).

The reason is one law. Adding bytes to a file and then more bytes is adding all
of them, in the failures too, and so a writer always stands at the file with
what has been written added to it and the rest still to be added.
-/

namespace CrashDigest

namespace FileTree

/-- Add bytes to what a file that was created holds. -/
def append (t : FileTree) (place : Place) (content : Bytes) : Except FileError FileTree :=
  match t.node? place with
  | some (.file old) => t.fill place (old ++ content)
  | _ => t.fill place content

end FileTree

/-- A file that is being written: the tree as it is by now, and the bytes that wait. -/
structure Buffered where
  files : FileTree
  waiting : Bytes
  deriving DecidableEq, Repr

namespace Buffered

/-- Write what waits. -/
def flush (place : Place) (b : Buffered) : Except FileError Buffered :=
  (b.files.append place b.waiting).map (⟨·, []⟩)

/-- Take one more piece. It waits if there is room for it, or else if an empty buffer has room. -/
def write (capacity : Nat) (place : Place) (b : Buffered) (piece : Bytes) :
    Except FileError Buffered :=
  if b.waiting.length + piece.length ≤ capacity ∧ piece.length < capacity then
    pure { b with waiting := b.waiting ++ piece }
  else do
    let b ← b.flush place
    if piece.length < capacity then pure { b with waiting := piece }
    else
      let files ← b.files.append place piece
      pure { b with files }

end Buffered

namespace FileTree

/-- Write some pieces through a buffer, which is emptied at the end. -/
def writeThrough (capacity : Nat) (t : FileTree) (place : Place) (pieces : List Bytes) :
    Except FileError FileTree := do
  let b ← pieces.foldlM (Buffered.write capacity place) ⟨t, []⟩
  let b ← b.flush place
  pure b.files

variable {t : FileTree} {place : Place}

theorem append_of_full (hfull : t.node? place = some .fullDevice) (content : Bytes) :
    t.append place content = if content = [] then .ok t else .error .noSpace := by
  simp only [append, fill, hfull]

theorem append_put (hplace : place ≠ []) (old content : Bytes) :
    (t.put place (.file old)).append place content =
      .ok (t.put place (.file (old ++ content))) := by
  simp only [append, fill, node?_put hplace, if_true, put_put]

/-- Adding is an action of the bytes on the file, failures included. -/
theorem append_append (hplace : place ≠ []) (front back : Bytes) :
    (t.append place front >>= fun t' => t'.append place back) = t.append place (front ++ back) := by
  have hfile (content : Bytes) := append_put (t := t) hplace content back
  cases hnode : t.node? place with
  | none =>
      simp only [append, fill, hnode]
      exact hfile front
  | some node =>
      cases node with
      | file old =>
          simp only [append, fill, hnode, ← List.append_assoc]
          exact hfile (old ++ front)
      | directory =>
          simp only [append, fill, hnode]
          exact hfile front
      | fullDevice =>
          rw [append_of_full hnode, append_of_full hnode]
          by_cases hfront : front = []
          · rw [if_pos hfront, hfront, List.nil_append, ← append_of_full hnode]
            rfl
          · rw [if_neg hfront, if_neg (by simp [hfront])]
            rfl

end FileTree

namespace Buffered

variable {place : Place}

/-- Whatever a writer does with a piece, what it has still to add comes after it. -/
theorem append_write (hplace : place ≠ []) (capacity : Nat) (b : Buffered)
    (piece rest : Bytes) :
    (b.write capacity place piece >>= fun b' => b'.files.append place (b'.waiting ++ rest)) =
      b.files.append place (b.waiting ++ (piece ++ rest)) := by
  have hflush (next : Buffered → Except FileError FileTree) :
      (b.flush place >>= next) =
        b.files.append place b.waiting >>= fun files => next ⟨files, []⟩ := by
    rw [flush]
    cases b.files.append place b.waiting <;> rfl
  rw [write]
  split
  · rw [pure_bind, List.append_assoc]
  · rw [bind_assoc, hflush, ← FileTree.append_append hplace b.waiting]
    congr 1
    funext files
    split
    · rw [pure_bind]
    · rw [bind_assoc, ← FileTree.append_append hplace piece]
      rfl

/-- A run of pieces, emptied at the end, adds all of them. -/
theorem foldlM_write (hplace : place ≠ []) (capacity : Nat) (b : Buffered)
    (pieces : List Bytes) :
    (pieces.foldlM (write capacity place) b >>= fun b' => b'.files.append place b'.waiting) =
      b.files.append place (b.waiting ++ pieces.flatten) := by
  induction pieces generalizing b with
  | nil => rw [List.foldlM_nil, pure_bind, List.flatten_nil, List.append_nil]
  | cons piece pieces ih =>
      rw [List.foldlM_cons, bind_assoc]
      simp only [ih]
      rw [append_write hplace, List.flatten_cons]

/-- Whether a file, in a place of a tree, and what waits for it hold a content together. -/
def Holds (t : FileTree) (place : Place) (b : Buffered) (content : Bytes) : Prop :=
  ∃ old, b.files = t.put place (.file old) ∧ old ++ b.waiting = content

variable {t : FileTree} {b : Buffered} {content : Bytes}

theorem Holds.flush (hplace : place ≠ []) (h : Holds t place b content) :
    b.flush place = .ok ⟨t.put place (.file content), []⟩ := by
  obtain ⟨old, hfiles, rfl⟩ := h
  rw [Buffered.flush, hfiles, FileTree.append_put hplace]
  rfl

/-- A piece is added to what is held, wherever it goes. -/
theorem Holds.write (hplace : place ≠ []) (h : Holds t place b content) (capacity : Nat)
    (piece : Bytes) :
    ∃ b', b.write capacity place piece = .ok b' ∧ Holds t place b' (content ++ piece) := by
  rw [Buffered.write]
  split
  · obtain ⟨old, hfiles, rfl⟩ := h
    exact ⟨_, rfl, old, hfiles, (List.append_assoc ..).symm⟩
  · rw [h.flush hplace]
    show ∃ b', (if piece.length < capacity then _ else _) = _ ∧ _
    split
    · exact ⟨_, rfl, content, rfl, rfl⟩
    · refine ⟨⟨t.put place (.file (content ++ piece)), []⟩, ?_, _, rfl, List.append_nil _⟩
      rw [FileTree.append_put hplace]
      rfl

end Buffered

namespace FileTree

/-- What stands in the place of a file that was just created. -/
theorem node?_of_create {t files : FileTree} {p : Path} {place : Place}
    (h : t.create p = .ok (place, files)) :
    place ≠ [] ∧
      (files.node? place = some .fullDevice ∨ files.node? place = some (.file [])) := by
  unfold create at h
  split at h
  · cases h
  · next q hwritable =>
      have hq := ne_nil_of_not_directory (follow_of_writable hwritable).2
      split at h
      · next hfull =>
          cases h
          exact ⟨hq, Or.inl hfull⟩
      · cases h
        exact ⟨hq, Or.inr (by rw [node?_put hq, if_pos rfl])⟩

/-- A file that was just created ends up as if everything had been written to it at once. -/
theorem writeThrough_eq_fill {t files : FileTree} {p : Path} {place : Place}
    (h : t.create p = .ok (place, files)) (capacity : Nat) (pieces : List Bytes) :
    files.writeThrough capacity place pieces = files.fill place pieces.flatten := by
  obtain ⟨hplace, hnode⟩ := node?_of_create h
  have hrun := Buffered.foldlM_write hplace capacity ⟨files, []⟩ pieces
  have hfill : files.append place pieces.flatten = files.fill place pieces.flatten := by
    rcases hnode with hnode | hnode <;> simp only [append, hnode, List.nil_append]
  rw [← hfill, ← List.nil_append pieces.flatten, ← hrun, writeThrough]
  congr 1
  funext b
  rw [Buffered.flush]
  cases b.files.append place b.waiting <;> rfl

end FileTree

end CrashDigest
