import CrashDigest.Dump.Tombstone
import CrashDigest.Proofs.Places

/-!
# Windows behind a fingerprint

The scan of a tombstone counts lines in a window that a fingerprint opens and
the next fingerprint opens anew. Here the count is taken out of the scan: a
line lies in a window if the latest fingerprint, in the line itself or before
it, stands fewer lines earlier than the window is long. `Window.Tracks` says
what the counter knows of that after some lines. It is kept by every line
(`Window.Tracks.advance`), and as long as it holds, a line is admitted exactly
if it lies in the window (`Window.Tracks.admits`).

A line outside a window and without a fingerprint has no influence on which
other lines lie in windows, so it may be any such line (`near_set`).
-/

namespace CrashDigest.Tombstone

variable {lines : List Text} {line : Text} {size j k : Nat}

/-- Whether line `k` has a fingerprint. -/
def fingerprintAt (lines : List Text) (k : Nat) : Bool :=
  lines[k]?.any isFingerprint

def latestFingerprint (lines : List Text) : Option Nat :=
  Places.last fingerprintAt lines

/-- Whether line `j` lies in a window of `size` lines: the latest fingerprint in this line or before
it stands fewer than `size` lines earlier. -/
def inWindow (size : Nat) (lines : List Text) (j : Nat) : Bool :=
  (latestFingerprint (lines.take (j + 1))).any fun k => j - k < size

def near (size : Nat) (lines : List Text) : List Text :=
  Places.linesAt (inWindow size) lines

theorem inWindow_iff : inWindow (size + 1) lines j = true ↔
    ∃ k ∈ latestFingerprint (lines.take (j + 1)), j - k ≤ size := by
  simp only [inWindow, Option.any_eq_true, decide_eq_true_eq, Nat.lt_add_one_iff, Option.mem_def]

/-! ## One more line -/

theorem fingerprintAt_looksBack : Places.LooksBack fingerprintAt :=
  Places.looksBack_line isFingerprint

theorem latestFingerprint_concat (lines : List Text) (line : Text) :
    latestFingerprint (lines ++ [line]) =
      if isFingerprint line then some lines.length else latestFingerprint lines := by
  rw [latestFingerprint, Places.last_concat fingerprintAt_looksBack, fingerprintAt,
    Places.any_concat_length, latestFingerprint]

theorem inWindow_looksBack (size : Nat) : Places.LooksBack (inWindow size) :=
  Places.looksBack_take fun before j => (latestFingerprint before).any fun k => j - k < size

theorem inWindow_concat (size : Nat) (lines : List Text) (line : Text) :
    inWindow size (lines ++ [line]) lines.length =
      if isFingerprint line then decide (0 < size)
      else (latestFingerprint lines).any fun k => lines.length - k < size := by
  rw [inWindow, Places.take_concat_length, latestFingerprint_concat]
  split
  · simp
  · rfl

theorem near_concat (size : Nat) (lines : List Text) (line : Text) :
    near size (lines ++ [line]) =
      near size lines ++ if inWindow size (lines ++ [line]) lines.length then [line] else [] :=
  Places.linesAt_concat (inWindow_looksBack size) lines line

/-! ## The counter -/

/-- What the counter of a window knows of the lines that have come. -/
inductive Window.Tracks (size : Nat) (lines : List Text) : Window → Prop where
  /-- The latest fingerprint is near, and the counter has the lines since. -/
  | inside (k : Nat) (latest : latestFingerprint lines = some k)
      (close : lines.length - k ≤ size) : Tracks size lines ⟨true, lines.length - k⟩
  /-- There is no fingerprint, or it is too far away. -/
  | outside (w : Window) (inactive : w.active = false)
      (far : ∀ k ∈ latestFingerprint lines, size < lines.length - k) : Tracks size lines w

namespace Window.Tracks

variable {w : Window}

theorem closed (size : Nat) : Tracks size [] .closed :=
  .outside _ rfl fun _ hk => nomatch hk

/-- The next line is admitted exactly if it lies in the window. -/
theorem admits (h : w.Tracks size lines) (line : Text) :
    (w.anchor (isFingerprint line)).admits size =
      inWindow size (lines ++ [line]) lines.length := by
  rw [inWindow_concat, anchor]
  split
  · rfl
  · cases h with
    | inside k latest close => rw [latest]; rfl
    | outside w inactive far =>
        rw [Window.admits, inactive, Bool.false_and, eq_comm, Option.any_eq_false]
        intro k hk
        have hfar := far k hk
        exact decide_eq_false (by omega)

theorem advance_anchored (hsize : 0 < size) (hline : isFingerprint line = true) :
    (Window.advance size ⟨true, 0⟩).Tracks size (lines ++ [line]) := by
  have hlatest : latestFingerprint (lines ++ [line]) = some lines.length := by
    rw [latestFingerprint_concat, if_pos hline]
  have hone : (lines ++ [line]).length - lines.length = 1 := by simp
  have hinside : Tracks size (lines ++ [line]) ⟨true, _⟩ :=
    .inside lines.length hlatest (hone ▸ hsize)
  rw [hone] at hinside
  rw [Window.advance, if_pos (by simpa [Window.admits] using hsize)]
  exact hinside

theorem advance_passed (h : w.Tracks size lines) (hline : isFingerprint line ≠ true) :
    (w.advance size).Tracks size (lines ++ [line]) := by
  have hlatest : latestFingerprint (lines ++ [line]) = latestFingerprint lines := by
    rw [latestFingerprint_concat, if_neg hline]
  have hlength : (lines ++ [line]).length = lines.length + 1 := by simp
  cases h with
  | inside k latest close =>
      rw [latest] at hlatest
      have hk := Places.last_lt latest
      have hcount : lines.length - k + 1 = (lines ++ [line]).length - k := by omega
      rw [Window.advance]
      split
      · next hadmits =>
          have hroom : lines.length - k < size := by simpa [Window.admits] using hadmits
          exact hcount ▸ .inside k hlatest (by omega)
      · next hadmits =>
          -- the line is the first one behind the window, and the counter keeps its number
          have hfull : ¬ lines.length - k < size := by simpa [Window.admits] using hadmits
          refine .outside _ rfl fun k' hk' => ?_
          cases hlatest.symm.trans hk'
          omega
  | outside w inactive far =>
      have hnot : w.admits size = false := by rw [Window.admits, inactive, Bool.false_and]
      rw [Window.advance, hnot]
      refine .outside _ rfl fun k hk => ?_
      have hfar := far k (hlatest ▸ hk)
      omega

theorem advance (h : w.Tracks size lines) (hsize : 0 < size) (line : Text) :
    ((w.anchor (isFingerprint line)).advance size).Tracks size (lines ++ [line]) := by
  rw [anchor]
  split
  · next hline => exact advance_anchored hsize hline
  · next hline => exact h.advance_passed hline

/-- After a line the window is open exactly if the line lies in it. -/
theorem active_eq (h : w.Tracks size (lines ++ [line])) :
    w.active = inWindow size (lines ++ [line]) lines.length := by
  have hlength : (lines ++ [line]).length = lines.length + 1 := by simp
  rw [inWindow, Places.take_concat_length]
  cases h with
  | inside k latest close =>
      have hk := Places.last_lt latest
      rw [latest, eq_comm, Option.any_some, decide_eq_true_eq]
      omega
  | outside w inactive far =>
      rw [inactive, eq_comm, Option.any_eq_false]
      intro k hk
      have hfar := far k hk
      exact decide_eq_false (by omega)

end Window.Tracks

/-! ## Lines outside of every window -/

theorem latestFingerprint_set (hold : fingerprintAt lines j = false)
    (hline : isFingerprint line = false) :
    latestFingerprint (lines.set j line) = latestFingerprint lines := by
  refine Places.last_congr List.length_set fun k _ => ?_
  by_cases hkj : j = k
  · subst hkj
    rw [hold, fingerprintAt, List.getElem?_set_self']
    cases lines[j]? with
    | none => rfl
    | some _ => exact hline
  · rw [fingerprintAt, List.getElem?_set_ne hkj, fingerprintAt]

theorem inWindow_of_fingerprintAt (hsize : 0 < size) (h : fingerprintAt lines j = true) :
    inWindow size lines j = true := by
  obtain ⟨line, hget, hline⟩ := (Option.any_eq_true _ _).mp h
  obtain ⟨hj, hget⟩ := List.getElem?_eq_some_iff.mp hget
  have htake : lines.take (j + 1) = lines.take j ++ [line] := by
    rw [List.take_succ_eq_append_getElem hj, hget]
  have hlength : (lines.take j).length = j := List.length_take_of_le hj.le
  rw [inWindow, htake, latestFingerprint_concat, if_pos hline, hlength]
  simpa using hsize

/-- A line outside of every window has no part in what lies in a window. -/
theorem near_set (hsize : 0 < size) (hj : inWindow size lines j = false)
    (hline : isFingerprint line = false) : near size (lines.set j line) = near size lines := by
  have hold : fingerprintAt lines j = false := by
    cases h : fingerprintAt lines j with
    | false => rfl
    | true => rw [inWindow_of_fingerprintAt hsize h] at hj; cases hj
  refine Places.linesAt_set hj fun i => ?_
  rw [inWindow, inWindow, List.take_set, latestFingerprint_set ?_ hline]
  rw [fingerprintAt, List.getElem?_take]
  split
  · exact hold
  · rfl

end CrashDigest.Tombstone
