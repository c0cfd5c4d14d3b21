import CrashDigest.Text.Blank
import CrashDigest.Text.Digit

/-!
# Sets of characters

A set is the list of its ranges of code points, in ascending order and with
something missing between each two of them. So a set is written in one way
only, and two sets of the same code points are equal.

`insert` is where this order is kept; all sets are made by it or by `compl`,
which takes what lies between the ranges.
-/

namespace CrashDigest

/-- A set of characters, as ranges of code points. -/
structure CharSet where
  ranges : List (Nat × Nat)
  deriving DecidableEq, Repr

namespace CharSet

/-- Whether a code point lies in one of the ranges. -/
def holds (ranges : List (Nat × Nat)) (code : Nat) : Bool :=
  ranges.any fun (lo, hi) => lo ≤ code && code ≤ hi

/-- Whether a character is in the set. -/
def has (set : CharSet) (c : Char) : Bool :=
  holds set.ranges c.toNat

/-- Ranges with one more; the ones that it meets or touches become one with it. -/
def insertRange (lo hi : Nat) : List (Nat × Nat) → List (Nat × Nat)
  | [] => [(lo, hi)]
  | (a, b) :: more =>
      if hi + 1 < a then (lo, hi) :: (a, b) :: more
      else if b + 1 < lo then (a, b) :: insertRange lo hi more
      else insertRange (min a lo) (max b hi) more

/-- The set of no character. -/
def empty : CharSet := ⟨[]⟩

/-- The set with the code points from `lo` to `hi` added to it. -/
def insert (set : CharSet) (lo hi : Nat) : CharSet :=
  ⟨insertRange lo hi set.ranges⟩

/-- The set of all the code points in some ranges. -/
def ofRanges (ranges : List (Nat × Nat)) : CharSet :=
  ranges.foldl (fun set (lo, hi) => set.insert lo hi) empty

/-- The characters of both sets. -/
def union (a b : CharSet) : CharSet :=
  b.ranges.foldl (fun set (lo, hi) => set.insert lo hi) a

/-- The greatest code point. -/
def lastCode : Nat := 0x10FFFF

/-- What lies between the ranges, from a code point on. -/
def gapsFrom (code : Nat) : List (Nat × Nat) → List (Nat × Nat)
  | [] => if code ≤ lastCode then [(code, lastCode)] else []
  | (lo, hi) :: more =>
      if code < lo then (code, lo - 1) :: gapsFrom (hi + 1) more else gapsFrom (hi + 1) more

/-- All the other characters. -/
def compl (set : CharSet) : CharSet :=
  ⟨gapsFrom 0 set.ranges⟩

/-- One character. -/
def single (c : Char) : CharSet :=
  ⟨[(c.toNat, c.toNat)]⟩

/-- The character of a set that has only one. -/
def single? (set : CharSet) : Option Char :=
  match set.ranges with
  | [(lo, hi)] => if lo = hi then some (.ofNat lo) else none
  | _ => none

/-- Every character but the line feed. -/
def dot : CharSet := compl (single '\n')

/-- The decimal digits of every script. -/
def digit : CharSet := ofRanges (digitZeros.map fun first => (first, first + 9))

/-- White space. -/
def blank : CharSet := ⟨blankRanges⟩

/-! ## What the sets hold -/

theorem has_single_iff {c d : Char} : (single c).has d = true ↔ d = c := by
  simp only [has, single, holds, List.any_cons, List.any_nil, Bool.or_false, Bool.and_eq_true,
    decide_eq_true_eq]
  rw [← Nat.le_antisymm_iff, eq_comm, Char.toNat_inj]

/-- The dot holds every character but the line feed. -/
theorem has_dot_iff {c : Char} : dot.has c = true ↔ c ≠ '\n' := by
  have hfeed : c = '\n' ↔ c.toNat = 10 := by rw [← Char.toNat_inj]; rfl
  have hlt : c.toNat < 0x110000 := by
    have hvalid := c.valid
    simp only [UInt32.isValidChar, Nat.isValidChar, Char.toNat_val] at hvalid
    omega
  have hdot : dot.ranges = [(0, 9), (11, 0x10FFFF)] := by decide
  simp only [has, holds, hdot, List.any_cons, List.any_nil, Bool.or_false, Bool.or_eq_true,
    Bool.and_eq_true, decide_eq_true_eq, ne_eq, hfeed]
  omega

end CharSet

end CrashDigest
