import CrashDigest.Text.Basic

/-!
# Blank characters

The characters with the Unicode property `White_Space`, in ASCII and beyond it,
and trimming by them.
-/

namespace CrashDigest

/-- The ranges of the Unicode property `White_Space`, both ends included. -/
def blankRanges : List (Nat × Nat) :=
  [(0x09, 0x0D), (0x20, 0x20), (0x85, 0x85), (0xA0, 0xA0), (0x1680, 0x1680),
   (0x2000, 0x200A), (0x2028, 0x2029), (0x202F, 0x202F), (0x205F, 0x205F),
   (0x3000, 0x3000)]

/-- Whether a character is white space in the sense of Unicode. -/
def isBlank (c : Char) : Bool :=
  blankRanges.any fun (lo, hi) => lo ≤ c.toNat && c.toNat ≤ hi

namespace Text

/-- The text without the blank characters at its end. -/
def trimEnd (s : Text) : Text :=
  (s.reverse.dropWhile isBlank).reverse

/-- The text without the blank characters at either end. -/
def trim (s : Text) : Text :=
  trimEnd (s.dropWhile isBlank)

/-- Whether nothing but blank characters occurs in the text. -/
def isBlankText (s : Text) : Bool :=
  s.all isBlank

end Text

end CrashDigest
