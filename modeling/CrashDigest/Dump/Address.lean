import CrashDigest.Text.Digit

/-!
# Object addresses

A Java object without a name of its own is printed with an at sign and its
address, in eight or sixteen hexadecimal digits. The address changes from run
to run, so it is taken out of what is to be compared: first the long ones, then
the short ones.
-/

namespace CrashDigest.Address

/-- Whether a text starts with `n` hexadecimal digits. -/
def startsWithDigits (n : Nat) (s : Text) : Bool :=
  (s.take n).length = n && (s.take n).all isHexDigit

/-- The text without its addresses of `n` digits, from left to right; `skip` characters of one
are still to be left out. -/
def stripFrom (n : Nat) : Nat → Text → Text
  | _, [] => []
  | skip + 1, _ :: s => stripFrom n skip s
  | 0, c :: s => if c = '@' && startsWithDigits n s then stripFrom n n s else c :: stripFrom n 0 s

/-- The text without its addresses. -/
def strip (s : Text) : Text :=
  stripFrom 8 0 (stripFrom 16 0 s)

end CrashDigest.Address
