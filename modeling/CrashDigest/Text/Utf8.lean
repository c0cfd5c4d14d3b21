import CrashDigest.Text.Basic

/-!
# UTF-8

Characters as bytes and back. Reading is one machine that takes a byte at a
time and remembers at most an unfinished character: `pieces` gives the
characters in order, and `none` for each longest run of bytes that starts
like a character and is then broken off, and for each byte that cannot start
one. `decodeLossy` writes the replacement character for those, `decode?`
refuses them.

An unfinished character never survives a byte below 0x80, so a line feed
always stands for itself; reading lines and decoding may come in either order.
-/

namespace CrashDigest.Utf8

/-- The bytes of one text. -/
def encode (s : Text) : Bytes :=
  s.flatMap String.utf8EncodeChar

/-- What the reader remembers between two bytes. -/
inductive State where
  /-- Between characters. -/
  | start
  /-- Inside a character: its bits so far, how many bytes are still owed after the next one,
  and the least and the greatest byte the next one may be. -/
  | inside (bits owed : Nat) (lo hi : UInt8)
  deriving DecidableEq, Repr

/-- The first byte of a character: what it completes, and the state after it. -/
def first (b : UInt8) : List (Option Char) × State :=
  let n := b.toNat
  if n < 0x80 then ([some (Char.ofNat n)], .start)
  else if n < 0xC2 then ([none], .start)
  else if n < 0xE0 then ([], .inside (n % 0x20) 0 0x80 0xBF)
  else if n = 0xE0 then ([], .inside 0 1 0xA0 0xBF)
  else if n = 0xED then ([], .inside 0xD 1 0x80 0x9F)
  else if n < 0xF0 then ([], .inside (n % 0x10) 1 0x80 0xBF)
  else if n = 0xF0 then ([], .inside 0 2 0x90 0xBF)
  else if n < 0xF4 then ([], .inside (n % 0x08) 2 0x80 0xBF)
  else if n = 0xF4 then ([], .inside 4 2 0x80 0x8F)
  else ([none], .start)

/-- One byte: what it completes or breaks off, and the state after it. -/
def step : State → UInt8 → List (Option Char) × State
  | .start, b => first b
  | .inside bits owed lo hi, b =>
      if lo ≤ b && b ≤ hi then
        let bits := bits * 0x40 + b.toNat % 0x40
        match owed with
        | 0 => ([some (Char.ofNat bits)], .start)
        | owed + 1 => ([], .inside bits owed 0x80 0xBF)
      else
        let (out, state) := first b
        (none :: out, state)

/-- What the end of the bytes breaks off. -/
def finish : State → List (Option Char)
  | .start => []
  | .inside .. => [none]

/-- Reading on from a state. -/
def piecesFrom : State → Bytes → List (Option Char)
  | state, [] => finish state
  | state, b :: bs =>
      let (out, state) := step state b
      out ++ piecesFrom state bs

/-- The characters of the bytes in order, with `none` where they are no UTF-8. -/
def pieces (bs : Bytes) : List (Option Char) :=
  piecesFrom .start bs

/-- Stands for bytes that are no UTF-8. -/
def replacement : Char := '\uFFFD'

/-- The text of the bytes, with the replacement character where they are no UTF-8. -/
def decodeLossy (bs : Bytes) : Text :=
  (pieces bs).map (·.getD replacement)

/-- The text of the bytes, if all of them are UTF-8. -/
def decode? (bs : Bytes) : Option Text :=
  (pieces bs).mapM id

end CrashDigest.Utf8
