/-!
# Reading compressed data

Compressed data is read front to back, partly in bytes and partly in bits. A
reader takes something off the front or fails, and its failure says what is
wrong with the data; a reader that succeeded does the same, with the same
result, when more data follows.
-/

namespace CrashDigest.Gzip

/-- What can be wrong with compressed data. -/
inductive Failure where
  /-- The header is not one of a gzip member. -/
  | badHeader
  /-- The data ends inside a header or a trailer. -/
  | cutFrame
  /-- The compressed data ends early. -/
  | cutData
  /-- The compressed data breaks the rules of its format. -/
  | badData
  /-- A checksum, or the size, does not agree with the data. -/
  | badChecksum
  deriving DecidableEq, Repr

/-- The failure in words. -/
def Failure.message : Failure → List Char
  | .badHeader => "invalid gzip header".toList
  | .cutFrame => "unexpected end of file".toList
  | .cutData => "incomplete deflate stream".toList
  | .badData => "corrupt deflate stream".toList
  | .badChecksum => "corrupt gzip stream does not have a matching checksum".toList

/-- Takes something off the front of a list of items, or fails. -/
abbrev Reader (ι α : Type) := StateT (List ι) (Except Failure) α

/-- Fail. -/
def fail {ι α : Type} (e : Failure) : Reader ι α := throw e

/-! ## Bits -/

/-- The bits of a byte, the lowest first. -/
def bitsOfByte (b : UInt8) : List Bool :=
  (List.range 8).map b.toNat.testBit

/-- The bits of some bytes in the order in which they are read. -/
def bitsOf (bytes : List UInt8) : List Bool :=
  bytes.flatMap bitsOfByte

/-- The next bit. -/
def bit : Reader Bool Bool
  | [] => .error .cutData
  | b :: rest => .ok (b, rest)

/-- The number made of the next bits, the lowest first. -/
def number : Nat → Reader Bool Nat
  | 0 => pure 0
  | n + 1 => do
      let low ← bit
      let high ← number n
      pure (low.toNat + 2 * high)

/-- Leave out the bits before the next whole byte. The data ends with a whole byte, so they are
the ones too many for whole bytes. -/
def align : Reader Bool Unit := fun bits =>
  .ok ((), bits.drop (bits.length % 8))

/-! ## Bytes -/

/-- The next byte. -/
def byte : Reader UInt8 UInt8
  | [] => .error .cutFrame
  | b :: rest => .ok (b, rest)

/-- The next `n` bytes, all of them. -/
def bytes : Nat → Reader UInt8 (List UInt8)
  | 0 => pure []
  | n + 1 => do
      let b ← byte
      let rest ← bytes n
      pure (b :: rest)

/-- The number made of some bytes, the lowest first. -/
def littleEndian : List UInt8 → Nat
  | [] => 0
  | b :: rest => b.toNat + 256 * littleEndian rest

/-- Leave out the bytes up to the next zero, and the zero. There may be any number of them. -/
def skipPastZero : Reader UInt8 Unit
  | [] => .error .cutFrame
  | b :: rest => if b = 0 then .ok ((), rest) else skipPastZero rest

end CrashDigest.Gzip
