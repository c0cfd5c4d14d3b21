/-!
# The checksum of gzip

The remainder of the data, taken as a polynomial over two elements, by the
polynomial of degree 32 that gzip fixes; bits go lowest first, and the register
starts and ends inverted.
-/

namespace CrashDigest.Gzip

/-- The polynomial without its leading term, lowest bit last. -/
def polynomial : UInt32 := 0xEDB88320

/-- Take one bit out of the register. -/
def shift (r : UInt32) : UInt32 :=
  if r % 2 = 1 then (r / 2) ^^^ polynomial else r / 2

/-- Take one byte in. -/
def addByte (r : UInt32) (b : UInt8) : UInt32 :=
  shift (shift (shift (shift (shift (shift (shift (shift (r ^^^ b.toUInt32))))))))

/-- The checksum of some bytes. -/
def checksum (bytes : List UInt8) : Nat :=
  (bytes.foldl addByte 0xFFFFFFFF ^^^ 0xFFFFFFFF).toNat

end CrashDigest.Gzip
