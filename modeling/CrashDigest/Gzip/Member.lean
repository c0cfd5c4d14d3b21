import CrashDigest.Gzip.Checksum
import CrashDigest.Gzip.Deflate

/-!
# Gzip members

A gzip file is one member after another, each a header, compressed data and a
trailer with the checksum and the size of what the data stands for. The
content of the file is the content of its members, one after the other. There
is at least one member, and whatever follows a member must be a member too.
-/

namespace CrashDigest.Gzip

/-- Whether a bit of the header's flags is set. -/
def flag (flags : UInt8) (i : Nat) : Bool := flags.toNat.testBit i

/-- The fields that the flags announce, in their order: extra data, a file name, a comment. -/
def announced (flags : UInt8) : Reader UInt8 Unit := do
  if flag flags 2 then
    let size ← bytes 2
    let _ ← bytes (littleEndian size)
  if flag flags 3 then skipPastZero
  if flag flags 4 then skipPastZero

/-- The header of a member. Its fixed part is judged once all of it is there. -/
def header : Reader UInt8 Unit := do
  let whole ← get
  let fixed ← bytes 10
  let flags := fixed.getD 3 0
  if fixed.take 3 = [0x1F, 0x8B, 0x08] ∧ flags.toNat < 0x20 then do
    announced flags
    if flag flags 1 then
      let rest ← get
      let check ← bytes 2
      if littleEndian check = checksum (whole.take (whole.length - rest.length)) % 0x10000 then
        pure ()
      else fail .badChecksum
  else fail .badHeader

/-- The compressed data of a member. What follows it starts with a whole byte. -/
def body : Reader UInt8 (List UInt8) := fun rest =>
  match inflate (bitsOf rest) with
  | .error e => .error e
  | .ok (out, bits) => .ok (out.toList, rest.drop (rest.length - bits.length / 8))

/-- One member: its content. -/
def member : Reader UInt8 (List UInt8) := do
  header
  let content ← body
  let check ← bytes 4
  let size ← bytes 4
  if littleEndian check = checksum content ∧ littleEndian size = content.length % 0x100000000 then
    pure content
  else fail .badChecksum

/-- What came out of a file, and what was wrong with it, if anything. -/
structure Decoded where
  content : List UInt8
  failure : Option Failure
  deriving DecidableEq, Repr

/-- One member and the ones behind it. -/
def membersFrom : Nat → List UInt8 → Decoded
  | 0, _ => ⟨[], some .cutFrame⟩
  | fuel + 1, data =>
      match member data with
      | .error e => ⟨[], some e⟩
      | .ok (content, []) => ⟨content, none⟩
      | .ok (content, b :: rest) =>
          let more := membersFrom fuel (b :: rest)
          ⟨content ++ more.content, more.failure⟩

/-- The content of a gzip file. Each member takes at least one byte. -/
def decode (data : List UInt8) : Decoded :=
  membersFrom (data.length + 1) data

/-- Whether data starts like a member. -/
def looksCompressed (data : List UInt8) : Bool :=
  data.take 3 = [0x1F, 0x8B, 0x08]

end CrashDigest.Gzip
