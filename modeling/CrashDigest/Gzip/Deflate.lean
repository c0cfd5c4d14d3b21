import CrashDigest.Gzip.Huffman

/-!
# Deflate

Compressed data is a sequence of blocks. A block holds its bytes as they are,
or as symbols of two Huffman codes, one for bytes and lengths and one for
distances; a length and a distance together repeat what was written before.
The codes are fixed, or described at the start of the block.

What stands before the first byte counts as zeros: a distance may reach there.

A block takes at least one bit and so does a symbol, which bounds both loops
by the number of bits that are left.
-/

namespace CrashDigest.Gzip

/-- The symbols from 257 on: the least length each stands for, and how many bits are added. -/
def lengthTable : Array (Nat × Nat) :=
  #[(3, 0), (4, 0), (5, 0), (6, 0), (7, 0), (8, 0), (9, 0), (10, 0), (11, 1), (13, 1), (15, 1),
    (17, 1), (19, 2), (23, 2), (27, 2), (31, 2), (35, 3), (43, 3), (51, 3), (59, 3), (67, 4),
    (83, 4), (99, 4), (115, 4), (131, 5), (163, 5), (195, 5), (227, 5), (258, 0)]

/-- The distance symbols: the least distance each stands for, and how many bits are added. -/
def distanceTable : Array (Nat × Nat) :=
  #[(1, 0), (2, 0), (3, 0), (4, 0), (5, 1), (7, 1), (9, 2), (13, 2), (17, 3), (25, 3), (33, 4),
    (49, 4), (65, 5), (97, 5), (129, 6), (193, 6), (257, 7), (385, 7), (513, 8), (769, 8),
    (1025, 9), (1537, 9), (2049, 10), (3073, 10), (4097, 11), (6145, 11), (8193, 12),
    (12289, 12), (16385, 13), (24577, 13)]

/-- A number out of a table, with its added bits read. -/
def tabled (table : Array (Nat × Nat)) (i : Nat) : Reader Bool Nat :=
  match table[i]? with
  | none => fail .badData
  | some (least, added) => do
      let more ← number added
      pure (least + more)

/-- The byte that was written `distance` bytes ago. -/
def byteBack (out : Array UInt8) (distance : Nat) : UInt8 :=
  if distance ≤ out.size then out.getD (out.size - distance) 0 else 0

/-- Write `n` more bytes, each a copy of the one `distance` bytes before it. -/
def repeatBack (distance : Nat) : Nat → Array UInt8 → Array UInt8
  | 0, out => out
  | n + 1, out => repeatBack distance n (out.push (byteBack out distance))

/-- The symbols of a block up to its end mark. -/
def symbolsFrom (literals distances : HuffmanCode) :
    Nat → Array UInt8 → Reader Bool (Array UInt8)
  | 0, _ => fail .cutData
  | fuel + 1, out => do
      let symbol ← literals.read
      if symbol < 256 then
        symbolsFrom literals distances fuel (out.push (UInt8.ofNat symbol))
      else if symbol = 256 then pure out
      else do
        let length ← tabled lengthTable (symbol - 257)
        let far ← distances.read
        let distance ← tabled distanceTable far
        symbolsFrom literals distances fuel (repeatBack distance length out)

/-- A block of symbols. -/
def coded (literals distances : HuffmanCode) (out : Array UInt8) : Reader Bool (Array UInt8) := do
  let bits ← get
  symbolsFrom literals distances (bits.length + 1) out

/-- Plain bytes. -/
def plain : Nat → Array UInt8 → Reader Bool (Array UInt8)
  | 0, out => pure out
  | n + 1, out => do
      let b ← number 8
      plain n (out.push (UInt8.ofNat b))

/-- A block that holds its bytes as they are: their number, its complement, and the bytes. -/
def stored (out : Array UInt8) : Reader Bool (Array UInt8) := do
  align
  let size ← number 16
  let check ← number 16
  if size + check = 0xFFFF then plain size out else fail .badData

/-- The fixed code of bytes and lengths. -/
def fixedLiterals : HuffmanCode :=
  .ofLengths (List.replicate 144 8 ++ List.replicate 112 9 ++ List.replicate 24 7
    ++ List.replicate 8 8)

/-- The fixed code of distances. -/
def fixedDistances : HuffmanCode :=
  .ofLengths (List.replicate 32 5)

/-- The symbols of the code of code lengths, in the order in which their own lengths come. -/
def lengthOrder : List Nat :=
  [16, 17, 18, 0, 8, 7, 9, 6, 10, 5, 11, 4, 12, 3, 13, 2, 14, 1, 15]

/-- The lengths of the code of code lengths: those that are given, each with its symbol. -/
def lengthLengths : List Nat → Reader Bool (List (Nat × Nat))
  | [] => pure []
  | symbol :: symbols => do
      let n ← number 3
      let rest ← lengthLengths symbols
      pure ((symbol, n) :: rest)

/-- Code lengths, the latest first, until there are `wanted` of them. A symbol up to 15 is a
length; 16 repeats the one before, 17 and 18 stand for several zeros. -/
def codeLengths (code : HuffmanCode) (wanted : Nat) : Nat → List Nat → Reader Bool (List Nat)
  | 0, _ => fail .cutData
  | fuel + 1, lengths => do
      if wanted ≤ lengths.length then
        if lengths.length = wanted then pure lengths.reverse else fail .badData
      else do
        let symbol ← code.read
        if symbol < 16 then codeLengths code wanted fuel (symbol :: lengths)
        else if symbol = 16 then
          match lengths with
          | [] => fail .badData
          | last :: _ => do
              let n ← number 2
              codeLengths code wanted fuel (List.replicate (3 + n) last ++ lengths)
        else if symbol = 17 then do
          let n ← number 3
          codeLengths code wanted fuel (List.replicate (3 + n) 0 ++ lengths)
        else do
          let n ← number 7
          codeLengths code wanted fuel (List.replicate (11 + n) 0 ++ lengths)

/-- The two codes at the start of a block that describes its own. -/
def describedCodes : Reader Bool (HuffmanCode × HuffmanCode) := do
  let literals ← number 5
  let distances ← number 5
  let given ← number 4
  let literals := literals + 257
  let distances := distances + 1
  if 286 < literals || 30 < distances then fail .badData
  else do
    let table ← lengthLengths (lengthOrder.take (given + 4))
    let code ← (HuffmanCode.ofLengths? false
      ((List.range 19).map fun symbol => (table.lookup symbol).getD 0) : Except Failure _)
    let lengths ← codeLengths code (literals + distances) (literals + distances + 1) []
    let far ← (HuffmanCode.ofLengths? true (lengths.drop literals) : Except Failure _)
    let near ← (HuffmanCode.ofLengths? true (lengths.take literals) : Except Failure _)
    pure (near, far)

/-- The content of a block of a given kind, written behind `out`. -/
def block (kind : Nat) (out : Array UInt8) : Reader Bool (Array UInt8) := do
  if kind = 0 then stored out
  else if kind = 1 then coded fixedLiterals fixedDistances out
  else if kind = 2 then do
    let (literals, distances) ← describedCodes
    coded literals distances out
  else fail .badData

/-- Blocks up to the last one. -/
def blocksFrom : Nat → Array UInt8 → Reader Bool (Array UInt8)
  | 0, _ => fail .cutData
  | fuel + 1, out => do
      let isLast ← bit
      let kind ← number 2
      let out ← block kind out
      if isLast then pure out else blocksFrom fuel out

/-- The bytes that compressed data stands for. -/
def inflate : Reader Bool (Array UInt8) := do
  let bits ← get
  blocksFrom (bits.length + 1) #[]

end CrashDigest.Gzip
