import CrashDigest.Gzip.Reader

/-!
# Huffman codes

A code is given by the lengths of its code words, and the words are numbered
in order: first by length, then by symbol. Reading goes down the lengths one
bit at a time; at each length the words in use are consecutive numbers, so a
word is recognised by comparing it with the first of them.

The code words of a complete code weigh 65536 together, a word of length `n`
counting 65536 halved `n` times. Only a code of no word, or of one word of a
single bit, may be incomplete, and the code of the code lengths not even then.
What is read is refused as soon as no word can begin like it.
-/

namespace CrashDigest.Gzip

/-- A code, ready for reading. -/
structure HuffmanCode where
  /-- How many words there are of each length, from 1 up to the length of the longest. -/
  counts : List Nat
  /-- The symbols in the order of their words. -/
  symbols : Array Nat
  deriving Repr

namespace HuffmanCode

/-- The lengths that a word can have. -/
def wordLengths : List Nat := (List.range 15).map (· + 1)

/-- The length of the longest word. At least one bit is always read. -/
def longest (lengths : List Nat) : Nat :=
  lengths.foldl max 1

/-- The code in which symbol `i` has a word of the `i`-th length, and none if that is 0. -/
def ofLengths (lengths : List Nat) : HuffmanCode where
  counts := (wordLengths.take (longest lengths)).map fun n => lengths.count n
  symbols := (wordLengths.flatMap fun n =>
    lengths.zipIdx.filterMap fun (length, symbol) =>
      if length = n then some symbol else none).toArray

/-- The weight of all the words of a complete code. -/
def fullWeight : Nat := 0x10000

/-- The weight of all the words. -/
def weight (lengths : List Nat) : Nat :=
  wordLengths.foldl (fun total n => total + lengths.count n * (fullWeight >>> n)) 0

/-- How many words there are. -/
def size (lengths : List Nat) : Nat :=
  wordLengths.foldl (fun total n => total + lengths.count n) 0

/-- The code of the given lengths, unless they are refused. -/
def ofLengths? (loneWordAllowed : Bool) (lengths : List Nat) : Except Failure HuffmanCode :=
  if weight lengths = fullWeight
      || (loneWordAllowed && size lengths ≤ 1 && longest lengths = 1) then
    .ok (ofLengths lengths)
  else .error .badData

/-- Reading on at the next length: `word` is what has been read, `first` the number of the first
word of the current length, and `passed` how many symbols have shorter words. -/
def readFrom (symbols : Array Nat) (word first passed : Nat) : List Nat → Reader Bool Nat
  | [] => fail .badData
  | count :: counts => do
      let b ← bit
      let word := 2 * word + b.toNat
      if word < first + count then
        match symbols[passed + (word - first)]? with
        | some symbol => pure symbol
        | none => fail .badData
      else readFrom symbols word (2 * (first + count)) (passed + count) counts

/-- The next symbol. -/
def read (code : HuffmanCode) : Reader Bool Nat :=
  readFrom code.symbols 0 0 0 code.counts

end HuffmanCode

end CrashDigest.Gzip
