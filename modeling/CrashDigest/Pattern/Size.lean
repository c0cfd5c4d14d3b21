import CrashDigest.Pattern.Basic

/-!
# The size of patterns

A pattern must not ask for too much memory. What is limited is the automaton
over the bytes of the text in UTF-8, in both directions of reading: each of the
two may take ten mebibytes, at a fixed price for a state, for a range of bytes
in it and for a way out of it.

Everything has the same price wherever it stands, so the size of a pattern is
computed from its parts, and a repetition is never written out. Only a set is
looked at more closely. Forwards, the byte sequences of its characters form a
tree in which equal subtrees are one; backwards, sequences that begin alike
share what they have in common.
-/

namespace CrashDigest

/-- The bytes, as ranges, of some characters that are encoded alike. -/
abbrev ByteSequence := List (Nat × Nat)

namespace ByteSequence

/-- The sequences that stand for the numbers from `lo` to `hi`, given how many numbers one step of
each byte but the last is worth. The bytes are counted from `mark` on, the later ones from 0x80. -/
def between (mark lo hi : Nat) : List Nat → List ByteSequence
  | [] => [[(mark + lo, mark + hi)]]
  | block :: blocks =>
      let first := lo / block
      let last := hi / block
      let under (byte lo hi : Nat) : List ByteSequence :=
        (between 0x80 lo hi blocks).map ((mark + byte, mark + byte) :: ·)
      if first = last then under first (lo % block) (hi % block)
      else
        let cutFront := lo % block ≠ 0
        let cutBack := hi % block ≠ block - 1
        let front := if cutFront then under first (lo % block) (block - 1) else []
        let back := if cutBack then under last 0 (hi % block) else []
        let lo := if cutFront then first + 1 else first
        let hi := if cutBack then last - 1 else last
        let rest := (0x80, 0xBF) :: blocks.map fun _ => (0x80, 0xBF)
        front ++ (if lo ≤ hi then [(mark + lo, mark + hi) :: rest] else []) ++ back

/-- The characters that take the same number of bytes: the first and the last of them, the mark of
the first byte, and the numbers that a step of the bytes is worth. Surrogates are no characters. -/
def encodings : List (Nat × Nat × Nat × List Nat) :=
  [(0, 0x7F, 0, []), (0x80, 0x7FF, 0xC0, [0x40]), (0x800, 0xD7FF, 0xE0, [0x1000, 0x40]),
   (0xE000, 0xFFFF, 0xE0, [0x1000, 0x40]), (0x10000, 0x10FFFF, 0xF0, [0x40000, 0x1000, 0x40])]

/-- The sequences of the code points from `lo` to `hi`, in their order. -/
def ofRange (lo hi : Nat) : List ByteSequence :=
  encodings.flatMap fun (first, last, mark, blocks) =>
    if max lo first ≤ min hi last then between mark (max lo first) (min hi last) blocks else []

/-- The sequences that begin alike, with what follows their first byte. -/
def grouped : List ByteSequence → List ((Nat × Nat) × List ByteSequence)
  | [] => []
  | [] :: more => grouped more
  | (byte :: rest) :: more =>
      match grouped more with
      | [] => [(byte, [rest])]
      | (next, rests) :: groups =>
          if byte = next then (byte, rest :: rests) :: groups
          else (byte, [rest]) :: (next, rests) :: groups

/-- The subtrees of the tree of some sequences, each once, added to the ones in `known`. A sequence
has no more than `depth` bytes. -/
def subtrees : (depth : Nat) → List (List ByteSequence) → List ByteSequence →
    List (List ByteSequence)
  | 0, known, _ => known
  | depth + 1, known, sequences =>
      if known.contains sequences then known
      else (grouped sequences).foldl (fun known (_, rests) =>
        if rests = [[]] then known else subtrees depth known rests) (sequences :: known)

/-- The different beginnings that the sequences have. -/
def beginnings (sequences : List ByteSequence) : List ByteSequence :=
  (sequences.flatMap fun bytes =>
    (List.range bytes.length).map fun n => bytes.take (n + 1)).eraseDups

end ByteSequence

/-- How many bytes of memory an automaton takes, in both directions of reading. -/
structure Size where
  forward : Nat
  backward : Nat
  deriving DecidableEq, Repr

namespace Size

instance : Add Size := ⟨fun a b => ⟨a.forward + b.forward, a.backward + b.backward⟩⟩

/-- The same in both directions. -/
def both (n : Nat) : Size := ⟨n, n⟩

/-- So many of them. -/
def scale (n : Nat) (size : Size) : Size := ⟨n * size.forward, n * size.backward⟩

/-- The price of a state. -/
def state : Nat := 32

/-- The price of a range of bytes in a state that has several of them. -/
def range : Nat := 8

/-- The price of each way out of a state that takes nothing. -/
def branch : Nat := 4

/-- The size of a set. One that is all ASCII needs no tree. -/
def ofSet (set : CharSet) : Size :=
  if set.ranges.all fun (_, hi) => hi < 0x80 then
    both (2 * state + set.ranges.length * range)
  else
    let sequences := set.ranges.flatMap fun (lo, hi) => ByteSequence.ofRange lo hi
    let node (tree : List ByteSequence) : Nat := state + (ByteSequence.grouped tree).length * range
    ⟨(ByteSequence.subtrees 4 [] sequences).foldl (fun total tree => total + node tree) state,
     2 * state + sequences.length * branch + (ByteSequence.beginnings sequences).length * state⟩

/-- The price of one more turn, which can be left out, apart from what is turned. -/
def turn : Nat := state + 2 * branch

/-- The size of a pattern, given the sizes of sets. -/
def ofPattern (ofSet : CharSet → Size) : Pattern → Size
  | .empty | .start | .stop => both state
  | .word w => both (w.foldl (fun total c => total + c.utf8Size * state) 0)
  | .one set => ofSet set
  | .group _ p => ofPattern ofSet p + ⟨2 * state, 0⟩
  | .seq p q => ofPattern ofSet p + ofPattern ofSet q
  | .alt p q =>
      ofPattern ofSet p + ofPattern ofSet q
        + both (if q.isAlt then branch else 2 * (state + branch))
  | .times _ least none p =>
      let size := ofPattern ofSet p
      if least = 0 then
        size + both (if p.canTakeNothing then 2 * turn + state else turn)
      else scale least size + both turn
  | .times _ least (some most) p =>
      let size := ofPattern ofSet p
      if least = most then scale least size
      else if least = 0 ∧ most = 1 then size + both (turn + state)
      else
        (if least = 0 then both state else scale least size) + both state
          + scale (most - least) (size + both turn)

/-- What every automaton has besides the states of its pattern: its ends, the search for the start
of a match, and the brackets around it all. -/
def fixed : Size := ⟨208, 144⟩

/-- What an automaton may take in either direction. -/
def limit : Nat := 10 * 1024 * 1024

end Size

namespace Pattern

/-- The sets that occur in the pattern, each once, added to the ones in `known`. -/
def sets (known : List CharSet) : Pattern → List CharSet
  | .one set => if known.contains set then known else set :: known
  | .group _ p => p.sets known
  | .seq p q => q.sets (p.sets known)
  | .alt p q => q.sets (p.sets known)
  | .times _ _ _ p => p.sets known
  | _ => known

/-- The size of the pattern. The same set is measured only once. -/
def size (p : Pattern) : Size :=
  let measured := (p.sets []).map fun set => (set, Size.ofSet set)
  .fixed + .ofPattern (fun set => (measured.lookup set).getD (.both 0)) p

/-- Whether the pattern takes no more memory than is allowed. -/
def isAffordable (p : Pattern) : Bool :=
  let size := p.size
  size.forward ≤ Size.limit && size.backward ≤ Size.limit

end Pattern

end CrashDigest
