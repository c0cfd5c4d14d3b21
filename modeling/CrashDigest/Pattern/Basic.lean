import CrashDigest.Pattern.CharSet

/-!
# Patterns

A pattern says what a piece of a line looks like. Its parts are tried in an
order of preference: the left side of a choice before the right one, and one
more turn of a greedy repetition before none.

Patterns are built by `concat`, `choice` and `repeated`, and these keep them in
a normal form. Sequences and choices lean to the right and are not nested in
themselves; words that meet are one word; a choice between characters is a set;
and what all the branches of a choice begin with is taken out in front of it.
The last rule is part of what a choice means: in `.*a|.*b` it is the dots that
are tried first, and then, at every length they can have, `a` and `b`.
-/

namespace CrashDigest

/-- What a piece of text looks like. -/
inductive Pattern where
  /-- Nothing at all. -/
  | empty
  /-- These characters, one behind the other. -/
  | word (w : Text)
  /-- One character of a set. -/
  | one (set : CharSet)
  /-- Nothing, at the start of the whole text. -/
  | start
  /-- Nothing, at the end of the whole text. -/
  | stop
  /-- A pattern in brackets. The brackets are numbered, so that no two groups are the same. -/
  | group (number : Nat) (p : Pattern)
  | seq (p q : Pattern)
  | alt (p q : Pattern)
  /-- A pattern at least `least` times and, if there is a `most`, no more often than that: as often
  as possible or, if not greedy, as seldom. -/
  | times (greedy : Bool) (least : Nat) (most : Option Nat) (p : Pattern)
  deriving DecidableEq, Repr

namespace Pattern

/-- Whether the pattern never takes a character. -/
def takesNothing : Pattern → Bool
  | .empty | .start | .stop => true
  | .word w => w.isEmpty
  | .one _ => false
  | .group _ p => p.takesNothing
  | .seq p q => p.takesNothing && q.takesNothing
  | .alt p q => p.takesNothing && q.takesNothing
  | .times _ _ _ p => p.takesNothing

/-- Whether the pattern can do without a character. -/
def canTakeNothing : Pattern → Bool
  | .empty | .start | .stop => true
  | .word w => w.isEmpty
  | .one _ => false
  | .group _ p => p.canTakeNothing
  | .seq p q => p.canTakeNothing && q.canTakeNothing
  | .alt p q => p.canTakeNothing || q.canTakeNothing
  | .times _ least _ p => least = 0 || p.canTakeNothing

/-! ## Sequences -/

/-- The patterns that follow one another in a sequence. -/
def items : Pattern → List Pattern
  | .empty => []
  | .seq p q => p.items ++ q.items
  | p => [p]

/-- Whether the pattern is a sequence. -/
def isSeq : Pattern → Bool
  | .seq _ _ => true
  | _ => false

/-- One more item, in front. Two words become one. -/
def consItem (p : Pattern) (rest : List Pattern) : List Pattern :=
  match p, rest with
  | .word v, .word w :: rest => .word (v ++ w) :: rest
  | p, rest => p :: rest

/-- The items as one pattern. -/
def ofItems (ps : List Pattern) : Pattern :=
  match ps.reverse with
  | [] => .empty
  | last :: earlier => earlier.foldl (fun rest p => .seq p rest) last

/-- Some patterns, one behind the other. -/
def concat (ps : List Pattern) : Pattern :=
  ofItems ((ps.flatMap items).foldr consItem [])

instance : Append Pattern := ⟨fun p q => concat [p, q]⟩

/-! ## Choices -/

/-- The patterns between which a choice is made. -/
def branches : Pattern → List Pattern
  | .alt p q => p.branches ++ q.branches
  | p => [p]

/-- Whether the pattern is a choice. -/
def isAlt : Pattern → Bool
  | .alt _ _ => true
  | _ => false

/-- The branches as one pattern. -/
def ofBranches (ps : List Pattern) : Pattern :=
  match ps.reverse with
  | [] => .empty
  | last :: earlier => earlier.foldl (fun rest p => .alt p rest) last

/-- One character of a set. -/
def ofSet (set : CharSet) : Pattern :=
  match set.single? with
  | some c => .word [c]
  | none => .one set

/-- The only character that the pattern matches, if it is written as a word. -/
def char? : Pattern → Option CharSet
  | .word [c] => some (.single c)
  | _ => none

/-- The set of which the pattern matches one character, if it is written so. -/
def set? : Pattern → Option CharSet
  | .one set => some set
  | _ => none

/-- The union of the sets that `f` sees in the patterns, if it sees one in each of them. -/
def unionOf (f : Pattern → Option CharSet) (ps : List Pattern) : Option CharSet :=
  ps.foldl (fun union p =>
    match union, f p with
    | some a, some b => some (a.union b)
    | _, _ => none) (some .empty)

/-- A choice between branches that have nothing in common. -/
def plainChoice (ps : List Pattern) : Pattern :=
  match ps.flatMap branches with
  | [p] => p
  | ps =>
      match (unionOf char? ps).or (unionOf set? ps) with
      | some set => ofSet set
      | none => ofBranches ps

/-- What two lists begin with. -/
def commonStart : List Pattern → List Pattern → List Pattern
  | p :: ps, q :: qs => if p = q then p :: commonStart ps qs else []
  | _, _ => []

/-- What all the branches begin with, if all of them are sequences. -/
def sharedItems (ps : List Pattern) : List Pattern :=
  match ps with
  | [] => []
  | p :: more =>
      if ps.all isSeq then more.foldl (fun shared q => commonStart shared q.items) p.items else []

/-- A choice between some patterns. What all of them begin with stands in front of it. -/
def choice (ps : List Pattern) : Pattern :=
  match plainChoice ps with
  | .alt p q =>
      let branches := branches (.alt p q)
      match sharedItems branches with
      | [] => .alt p q
      | shared =>
          let rest (branch : Pattern) : Pattern := concat (branch.items.drop shared.length)
          concat (shared ++ [plainChoice (branches.map rest)])
  | p => p

/-! ## Repetitions -/

/-- A pattern several times over. What takes nothing is not repeated. -/
def repeated (greedy : Bool) (least : Nat) (most : Option Nat) (p : Pattern) : Pattern :=
  let (least, most) :=
    if p.takesNothing then (min least 1, some (min (most.getD 1) 1)) else (least, most)
  if most = some 0 then .empty
  else if least = 1 ∧ most = some 1 then p
  else .times greedy least most p

/-- The rest of the line, as far as another part of the pattern lets it reach. -/
def dots : Pattern :=
  .times true 0 none (.one .dot)

end Pattern

end CrashDigest
