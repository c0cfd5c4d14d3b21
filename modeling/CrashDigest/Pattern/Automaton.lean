import CrashDigest.Pattern.Basic

/-!
# The automaton of a pattern

A pattern becomes a list of states. A thread that runs through them takes a
character, goes on without one, or splits in two, of which the first is
preferred. The states of a part of the pattern stand together, from its entry
on, and lead to a state `next` behind it.

A repetition has no counters. What has to come stands there as often as it has
to come. What may come follows, one copy for every turn, and each can be left
out together with all the copies behind it. A repetition without an end is one
copy that leads back to itself, and whether there is another turn is decided
behind the copy. Where no turn is needed, the same state decides about the first
turn too. But a first turn that takes nothing would come back to a state that
has been entered at its place, and would be lost; where that can happen, a state
of its own in front of the copy decides about the first turn.

`code` puts the states of a pattern in front of the ones that follow, so a long
repetition costs no stack.
-/

namespace CrashDigest

/-- A state of an automaton, with the states it leads to. -/
inductive State where
  /-- One character of a set. -/
  | take (set : CharSet) (next : Nat)
  /-- Nothing. -/
  | jump (next : Nat)
  /-- Nothing, to one of two states. The first is preferred. -/
  | fork (first second : Nat)
  /-- Nothing, at the start of the whole text. -/
  | atStart (next : Nat)
  /-- Nothing, at the end of the whole text. -/
  | atStop (next : Nat)
  /-- The pattern has matched. -/
  | accept
  deriving DecidableEq, Repr

/-- The states of a pattern. State 0 is where a match begins. -/
structure Automaton where
  states : Array State
  deriving DecidableEq, Repr

namespace Pattern

/-- How many states a pattern has. -/
def stateCount : Pattern → Nat
  | .empty | .one _ | .start | .stop => 1
  | .word w => max w.length 1
  | .group _ p => p.stateCount
  | .seq p q => p.stateCount + q.stateCount
  | .alt p q => 1 + p.stateCount + q.stateCount
  | .times _ 0 none p => p.stateCount + if p.canTakeNothing then 2 else 1
  | .times _ least none p => least * p.stateCount + 1
  | .times _ least (some most) p =>
      max (least * p.stateCount + (most - least) * (p.stateCount + 1)) 1

/-- The state that decides about one more turn of a repetition. -/
def turn (greedy : Bool) (again leave : Nat) : State :=
  if greedy then .fork again leave else .fork leave again

/-- The states of something with its entry and the state behind it, put in front of some others. -/
abbrev Code := (entry next : Nat) → List State → List State

/-- The states of a word that is not empty. -/
def wordCode (w : Text) : Code := fun entry next rest =>
  let size := w.length
  w.zipIdx.foldr (fun (c, i) rest =>
    .take (.single c) (if i + 1 = size then next else entry + i + 1) :: rest) rest

/-- Something of `size` states a number of times. -/
def copies (body : Code) (size entry : Nat) :
    (count : Nat) → (next : Nat) → List State → List State
  | 0, _, rest => rest
  | k + 1, next, rest =>
      let last := entry + k * size
      copies body size entry k last (body last next rest)

/-- Something of `size` states any number of times up to `count`, each time with the choice to leave
for `leave`. -/
def options (greedy : Bool) (body : Code) (size entry leave : Nat) :
    (count : Nat) → (next : Nat) → List State → List State
  | 0, _, rest => rest
  | k + 1, next, rest =>
      let last := entry + k * (size + 1)
      options greedy body size entry leave k last
        (turn greedy (last + 1) leave :: body (last + 1) next rest)

/-- The states of a pattern. -/
def code : Pattern → Code
  | .empty, _, next, rest => .jump next :: rest
  | .word [], _, next, rest => .jump next :: rest
  | .word w, entry, next, rest => wordCode w entry next rest
  | .one set, _, next, rest => .take set next :: rest
  | .start, _, next, rest => .atStart next :: rest
  | .stop, _, next, rest => .atStop next :: rest
  | .group _ p, entry, next, rest => code p entry next rest
  | .seq p q, entry, next, rest =>
      let middle := entry + p.stateCount
      code p entry middle (code q middle next rest)
  | .alt p q, entry, next, rest =>
      let second := entry + 1 + p.stateCount
      .fork (entry + 1) second :: code p (entry + 1) next (code q second next rest)
  | .times greedy 0 none p, entry, next, rest =>
      let again := turn greedy (entry + 1) next
      if p.canTakeNothing then
        again :: code p (entry + 1) (entry + 1 + p.stateCount) (again :: rest)
      else again :: code p (entry + 1) entry rest
  | .times greedy (k + 1) none p, entry, next, rest =>
      let size := p.stateCount
      copies (code p) size entry (k + 1) (entry + (k + 1) * size)
        (turn greedy (entry + k * size) next :: rest)
  | .times _ _ (some 0) _, _, next, rest => .jump next :: rest
  | .times greedy least (some most) p, entry, next, rest =>
      let size := p.stateCount
      let options := options greedy (code p) size (entry + least * size) next
      if least < most then
        copies (code p) size entry least (entry + least * size) (options (most - least) next rest)
      else copies (code p) size entry least next rest

/-- The automaton of a pattern. -/
def automaton (p : Pattern) : Automaton :=
  ⟨(p.code 0 p.stateCount [.accept]).toArray⟩

end Pattern

end CrashDigest
