import CrashDigest.Pattern.Automaton
import CrashDigest.Text.Pieces

/-!
# Searching

The leftmost match counts, and of the matches that begin there the one that is
reached first when the choices are tried in their order of preference, be it
long or short.

All the ways through the automaton are followed at once, character by
character. A `Thread` is one of them, and the threads at a place are in the
order in which they would be tried. At every place a state is entered once: a
later thread that comes to it could only repeat what the earlier one does. So a
search takes time proportional to the text for a given pattern, and a
repetition of nothing goes round once.

A thread that reaches the end of the pattern ends all the threads behind it;
the ones before it go on, and what they reach later is preferred. As long as
there is no match, a new last thread begins at every place.
-/

namespace CrashDigest

/-- A way through an automaton: the state to go on with, and how many characters stand before the
match. -/
structure Thread where
  state : Nat
  start : Nat
  deriving DecidableEq, Repr

/-- The threads at a place of the text. -/
structure Front where
  /-- The states that have been entered at this place. -/
  entered : Array Bool
  /-- The threads that wait for a character, the least preferred first. -/
  waiting : List Thread
  /-- Where the match of the thread starts that has reached the end, if there is one. -/
  accepted : Option Nat

/-- What a search knows of a place: whether it is the start of the whole text, and whether it is the
end. -/
structure Position where
  isStart : Bool
  isStop : Bool

/-- The states to which a state leads without a character, the preferred one first. -/
def State.silently (position : Position) : State → List Nat
  | .jump next => [next]
  | .fork first second => [first, second]
  | .atStart next => if position.isStart then [next] else []
  | .atStop next => if position.isStop then [next] else []
  | .take _ _ | .accept => []

namespace Automaton

/-- The front after a thread has gone as far as it can without a character. `todo` holds the states
it has still to enter, in order; `fuel` bounds the steps. -/
def follow (a : Automaton) (position : Position) (start : Nat) :
    (fuel : Nat) → (todo : List Nat) → Array Bool → List Thread → Front
  | 0, _, entered, waiting => ⟨entered, waiting, none⟩
  | _, [], entered, waiting => ⟨entered, waiting, none⟩
  | fuel + 1, i :: todo, entered, waiting =>
      if entered.getD i true then follow a position start fuel todo entered waiting
      else
        let entered := entered.setIfInBounds i true
        match a.states[i]? with
        | none => follow a position start fuel todo entered waiting
        | some .accept => ⟨entered, waiting, some start⟩
        | some (.take _ _) => follow a position start fuel todo entered (⟨i, start⟩ :: waiting)
        | some state =>
            follow a position start fuel (state.silently position ++ todo) entered waiting

/-- The front after some threads, in order, up to the first that reaches the end. Every state is
entered at most once and leads to at most two others, which is what the fuel is for. -/
def arrive (a : Automaton) (position : Position) : List Thread → Array Bool → List Thread → Front
  | [], entered, waiting => ⟨entered, waiting, none⟩
  | t :: threads, entered, waiting =>
      match a.follow position t.start (2 * a.states.size + 1) [t.state] entered waiting with
      | ⟨entered, waiting, none⟩ => arrive a position threads entered waiting
      | front => front

/-- The threads that can take a character, in order, each with the state behind it. -/
def advance (a : Automaton) (c : Char) (waiting : List Thread) : List Thread :=
  waiting.foldl (fun (threads : List Thread) (t : Thread) =>
    match a.states[t.state]? with
    | some (.take set next) => if set.has c then ⟨next, t.start⟩ :: threads else threads
    | _ => threads) []

/-- Searching on, `passed` characters behind the place where the search began; `threads` are the
ones that come to this place, and `best` is the start and the end of the best match so far. -/
def searchFrom (a : Automaton) (atStart : Bool) :
    (passed : Nat) → List Thread → Option (Nat × Nat) → Text → Option (Nat × Nat)
  | passed, threads, best, s =>
      let threads := if best.isNone then threads ++ [⟨0, passed⟩] else threads
      let position : Position := ⟨atStart && passed = 0, s.isEmpty⟩
      let front := a.arrive position threads (.replicate a.states.size false) []
      let best := match front.accepted with
        | some start => some (start, passed)
        | none => best
      match s with
      | [] => best
      | c :: s =>
          match a.advance c front.waiting, best with
          | [], some best => some best
          | threads, best => searchFrom a atStart (passed + 1) threads best s

/-- The leftmost match in a text, before which `offset` characters stand. -/
def find (a : Automaton) (offset : Nat) (s : Text) : Option Match :=
  (a.searchFrom (offset = 0) 0 [] none s).map fun (start, stop) => .ofSpan start (stop - start) s

/-- A match gives back the text, because it is cut out of it. -/
theorem find_lawful (a : Automaton) : Search.Lawful a.find := by
  intro offset s m h
  obtain ⟨⟨start, stop⟩, _, rfl⟩ := Option.map_eq_some_iff.mp h
  exact Match.ofSpan_append _ _ _

end Automaton

namespace Pattern

/-- The leftmost match in a text. -/
def find (p : Pattern) (s : Text) : Option Match :=
  p.automaton.find 0 s

/-- Whether the pattern matches anywhere in a text. -/
def isIn (p : Pattern) (s : Text) : Bool :=
  (p.automaton.searchFrom true 0 [] none s).isSome

end Pattern

end CrashDigest
