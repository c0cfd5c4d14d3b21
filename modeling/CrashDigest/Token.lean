import CrashDigest.Separator

/-!
# Tokens

Splitting a text at a separator and choosing one token. A separator may match
nothing at all; a match of nothing at the very front of the text separates
nothing and is left out.

An unlimited split drops the empty tokens at its end. A limited one keeps them,
and its last token is all that stands behind the last separator it used, so
free text survives in it. A text without a separator is its own only token,
even when it is empty.
-/

namespace CrashDigest.Token

/-- The matches that separate the tokens of a text. -/
def separators (sep : Separator) (s : Text) : List Span :=
  (sep.spans s).filter (· ≠ ⟨0, 0⟩)

/-- The text cut at the matches that separate. -/
def separated (sep : Separator) (s : Text) : Pieces :=
  .ofSpans (separators sep s) s

/-- The tokens without the empty ones at the end. -/
def dropTrailingEmpty (tokens : List Text) : List Text :=
  (tokens.reverse.dropWhile List.isEmpty).reverse

/-- All the tokens of `s`, less the empty ones at the end. -/
def split (sep : Separator) (s : Text) : List Text :=
  let p := separated sep s
  if p.cuts.isEmpty then [s] else dropTrailingEmpty p.between

/-- The tokens of `s` when it is cut in `limit` pieces at most. -/
def splitUpTo (limit : Nat) (sep : Separator) (s : Text) : List Text :=
  ((separated sep s).firstCuts (limit - 1)).between

/-- Token `i`, counted from 0. -/
def nth (sep : Separator) (i : Nat) (s : Text) : Option Text :=
  (split sep s)[i]?

/-- Everything behind the first `i` separators. -/
def nthOnward (sep : Separator) (i : Nat) (s : Text) : Option Text :=
  (splitUpTo (i + 1) sep s)[i]?

/-- Token `i` when an empty first token does not count. -/
def nthCollapsed (sep : Separator) (i : Nat) (s : Text) : Option Text :=
  let tokens := split sep s
  match tokens with
  | [] :: _ => tokens[i + 1]?
  | _ => tokens[i]?

/-! ## Separators that several scans share -/

def openParen : Separator := .word "("
def closeParen : Separator := .word ")"
def openBracket : Separator := .word "["
def lessThan : Separator := .word "<"
def slash : Separator := .word "/"
def space : Separator := .word " "
def colon : Separator := .word ":"

/-- Closes the address in front of a kernel stack frame. -/
def frameEnd : Separator := .word ">]"

/-- One space or more. -/
def spaces : Separator := .run ' '

end CrashDigest.Token
