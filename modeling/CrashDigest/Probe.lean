import CrashDigest.Token

/-!
# Probes

A probe reads one value off a line: it looks for a piece of the line, and takes
the whole piece or one token of it. Tokens are counted in the piece, never in
the line around it. A line without the piece, or a piece without the token,
yields nothing; that is no error.
-/

namespace CrashDigest

/-- Which piece of a line a probe looks at. -/
inductive Piece where
  /-- The whole line, if the word occurs in it. -/
  | lineWith (word : Text)
  /-- The whole line, if it starts with the word. -/
  | lineStarting (word : Text)
  /-- The line from the first occurrence of the word on. -/
  | lineFrom (word : Text)
  /-- The line from the first occurrence of one of the words on. -/
  | lineFromAny (words : List Text)
  /-- The line from the first occurrence of the word on, if the later words come behind it in
  turn. -/
  | lineThrough (word : Text) (later : List Text)
  /-- From the first occurrence of a word to the last occurrence of another behind it. -/
  | span (first last : Text)
  /-- What the pattern matches. -/
  | matching (pattern : Pattern)
  deriving DecidableEq, Repr

/-- The piece of a line, if it is there. -/
def Piece.of : Piece → Text → Option Text
  | .lineWith word, line => if line.includes word then some line else none
  | .lineStarting word, line => if line.startsWith word then some line else none
  | .lineFrom word, line => (line.cut word).map fun (_, after) => word ++ after
  | .lineFromAny words, line => (line.seek fun rest => words.any rest.startsWith).map Prod.snd
  | .lineThrough word later, line =>
      (line.cut word).bind fun (_, after) =>
        if after.includesInTurn later then some (word ++ after) else none
  | .span first last, line =>
      (line.cut first).bind fun (_, after) =>
        (after.cutLast last).map fun (between, _) => first ++ between ++ last
  | .matching pattern, line => (pattern.find line).map Match.matched

/-- Which part of the piece a probe takes. -/
inductive Part where
  /-- All of it. -/
  | whole
  /-- One token, when it is split at every separator. -/
  | token (sep : Separator) (index : Nat)
  /-- Everything behind the first `index` separators. -/
  | onward (sep : Separator) (index : Nat)

/-- The part of a piece, if it has that part. -/
def Part.of : Part → Text → Option Text
  | .whole, piece => some piece
  | .token sep i, piece => Token.nth sep i piece
  | .onward sep i, piece => Token.nthOnward sep i piece

/-- How one value is read off a line. -/
structure Probe where
  piece : Piece
  part : Part

namespace Probe

/-- The value of a line, if it has one. -/
def read (p : Probe) (line : Text) : Option Text :=
  (p.piece.of line).bind p.part.of

/-- The value that stands behind a label and a separator, up to the end of the line. -/
def labelled (label sep : Text) : Probe :=
  ⟨.lineFrom (label ++ sep), .onward (.word sep) 1⟩

end Probe

end CrashDigest
