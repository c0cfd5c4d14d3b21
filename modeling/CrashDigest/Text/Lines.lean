import CrashDigest.Text.Utf8

/-!
# Lines

A line ends at a line feed; one carriage return right before the line feed
belongs to the ending. What follows the last line feed is a line of its own
unless it is empty, and a carriage return at its end is kept. The same rule
cuts bytes and characters.

`Stream` is what a scan is given: the lines of a file, and the failure that
stands behind them when the file could not be read to its end.
-/

namespace CrashDigest.Lines

section Cutting

variable {α : Type} [DecidableEq α]

/-- The finished line, from its items in reverse, when a line feed follows. -/
def ended (cr : α) : List α → List α
  | [] => []
  | c :: line => if c = cr then line.reverse else (c :: line).reverse

/-- Cutting on, with the items of the current line in reverse. -/
def cutFrom (lf cr : α) (line : List α) : List α → List (List α)
  | [] => if line.isEmpty then [] else [line.reverse]
  | c :: rest =>
      if c = lf then ended cr line :: cutFrom lf cr [] rest
      else cutFrom lf cr (c :: line) rest

/-- The lines of a sequence in which `lf` ends a line, together with a `cr` before it. -/
def cut (lf cr : α) (items : List α) : List (List α) :=
  cutFrom lf cr [] items

end Cutting

/-- The lines of a text. -/
def ofText (s : Text) : List Text :=
  cut '\n' '\r' s

/-- The lines of a file: cut as bytes, then decoded one by one. -/
def ofBytes (bs : Bytes) : List Text :=
  (cut 0x0A 0x0D bs).map Utf8.decodeLossy

/-- Lines that end regularly or in a failure. -/
structure Stream (ε : Type) where
  /-- The lines that can be read. -/
  lines : List Text
  /-- Why no more can be read, if the end was not reached. -/
  failure : Option ε := none

namespace Stream

variable {ε α : Type}

/-- What `scan` makes of all the lines, or the failure behind them. -/
def readAll (s : Stream ε) (scan : List Text → α) : Except ε α :=
  match s.failure with
  | none => .ok (scan s.lines)
  | some e => .error e

end Stream

end CrashDigest.Lines
