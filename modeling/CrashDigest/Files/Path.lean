import CrashDigest.Text.Basic

/-!
# Paths

A path is text with a slash between its names. It is kept as it was written,
so that a message shows what the user wrote; only following it gives the
slashes and dots their meaning.
-/

namespace CrashDigest

/-- A path as it was written. -/
abbrev Path := Text

namespace Path

/-- Whether the path starts at the root. -/
def isAbsolute (p : Path) : Bool :=
  p.head? = some '/'

/-- The path `q`, taken from `p` unless it starts at the root. -/
def join (p q : Path) : Path :=
  if q.isAbsolute || p.isEmpty then q
  else if p.getLast? = some '/' then p ++ q
  else p ++ '/' :: q

/-- The parts between the slashes; `name` holds the current one in reverse. -/
def partsFrom (name : Text) : Path → List Text
  | [] => [name.reverse]
  | c :: p => if c = '/' then name.reverse :: partsFrom [] p else partsFrom (c :: name) p

/-- The parts between the slashes, the empty ones and the dots included. -/
def parts (p : Path) : List Text :=
  partsFrom [] p

/-- The last name of the path, unless it ends in a step upwards. -/
def fileName? (p : Path) : Option Text :=
  match (p.parts.filter fun name => name ≠ [] && name ≠ ['.']).getLast? with
  | some name => if name = ['.', '.'] then none else some name
  | none => none

/-- What stands behind the last dot of a name, unless nothing stands before it. -/
def extensionOf (name : Text) : Option Text :=
  let behind := name.reverse.takeWhile (· ≠ '.')
  if behind.length + 1 < name.length then some behind.reverse else none

/-- The extension of the last name of the path. -/
def extension? (p : Path) : Option Text :=
  p.fileName?.bind extensionOf

/-- Whether the path has the extension of compressed files, in whatever case. -/
def hasGzipExtension (p : Path) : Bool :=
  match p.extension? with
  | some ext => ext.sameIgnoringCase "gz"
  | none => false

end Path

end CrashDigest
