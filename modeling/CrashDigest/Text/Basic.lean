/-!
# Text

A dump is read as characters, and every scan takes lines apart character by
character. Text is therefore a list of characters, and the operations below
are the ones the scans share: looking for a word, cutting at its first or its
last occurrence, and gluing pieces back together. Lines can be long, so the
operations that walk along a text keep what they have passed in an accumulator
and need no stack.

A string literal stands for its characters wherever text is wanted.
-/

namespace CrashDigest

/-- A piece of text: the characters, first to last. -/
abbrev Text := List Char

/-- The content of a file, byte by byte. -/
abbrev Bytes := List UInt8

instance : Coe String Text := ⟨String.toList⟩

namespace Text

/-- Whether `s` begins with `w`. -/
def startsWith (s w : Text) : Bool :=
  w.isPrefixOf s

/-- Going on to the first place where the rest of the text has the property `here`; `before` holds
what has been passed, in reverse. -/
def seekFrom (here : Text → Bool) (before : Text) : Text → Option (Text × Text)
  | [] => if here [] then some (before.reverse, []) else none
  | c :: s =>
      if here (c :: s) then some (before.reverse, c :: s) else seekFrom here (c :: before) s

/-- The text cut in two at the first place where the rest of it has the property `here`. -/
def seek (s : Text) (here : Text → Bool) : Option (Text × Text) :=
  seekFrom here [] s

/-- The text before the first occurrence of `w` and the text after it. -/
def cut (s w : Text) : Option (Text × Text) :=
  (s.seek fun rest => rest.startsWith w).map fun (before, rest) => (before, rest.drop w.length)

/-- The text before the last occurrence of `w` and the text after it. -/
def cutLast (s w : Text) : Option (Text × Text) :=
  (cut s.reverse w.reverse).map fun (after, before) => (before.reverse, after.reverse)

/-- Whether `w` occurs anywhere in `s`. -/
def includes (s w : Text) : Bool :=
  (s.cut w).isSome

/-- Whether the words occur in `s` one behind the other. -/
def includesInTurn : Text → List Text → Bool
  | _, [] => true
  | s, w :: ws =>
      match s.cut w with
      | none => false
      | some (_, after) => includesInTurn after ws

/-- The pieces in order, with `glue` between each two of them. -/
def join (glue : Text) (pieces : List Text) : Text :=
  glue.intercalate pieces

/-- Whether the two agree once the capital letters A to Z are made small. -/
def sameIgnoringCase (s t : Text) : Bool :=
  s.map Char.toLower == t.map Char.toLower

end Text

end CrashDigest
