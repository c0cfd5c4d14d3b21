import CrashDigest.Assoc
import CrashDigest.Text.Basic

/-!
# Fields

What is read out of an artifact: a list of named values, each name once, in
the order in which the names first came. Setting a name again replaces its
value and leaves it where it stands.
-/

namespace CrashDigest

/-- The name of an extracted value. -/
inductive FieldKey where
  /-- `DATA0`, `DATA1` and so on. -/
  | data (n : Nat)
  /-- The firmware version of the modem. -/
  | modemVersion
  deriving DecidableEq, Repr

/-- The name as it is written in a record. -/
def FieldKey.name : FieldKey → Text
  | .data n => "DATA".toList ++ Nat.toDigits 10 n
  | .modemVersion => "MODEMVERSIONUSED"

/-- Named values in the order of their names' first appearance. -/
structure Fields where
  entries : List (FieldKey × Text)
  deriving DecidableEq, Repr

namespace Fields

/-- No value at all. -/
def empty : Fields := ⟨[]⟩

/-- The value under a name. -/
def get? (f : Fields) (key : FieldKey) : Option Text :=
  f.entries.lookup key

/-- Whether a name has a value. -/
def has (f : Fields) (key : FieldKey) : Bool :=
  (f.get? key).isSome

/-- How many names have a value. -/
def size (f : Fields) : Nat := f.entries.length

/-- Whether no name has a value. -/
def isEmpty (f : Fields) : Bool := f.entries.isEmpty

/-- Set a name to a value. -/
def set (f : Fields) (key : FieldKey) (value : Text) : Fields :=
  ⟨Assoc.put key value f.entries⟩

/-- Set every name of the list, in its order. -/
def setAll (f : Fields) (entries : List (FieldKey × Text)) : Fields :=
  entries.foldl (fun f (key, value) => f.set key value) f

/-- Set every name of the other fields, in their order. -/
def merge (f other : Fields) : Fields :=
  f.setAll other.entries

/-- The fields that setting the entries one by one gives. -/
def ofList (entries : List (FieldKey × Text)) : Fields :=
  empty.setAll entries

/-- Whether the same names have the same values, in whatever order. -/
def same (f g : Fields) : Bool :=
  f.size = g.size && f.entries.all fun (key, value) => g.get? key = some value

end Fields

end CrashDigest
