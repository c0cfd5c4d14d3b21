import CrashDigest.Text.Basic

/-!
# Slots

While a file is scanned, a slot holds one value that is being looked for. A
slot for the first value closes when it has got one; a slot for the last value
stays open and takes every value that it is offered.
-/

namespace CrashDigest

/-- Which of several values counts. -/
inductive Capture where
  | first
  | last
  deriving DecidableEq, Repr

/-- A value that is being looked for. -/
structure Slot where
  capture : Capture
  value : Option Text
  deriving DecidableEq, Repr

namespace Slot

/-- An empty slot for the first value. -/
def first : Slot := ⟨.first, none⟩

/-- An empty slot for the last value. -/
def last : Slot := ⟨.last, none⟩

/-- Whether a value has been found. -/
def isFound (s : Slot) : Bool := s.value.isSome

/-- Whether the slot would still take a value. -/
def isOpen (s : Slot) : Bool :=
  match s.capture with
  | .first => s.value.isNone
  | .last => true

/-- Whether the slot takes this candidate. -/
def takes (s : Slot) (candidate : Option Text) : Bool :=
  candidate.isSome && s.isOpen

/-- The slot after a candidate. -/
def offer (s : Slot) (candidate : Option Text) : Slot :=
  if s.takes candidate then { s with value := candidate } else s

/-- The value found, or the empty text. -/
def text (s : Slot) : Text := s.value.getD []

end Slot

end CrashDigest
