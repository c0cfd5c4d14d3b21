import CrashDigest.Fields
import CrashDigest.Probe
import CrashDigest.Slot
import CrashDigest.Text.Blank

/-!
# Summaries of coredumps

Beside a binary dump lies a short text with labelled values, of which each is
taken from the first line that has it. Another program may have left a file
with values that are already named as in a record; they are passed on as they
are.
-/

namespace CrashDigest.Coredump

/-- The slots after one more line, each offered what its own probe reads. -/
def offerAll (probes : List Probe) (slots : List Slot) (line : Text) : List Slot :=
  slots.zipWith (fun slot probe => slot.offer (probe.read line)) probes

/-- The first value of each probe, or the empty text. -/
def firstMatches (probes : List Probe) (lines : List Text) : List Text :=
  (lines.foldl (offerAll probes) (probes.map fun _ => .first)).map Slot.text

/-! ## Values that are passed on -/

/-- The names of the values, in the order of the record. -/
def passedKeys : List FieldKey :=
  [.data 0, .data 1, .data 2, .data 3, .data 4, .data 5, .modemVersion]

/-- The first value under each name. -/
def scanPassed (lines : List Text) : Fields :=
  .ofList (passedKeys.zip
    (firstMatches (passedKeys.map fun key => .labelled key.name "=") lines))

/-! ## Labelled values -/

def fileName : Probe := .labelled "Filename" ":"
def lineNumber : Probe := .labelled "Line number" ":"
def logData : Probe := .labelled "Log data" ":"
def vector : Probe := .labelled "Vector" ":"

/-- The fields of a trap: where it happened and what was logged. -/
def trapFields (lines : List Text) : Fields :=
  .ofList (([.data 0, .data 1, .data 2] : List FieldKey).zip
    (firstMatches [fileName, lineNumber, logData] lines))

/-- The place of a failed assertion. -/
def placeOf (line file : Text) : Text :=
  ("id: l:" : Text) ++ line.trim ++ (" c:" : Text) ++ file.trim

/-- The fields of a modem panic: the place of the assertion and the vector of the exception. -/
def modemFields (lines : List Text) : Fields :=
  match firstMatches [fileName, lineNumber, vector] lines with
  | [file, line, vector] =>
      .ofList [(.data 0, placeOf line file), (.data 1, vector), (.data 3, "CD_INFO")]
  | _ => .empty

end CrashDigest.Coredump
