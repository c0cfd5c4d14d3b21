import CrashDigest.Fields
import CrashDigest.Files.Artifact
import CrashDigest.Files.Locate
import CrashDigest.Tag

/-!
# Crash events

An event is a directory that a crash left behind, with the tag that says what
kind of crash it was. What is extracted from it is a list of fields, and
whether their content makes the event critical whatever its tag.

The artifacts of a family are known by their names; `Family.artifacts` lists
the names that its extraction looks for, and it looks for no others.
-/

namespace CrashDigest

/-- A crash event, in the files that can be seen. -/
structure Event where
  files : FileTree
  dir : Path
  /-- The plain tag. -/
  tag : Text
  /-- Whether a fabric dump has the flat layout. -/
  legacyFabric : Bool

/-- What is extracted from an event. -/
structure Extraction where
  fields : Fields
  /-- Whether the fields make the event critical. -/
  critical : Bool
  deriving DecidableEq, Repr

namespace Extraction

/-- Nothing was found. -/
def empty : Extraction := ⟨.empty, false⟩

/-- Fields that leave it to the tag whether the event is critical. -/
def of (fields : Fields) : Extraction := ⟨fields, false⟩

end Extraction

namespace Event

/-- The artifact of the event that one of the patterns finds, in their order. -/
def find? (e : Event) (patterns : List Pattern) : Option Path :=
  e.files.findFirst? e.dir patterns

/-- What a scan makes of an artifact. -/
def scan {α : Type} (e : Event) (path : Path) (scan : List Text → α) : Except ArtifactError α :=
  Artifact.scan e.files path scan

end Event

/-! ## Names of artifacts -/

namespace ArtifactName

open Pattern

/-- Any one character; names are written with it where they have a dot. -/
def any : Pattern := .one .dot

/-- A text file of a kind, whose suffix follows the kind at some distance. -/
def textOf (kind suffix : Pattern) : Pattern := kind ++ dots ++ suffix

/-- The suffix of a text file, with the character before it. -/
def txt : Pattern := any ++ word "txt"

/-- The suffix of a compressed text file, with the character before it. -/
def txtGz : Pattern := txt ++ any ++ word "gz"

/-- The consoles of a panic, in the order in which they are tried. -/
def consoles : List Pattern :=
  [word "panic_console", word "coredump", word "console-ramoops", word "last_kmsg"]

/-- The header that a panic leaves when there is no console. -/
def panicHeader : Pattern := word "ipanic_header"

def fabric : Pattern := word "ipanic_fabric_err"

/-- The tombstones and the reports that take their place. -/
def tombstones : List Pattern := [word "tombstone_", word "native_crash"]

def appCrash : List Pattern :=
  [textOf (word "_app_crash") txtGz, textOf (word "_app_crash") txt]

def systemServerCrash : List Pattern :=
  [textOf (word "system_server_crash") txtGz, textOf (word "system_server_crash") txt]

def appNativeCrash : List Pattern :=
  [textOf (word "_app_native_crash") txtGz, textOf (word "_app_native_crash") txt]

/-- The trace of an application or of the server. -/
def anrKind : Pattern := word "_" ++ .alt (word "app") (word "server") ++ word "_anr"

def anr : List Pattern :=
  [textOf anrKind (word "txt" ++ any ++ word "gz"), textOf anrKind (word "txt")]

def watchdog : List Pattern :=
  [textOf (word "system_server_watchdog") (word "txt" ++ any ++ word "gz"),
   textOf (word "system_server_watchdog") (word "txt")]

def assertion : List Pattern :=
  [textOf (word "wtf") (any ++ word "gz"), textOf (word "wtf") txt]

def modemSummary : List Pattern :=
  [textOf (word "coredump_") (word "txt.gz"), textOf (word "coredump_") (word "txt")]

def trapSummary : List Pattern := [textOf (word "coredump_") txt]

/-- The values that another program has left. -/
def passed : List Pattern := [word "_crashdata"]

end ArtifactName

open ArtifactName in
/-- The names of the artifacts of a family. -/
def Family.artifacts : Family → List Pattern
  | .panic => consoles ++ [panicHeader]
  | .fabric => [ArtifactName.fabric]
  | .tombstone => tombstones
  | .java => appCrash ++ systemServerCrash ++ appNativeCrash
  | .anr => ArtifactName.anr
  | .watchdog => ArtifactName.watchdog
  | .assertion => ArtifactName.assertion
  | .modemPanic => modemSummary ++ passed
  | .coredump => trapSummary ++ passed
  | .generic => passed

end CrashDigest
