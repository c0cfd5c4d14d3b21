import CrashDigest.Files.Path
import CrashDigest.Settings.Dialect
import CrashDigest.Tag

/-!
# Settings

What a run needs to know besides its event. Every setting has a default; the
serial file lies in the root of the logs unless it is set on its own.
-/

namespace CrashDigest

/-- What is done about an artifact that cannot be read. -/
inductive Strictness where
  /-- The record is completed and the run fails. -/
  | strict
  /-- The record is completed and the run succeeds. -/
  | lenient
  deriving DecidableEq, Repr

/-- Which layout a fabric dump has. -/
inductive FabricLayout where
  /-- The flat one for the boards on a list. -/
  | byBoard
  | legacy
  | sectioned
  deriving DecidableEq, Repr

/-- The choices by their names. -/
def Strictness.named : List (Text × Strictness) :=
  [("strict", .strict), ("lenient", .lenient)]

def Strictness.name : Strictness → Text
  | .strict => "strict"
  | .lenient => "lenient"

/-- The layouts by their names. -/
def FabricLayout.named : List (Text × FabricLayout) :=
  [("by-board", .byBoard), ("legacy", .legacy), ("sectioned", .sectioned)]

def FabricLayout.name : FabricLayout → Text
  | .byBoard => "by-board"
  | .legacy => "legacy"
  | .sectioned => "sectioned"

/-- A pattern as it is written. What it matches is up to the dialect. -/
structure WrittenPattern where
  text : Text
  deriving DecidableEq, Repr

namespace WrittenPattern

variable [Dialect]

/-- The pattern that a text describes, if it does describe one. -/
def ofText? (text : Text) : Option WrittenPattern :=
  if Dialect.IsPattern text then some ⟨text⟩ else none

/-- Whether the pattern matches anywhere in a text. -/
def isIn (p : WrittenPattern) (s : Text) : Bool :=
  match Dialect.test? p.text with
  | some test => test s
  | none => false

end WrittenPattern

/-- What a run needs to know besides its event. -/
structure Settings where
  logsRoot : Path
  /-- The file whose first line is the serial number of the device. -/
  serialPath : Path
  /-- The boards whose fabric dumps are flat. -/
  legacyBoards : List Text
  fabricLayout : FabricLayout
  criticalTags : List Text
  strictness : Strictness
  /-- Who is to own the directory of the event afterwards. -/
  owner : Option Text
  /-- The directories on removable media, whose owner is left alone. -/
  removable : WrittenPattern
  deriving DecidableEq

namespace Settings

/-- The name of the serial file in the root of the logs. -/
def serialName : Text := "uuid.txt"

/-- The root of the logs unless it is set. -/
def defaultRoot : Path := "/logs"

/-- The defaults, for a root of the logs. -/
def forRoot (root : Path) : Settings where
  logsRoot := root
  serialPath := root.join serialName
  legacyBoards := ["redhookbay", "victoriabay"]
  fabricLayout := .byBoard
  criticalTags := Tag.defaultCritical
  strictness := .strict
  owner := some "system.log"
  removable := ⟨defaultMedia⟩

/-- The settings with another root of the logs, where the serial file then lies too. -/
def withRoot (s : Settings) (root : Path) : Settings :=
  { s with logsRoot := root, serialPath := root.join serialName }

/-- Whether the fabric dumps of a board are flat. -/
def usesLegacyFabric (s : Settings) (board : Text) : Bool :=
  match s.fabricLayout with
  | .legacy => true
  | .sectioned => false
  | .byBoard => s.legacyBoards.contains board

/-- Whether a directory lies on removable media. -/
def isRemovable [Dialect] (s : Settings) (dir : Path) : Bool :=
  s.removable.isIn dir

/-- Who is to own the directory of an event once its record is there, if anybody is. -/
def newOwner? [Dialect] (s : Settings) (dir : Path) : Option Text :=
  if s.isRemovable dir then none else s.owner

end Settings

end CrashDigest
