import CrashDigest.Event.Extract
import CrashDigest.Json
import CrashDigest.Record
import CrashDigest.Settings.Basic

/-!
# Parsing an event

One run reads the artifacts of one event and leaves a record in the event's
directory. It fails before it has written anything if the directory or the
serial number is missing. Once the record is there it is always completed: an
artifact that cannot be read costs the fields, and in strict mode the run
reports it afterwards. With its record in it the directory can go to another
owner.
-/

namespace CrashDigest

/-- The event that is to be parsed, and what is known of it. -/
structure Request where
  dir : Path
  /-- The tag as it was given. -/
  tag : Text
  id : Text
  uptime : Text
  build : Text
  board : Text
  date : Text
  imei : Text
  operator : Text
  dataReady : Bool
  deriving DecidableEq, Repr

/-- Why a run failed. -/
inductive ParseError where
  | invalidDirectory (path : Path)
  | serial (path : Path) (why : FileError)
  | recordOpen (path : Path) (why : FileError)
  | recordWrite (path : Path) (why : FileError)
  | extraction (tag : Text) (why : ArtifactError)
  deriving DecidableEq, Repr

namespace ParseError

/-- The error in words. -/
def message : ParseError → Text
  | .invalidDirectory path =>
      ("artifact directory " : Text) ++ path ++ (" does not exist or is not a directory" : Text)
  | .serial path why =>
      ("failed to read device serial from " : Text) ++ path ++ (": " : Text) ++ why.message
  | .recordOpen path why =>
      ("failed to create crash record " : Text) ++ path ++ (": " : Text) ++ why.message
  | .recordWrite path why =>
      ("failed to write crash record " : Text) ++ path ++ (": " : Text) ++ why.message
  | .extraction tag why => tag ++ (" extraction failed: " : Text) ++ why.message

/-- Whether a record was left behind. -/
def recordWritten : ParseError → Bool
  | .recordWrite .. => true
  | .extraction .. => true
  | _ => false

/-- The status with which the program ends. -/
def exitCode : ParseError → Nat
  | .invalidDirectory _ => 2
  | _ => 1

end ParseError

/-- What a run has produced. -/
structure Outcome where
  recordPath : Path
  /-- The plain tag. -/
  tag : Text
  /-- The family whose artifacts were read, if the tag has one. -/
  family : Option Family
  critical : Bool
  /-- Whether the tag said that the dropbox entry was lost. -/
  fullDropbox : Bool
  fields : Fields
  /-- Why the artifacts gave no fields, if they could not be read. -/
  extractionError : Option ArtifactError
  deriving DecidableEq, Repr

/-- The entries of a summary for other programs. -/
def Outcome.summary (o : Outcome) : List (Text × Json) :=
  [("record_path", .string o.recordPath),
   ("tag", .string o.tag),
   ("family", match o.family with
      | some family => .string family.name
      | none => .null),
   ("critical", .bool o.critical),
   ("full_dropbox", .bool o.fullDropbox),
   ("fields", .ofPairs (o.fields.entries.map fun (key, value) => (key.name, value)))]

/-- The outcome as a summary for other programs. An error has an entry only if there is one. -/
def Outcome.toJson (o : Outcome) : Json :=
  let error : List (Text × Json) := match o.extractionError with
    | some e => [("extraction_error", .string e.message)]
    | none => []
  .object (o.summary ++ error)

/-- A directory that is to go to another owner. Files have no owners here, so it is for the system
to do it; whether it can do it has no influence on the run. -/
structure Handover where
  owner : Text
  dir : Path
  deriving DecidableEq, Repr

namespace Engine

/-- The serial number: the first line of its file, which must be text. What follows it is not
looked at. -/
def readSerial (files : FileTree) (path : Path) : Except FileError Text :=
  match files.read path with
  | .error why => .error why
  | .ok data =>
      match Utf8.decode? (data.takeWhile (· ≠ 0x0A)) with
      | some line => .ok ((line.reverse.dropWhile (· = '\r')).reverse)
      | none => .error .notText

/-- Marks the record of an event whose dropbox entry was lost. -/
def lostMark : Text := "full dropbox"

/-- The first lines of the record: those for the event and the mark of a lost entry. -/
def opening (request : Request) (serial : Text) (plain : Tag.Plain) : Record.Draft :=
  let draft := Record.Draft.create
    { id := request.id, serial, date := request.date, uptime := request.uptime
      build := request.build, board := request.board, imei := request.imei, tag := plain.tag
      dataReady := request.dataReady, operator := request.operator }
  if plain.fullDropbox then draft.field (.data 0) lostMark else draft

/-- What the artifacts of the event give. A tag without a family has none. -/
def extraction (settings : Settings) (request : Request) (tag : Text) (files : FileTree) :
    Except ArtifactError Extraction :=
  match Tag.family? tag with
  | none => .ok .empty
  | some family =>
      Event.extract
        { files, dir := request.dir, tag, legacyFabric := settings.usesLegacyFabric request.board }
        family

/-- The outcome of a run that got as far as its record. -/
def outcome (settings : Settings) (recordPath : Path) (plain : Tag.Plain)
    (extracted : Except ArtifactError Extraction) : Outcome :=
  let found := match extracted with
    | .ok e => e
    | .error _ => .empty
  { recordPath
    tag := plain.tag
    family := Tag.family? plain.tag
    critical := found.critical || Tag.isCritical plain.tag settings.criticalTags
    fullDropbox := plain.fullDropbox
    fields := found.fields
    extractionError := match extracted with
      | .ok _ => none
      | .error why => some why }

/-- What a strict run makes of an outcome without fields. -/
def judge (strictness : Strictness) (o : Outcome) : Except ParseError Outcome :=
  match strictness, o.extractionError with
  | .strict, some why => .error (.extraction o.tag why)
  | _, _ => .ok o

/-- Parse an event: what came of it, and the files afterwards. -/
def parse (settings : Settings) (request : Request) (files : FileTree) :
    Except ParseError Outcome × FileTree :=
  if !files.isDirectory request.dir then (.error (.invalidDirectory request.dir), files)
  else
    match readSerial files settings.serialPath with
    | .error why => (.error (.serial settings.serialPath why), files)
    | .ok serial =>
        let recordPath := request.dir.join Record.fileName
        match files.create recordPath with
        | .error why => (.error (.recordOpen recordPath why), files)
        | .ok (place, files) =>
            let plain := Tag.normalize request.tag
            let o := outcome settings recordPath plain
              (extraction settings request plain.tag files)
            let text := ((opening request serial plain).fields o.fields).finish o.critical
            match files.fill place (Utf8.encode text) with
            | .error why => (.error (.recordWrite recordPath why), files)
            | .ok files => (judge settings.strictness o, files)

/-- Whether a run has completed its record. -/
def isComplete : Except ParseError Outcome → Bool
  | .ok _ | .error (.extraction ..) => true
  | .error _ => false

/-- The last step of a run: the change of owner that the system is to make. -/
def handover? [Dialect] (settings : Settings) (request : Request)
    (result : Except ParseError Outcome) : Option Handover :=
  if isComplete result then
    (settings.newOwner? request.dir).map fun owner => ⟨owner, request.dir⟩
  else none

end Engine

end CrashDigest
