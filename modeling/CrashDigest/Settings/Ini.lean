import CrashDigest.Settings.Basic
import CrashDigest.Text.Blank
import CrashDigest.Text.Lines

/-!
# Settings files

A settings file has sections in brackets, and in them lines `key = value`. Blank
lines and lines that start with a number sign or a semicolon are comments, and
so, in effect, is every line that sets nothing known: one without an equals
sign, or with a key that its section does not have. A later line wins over an
earlier one, but a choice that does not exist fails the whole file wherever it
stands.
-/

namespace CrashDigest

/-- The settings that a file makes; what it does not set is left as it was. -/
structure SettingsFile where
  logsRoot : Option Path
  serial : Option Path
  strictness : Option Strictness
  fabricLayout : Option FabricLayout
  legacyBoards : Option (List Text)
  criticalTags : Option (List Text)
  owner : Option Text
  skipPattern : Option Text
  deriving DecidableEq, Repr

/-- A choice that does not exist. -/
structure InvalidChoice where
  key : Text
  value : Text
  deriving DecidableEq, Repr

/-- The error in words. -/
def InvalidChoice.message (e : InvalidChoice) : Text :=
  ("Invalid value '" : Text) ++ e.value ++ ("' for " : Text) ++ e.key

/-- A line of a settings file. -/
inductive IniLine where
  /-- A comment, or anything else that sets nothing. -/
  | nothing
  | title (name : Text)
  | setting (key value : Text)
  deriving DecidableEq, Repr

namespace IniLine

/-- What a line is, when the blanks around it are gone. -/
def ofTrimmed (line : Text) : IniLine :=
  if line = [] || line.head? = some ';' || line.head? = some '#' then .nothing
  else if line.head? = some '[' && line.getLast? = some ']' then
    .title (Text.trim line.tail.dropLast)
  else
    match line.cut "=" with
    | none => .nothing
    | some (key, value) => .setting key.trim value.trim

/-- What a line is. -/
def ofText (line : Text) : IniLine :=
  ofTrimmed line.trim

end IniLine

/-- The items of a list: they stand between commas and blanks. -/
def listItems (value : Text) : List Text :=
  (value.splitBy fun a b => isItemChar a && isItemChar b).filter fun item => item.all isItemChar
where
  /-- Whether a character belongs to an item. -/
  isItemChar (c : Char) : Bool := c ≠ ',' && !isBlank c

/-- The choice of a name, in whatever case. -/
def choose {α : Type} (named : List (Text × α)) (key value : Text) : Except InvalidChoice α :=
  match named.find? fun (name, _) => name.sameIgnoringCase value with
  | some (_, choice) => .ok choice
  | none => .error ⟨key, value⟩

namespace SettingsFile

/-- Sets nothing. -/
def empty : SettingsFile :=
  ⟨none, none, none, none, none, none, none, none⟩

/-- The settings of a section, by their keys. -/
inductive Key where
  | logsRoot
  | serial
  | strictness
  | fabricLayout
  | legacyBoards
  | criticalTags
  | owner
  | skipPattern
  deriving DecidableEq, Repr

/-- Every setting with its section and its key. -/
def keys : List ((Text × Text) × Key) :=
  [(("paths", "logs_root"), .logsRoot), (("paths", "serial"), .serial),
   (("parsing", "strictness"), .strictness), (("parsing", "fabric_layout"), .fabricLayout),
   (("parsing", "legacy_fabric_boards"), .legacyBoards),
   (("parsing", "critical_tags"), .criticalTags),
   (("ownership", "owner"), .owner), (("ownership", "skip_pattern"), .skipPattern)]

/-- The file with one setting made; `name` is the key as it was written. -/
def set (f : SettingsFile) (key : Key) (name value : Text) : Except InvalidChoice SettingsFile :=
  match key with
  | .logsRoot => .ok { f with logsRoot := some value }
  | .serial => .ok { f with serial := some value }
  | .strictness =>
      (choose Strictness.named name value).map fun choice => { f with strictness := some choice }
  | .fabricLayout =>
      (choose FabricLayout.named name value).map fun choice =>
        { f with fabricLayout := some choice }
  | .legacyBoards => .ok { f with legacyBoards := some (listItems value) }
  | .criticalTags => .ok { f with criticalTags := some (listItems value) }
  | .owner => .ok { f with owner := some value }
  | .skipPattern => .ok { f with skipPattern := some value }

/-- A file that is being read: the section it is in, and what it has set. -/
structure Reading where
  current : Text
  file : SettingsFile
  deriving DecidableEq, Repr

namespace Reading

/-- Nothing read yet; no section has begun. -/
def initial : Reading := ⟨[], .empty⟩

/-- One line. -/
def step (r : Reading) (line : Text) : Except InvalidChoice Reading :=
  match IniLine.ofText line with
  | .nothing => .ok r
  | .title name => .ok { r with current := name }
  | .setting name value =>
      match keys.lookup (r.current, name) with
      | none => .ok r
      | some key => (r.file.set key name value).map fun file => { r with file }

end Reading

/-- The settings that a text makes. -/
def ofText (text : Text) : Except InvalidChoice SettingsFile :=
  ((Lines.ofText text).foldlM Reading.step .initial).map Reading.file

/-- The names that stand for nobody. -/
def nobody : List Text := ["", "none", "off"]

/-- The owner that a value names. -/
def ownerOf (value : Text) : Option Text :=
  if nobody.contains (value.map Char.toLower) then none else some value

/-- A text that is set for a pattern and is none. -/
structure InvalidPattern where
  text : Text
  deriving DecidableEq, Repr

/-- The settings with those of the file laid over them. -/
def apply [Dialect] (f : SettingsFile) (s : Settings) : Except InvalidPattern Settings :=
  let s := match f.logsRoot with
    | some root => s.withRoot root
    | none => s
  let s := { s with
    serialPath := f.serial.getD s.serialPath
    strictness := f.strictness.getD s.strictness
    fabricLayout := f.fabricLayout.getD s.fabricLayout
    legacyBoards := f.legacyBoards.getD s.legacyBoards
    criticalTags := f.criticalTags.getD s.criticalTags
    owner := match f.owner with
      | some value => ownerOf value
      | none => s.owner }
  match f.skipPattern with
  | none => .ok s
  | some text =>
      match WrittenPattern.ofText? text with
      | some removable => .ok { s with removable }
      | none => .error ⟨text⟩

end SettingsFile

end CrashDigest
