import CrashDigest.Fields
import CrashDigest.Text.Utf8

/-!
# Crash records

A record is a text of lines `KEY=value`: eleven for the event, one for each
field, two for the outcome, and the line `_END`, which says that the record is
whole. A record that is given up before its outcome is known still gets its
last line.
-/

namespace CrashDigest

/-- What is known of an event before its artifacts are read. -/
structure RecordHeader where
  id : Text
  serial : Text
  date : Text
  uptime : Text
  build : Text
  board : Text
  imei : Text
  /-- The plain tag. -/
  tag : Text
  dataReady : Bool
  operator : Text
  deriving DecidableEq, Repr

namespace Record

/-- The name of the file that holds the record. -/
def fileName : Text := "crashfile"

/-- Stands in the last line. -/
def endMark : Text := "_END"

/-- A line of the record. -/
def line (key value : Text) : Text :=
  key ++ '=' :: value ++ ['\n']

/-- The lines for the event. -/
def headerLines (h : RecordHeader) : List (Text × Text) :=
  [("EVENT", "CRASH"), ("ID", h.id), ("SN", h.serial), ("DATE", h.date), ("UPTIME", h.uptime),
   ("BUILD", h.build), ("BOARD", h.board), ("IMEI", h.imei), ("TYPE", h.tag),
   ("DATA_READY", if h.dataReady then "1" else "0"), ("OPERATOR", h.operator)]

/-- A record that is being written: its text so far. -/
structure Draft where
  text : Text
  deriving DecidableEq, Repr

namespace Draft

/-- One more line. -/
def add (d : Draft) (key value : Text) : Draft :=
  ⟨d.text ++ line key value⟩

/-- A new record, with the lines for the event. -/
def create (h : RecordHeader) : Draft :=
  (headerLines h).foldl (fun d (key, value) => d.add key value) ⟨[]⟩

/-- One more field. -/
def field (d : Draft) (key : FieldKey) (value : Text) : Draft :=
  d.add key.name value

/-- More fields, in their order. -/
def fields (d : Draft) (f : Fields) : Draft :=
  f.entries.foldl (fun d (key, value) => d.field key value) d

/-- The text of the record when it is given up. -/
def abandon (d : Draft) : Text :=
  d.text ++ endMark ++ ['\n']

/-- The text of the record with its outcome. -/
def finish (d : Draft) (critical : Bool) : Text :=
  ((d.add "CRITICAL" (if critical then "YES" else "NO")).add "PARSER" "LEGACY_PARSER").abandon

end Draft

end Record

end CrashDigest
