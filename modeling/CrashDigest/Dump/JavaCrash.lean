import CrashDigest.Dump.Address
import CrashDigest.Fields
import CrashDigest.Probe
import CrashDigest.Slot
import CrashDigest.Text.Blank

/-!
# Java crashes

A report of an uncaught exception names the process, and shows the exception
with its frames and then, for each exception behind it, a `Caused by:` line
with frames of its own. One pass keeps the process, the last cause, the first
four frames, and the line right before the first of them, which is the
exception itself.
-/

namespace CrashDigest

/-- What a dropbox report says of its process. -/
def processLine : Probe := ⟨.lineWith "Process:", .token Token.colon 1⟩

/-- What a dropbox report says of its subject. -/
def subjectLine : Probe := ⟨.lineWith "Subject:", .token Token.colon 1⟩

/-- The method of a frame: what the probe reads, up to the parenthesis with the source file. -/
def methodOf (frame : Probe) (line : Text) : Option Text :=
  (frame.read line).bind (Token.nth Token.openParen 0)

/-- Who reports a Java crash. -/
inductive JavaCrashKind where
  | app
  | systemServer
  /-- The crash of a native library inside an application. -/
  | appNative
  deriving DecidableEq, Repr

namespace JavaCrash

/-- The cause, with all its colons. -/
def causedBy : Probe := ⟨.lineStarting "Caused by:", .onward Token.colon 1⟩

/-- A frame. -/
def frame : Probe := ⟨.lineWith "at ", .token (.word "at ") 1⟩

/-- How many frames are kept. -/
def frameBudget : Nat := 4

/-- The scan between two lines. -/
structure Scan where
  process : Slot
  cause : Slot
  exception : Text
  frames : List Text
  /-- The line before this one. -/
  previous : Text
  deriving DecidableEq, Repr

namespace Scan

def initial : Scan := ⟨.first, .last, [], [], []⟩

/-- Take a frame, and with the first one the line before it. -/
def takeFrame (s : Scan) (line : Text) : Scan :=
  if s.frames.length < frameBudget then
    match methodOf frame line with
    | none => s
    | some method =>
        { s with
          exception := if s.frames = [] then s.previous else s.exception
          frames := s.frames ++ [method] }
  else s

/-- One line. -/
def step (s : Scan) (line : Text) : Scan :=
  let s := { s with
    process := s.process.offer (processLine.read line)
    cause := s.cause.offer (causedBy.read line) }
  { s.takeFrame line with previous := line }

end Scan

/-- What a report holds. -/
structure Report where
  process : Text
  /-- The message of the last cause. -/
  causedBy : Text
  /-- The line before the first frame. -/
  exception : Text
  frames : Text
  deriving DecidableEq, Repr

/-- The report at the end of the scan. -/
def Scan.report (s : Scan) : Report :=
  ⟨s.process.text, s.cause.text, s.exception, Text.join " " s.frames⟩

/-- The report that the lines hold. -/
def scan (lines : List Text) : Report :=
  (lines.foldl Scan.step .initial).report

/-- The exception for a message that was too large. -/
def transactionTooLarge : Text := "android.os.TransactionTooLargeException"

/-- How its message begins when it gives the size. -/
def transactionSize : Text := transactionTooLarge ++ (": data parcel size" : Text)

/-- The exception without its addresses: the cause or, without one, the first line. -/
def Report.summary (r : Report) : Text :=
  Address.strip (if r.causedBy = [] then r.exception else r.causedBy)

/-- The fields for the summary. A size that changes from crash to crash goes to a field of its
own. -/
def summaryFields (kind : JavaCrashKind) (summary : Text) : List (FieldKey × Text) :=
  if kind = .appNative then [(.data 1, ("app_native_crash" : Text) ++ summary)]
  else if summary.trim.startsWith transactionSize then
    [(.data 1, transactionTooLarge),
     (.data 3, summary.trim.drop (transactionTooLarge.length + 2))]
  else [(.data 1, summary)]

/-- The fields of a report. -/
def fields (kind : JavaCrashKind) (r : Report) : Fields :=
  .ofList ((.data 0, Address.strip r.process) :: summaryFields kind r.summary
    ++ [(.data 2, Address.strip r.frames)])

end JavaCrash

end CrashDigest
