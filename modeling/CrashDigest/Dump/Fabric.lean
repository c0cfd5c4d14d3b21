import CrashDigest.Fields
import CrashDigest.Probe
import CrashDigest.Slot

/-!
# Fabric dumps

The system bus writes a dump of its errors in one of two layouts. The flat one
is a list of decoded error lines or, after an expired hardware watchdog, of
registers; a few of its lines become fields. The other one has titled sections,
of which the first data lines are kept; the summary ends where the error log
begins.
-/

namespace CrashDigest.Fabric

/-! ## The flat layout -/

/-- Whether a line says that the hardware watchdog has expired. -/
def saysExpired (line : Text) : Bool :=
  line.includes "HW WDT expired"

/-- The registers that are kept after an expired watchdog, as their lines name them. -/
def keptRegisters : List Text := ["DW0:", "DW1:", "DW11:"]

/-- The slots of the kept registers, after one more line. -/
def offerRegisters (slots : List Slot) (line : Text) : List Slot :=
  slots.zipWith (fun slot register => slot.offer ((Piece.lineWith register).of line)) keptRegisters

/-- The first lines of the kept registers. -/
def scanRegisters (lines : List Text) : Fields :=
  let slots := lines.foldl offerRegisters (keptRegisters.map fun _ => .first)
  .ofList (([.data 0, .data 1, .data 2] : List FieldKey).zip (slots.map Slot.text))

/-- The characters of which an error line has at least one. -/
def errorMarks : Text := "eroi|:"

/-- The words that a line of another purpose contains. -/
def otherPurposes : List Text := ["Fabric Error", "summary", "Additional", "Decoded"]

/-- Whether a line is a decoded error. -/
def isErrorLine (line : Text) : Bool :=
  line.any errorMarks.contains && !otherPurposes.any line.includes

/-- How many error lines are kept in detail, after the first two. -/
def detailLines : Nat := 4

/-- The scan for error lines, between two lines. -/
structure ErrorScan where
  /-- The first error up to its bracket. -/
  headline : Slot
  /-- The error lines, the latest first. -/
  errors : List Text
  deriving DecidableEq, Repr

namespace ErrorScan

def initial : ErrorScan := ⟨.first, []⟩

/-- One line. -/
def step (s : ErrorScan) (line : Text) : ErrorScan :=
  if isErrorLine line then
    ⟨s.headline.offer (Token.nth Token.openBracket 0 line), line :: s.errors⟩
  else s

/-- The second error, or the only one. -/
def second : List Text → Text
  | [] => []
  | [only] => only
  | _ :: second :: _ => second

/-- The fields at the end. -/
def fields (s : ErrorScan) : Fields :=
  let errors := s.errors.reverse
  .ofList
    [(.data 0, s.headline.text),
     (.data 1, (Token.nth Token.openParen 0 (second errors)).getD []),
     (.data 2, Text.join " " ((errors.drop 2).take detailLines))]

end ErrorScan

/-- The first error lines. -/
def scanErrors (lines : List Text) : Fields :=
  (lines.foldl ErrorScan.step .initial).fields

/-- The fields of a dump in the flat layout: registers if the watchdog expired, errors if not. -/
def scanFlat (expired : Bool) (lines : List Text) : Fields :=
  if expired then scanRegisters lines else scanErrors lines

/-- The fields of a dump in the flat layout, which tells itself whether the watchdog expired. -/
def scanLegacy (lines : List Text) : Fields :=
  scanFlat (lines.any saysExpired) lines

/-! ## The layout with sections -/

/-- Whether a line has content: it is no bullet, no rule and not blank. -/
def isDataLine (line : Text) : Bool :=
  !line.startsWith "* " && !line.startsWith "---------" && !line.isBlankText

/-- How many lines of a section are kept. -/
def sectionLines : Nat := 4

/-- How far a section has been read. -/
inductive Progress where
  | seeking
  | capturing
  | done
  deriving DecidableEq, Repr

/-- A section with the title that starts it. -/
structure Section where
  title : Text
  progress : Progress
  lines : List Text
  deriving DecidableEq, Repr

namespace Section

/-- A section whose title has not come yet. -/
def titled (title : Text) : Section := ⟨title, .seeking, []⟩

/-- Whether the title has come. -/
def started (s : Section) : Bool := s.progress ≠ .seeking

/-- The section, which takes no more lines. -/
def close (s : Section) : Section := { s with progress := .done }

/-- Whether all its lines are there. -/
def isFull (s : Section) : Bool := sectionLines ≤ s.lines.length

/-- One line: the title opens the section, and a data line is kept while there is room. -/
def feed (s : Section) (line : Text) : Section :=
  match s.progress with
  | .seeking => if line.includes s.title then { s with progress := .capturing, lines := [] } else s
  | .capturing =>
      if !isDataLine line then s
      else if s.isFull then s.close
      else { s with lines := s.lines ++ [line] }
  | .done => s

end Section

/-- Whether a line shows one of the registers that a watchdog of the controller reports. -/
def isControllerRegister (line : Text) : Bool :=
  line.startsWith "DW4:" || line.startsWith "DW19:"

/-- The length that the dump gives itself. -/
def dumpLength : Probe :=
  ⟨.lineWith "Length of fabric error file:", .token Token.colon 1⟩

/-- Stands between two lines of a field. -/
def lineGlue : Text := " / "

/-- The scan between two lines. -/
structure SectionScan where
  summary : Section
  hole : Section
  errorLog : Section
  registers : Text
  length : Slot
  deriving DecidableEq, Repr

namespace SectionScan

def initial : SectionScan where
  summary := .titled "Summary of Fabric Error detail:"
  hole := .titled "Address Hole"
  errorLog := .titled "ERROR LOG"
  registers := []
  length := .first

/-- The summary after one more line. It is closed when the error log has begun before, and when
it is full. -/
def feedSummary (summary errorLog : Section) (line : Text) : Section :=
  let current :=
    if summary.progress = .capturing && errorLog.started then summary.close else summary
  let fed := current.feed line
  if fed.isFull then fed.close else fed

/-- One line. -/
def step (controller : Bool) (s : SectionScan) (line : Text) : SectionScan where
  summary := feedSummary s.summary s.errorLog line
  hole := s.hole.feed line
  errorLog := s.errorLog.feed line
  registers :=
    if controller && isControllerRegister line then s.registers ++ line ++ lineGlue
    else s.registers
  length := s.length.offer (dumpLength.read line)

/-- The detail: the registers for a watchdog of the controller, else the address hole if there is
one, else the error log. -/
def detail (controller : Bool) (s : SectionScan) : Text :=
  if controller then s.registers
  else if s.hole.lines.isEmpty then Text.join lineGlue s.errorLog.lines
  else ("Address hole : " : Text) ++ Text.join lineGlue s.hole.lines

/-- The fields at the end. -/
def fields (controller : Bool) (s : SectionScan) : Fields :=
  .ofList
    [(.data 0, Text.join lineGlue (s.summary.lines.take 2)),
     (.data 1, Text.join lineGlue (s.summary.lines.drop 2)),
     (.data 2, s.detail controller),
     (.data 4, s.length.text)]

end SectionScan

/-- The fields of a dump with sections; `controller` for a watchdog of the controller. -/
def scanSectioned (controller : Bool) (lines : List Text) : Fields :=
  (lines.foldl (SectionScan.step controller) .initial).fields controller

end CrashDigest.Fabric
