import CrashDigest.Dump.JavaCrash

/-!
# Traces of processes that do not answer

Three reports of the dropbox share a header with the process and its subject.
The report of a failed assertion has no more. The watchdog's report goes on
with stacks, of which the first eight frames are kept wherever they stand. The
trace of an application that does not answer shows the stacks of many
processes: the frames that count follow the header of the main thread, once a
command line has confirmed that this is the process.
-/

namespace CrashDigest.Trace

/-- A frame of a thread. -/
def threadFrame : Probe := ⟨.lineStarting "  at", .token (.word "at ") 1⟩

/-- The load of the processors, as far as it stands before the word `TOTAL`. -/
def cpuTotal : Probe := ⟨.lineWith "TOTAL", .token (.word "TOTAL") 0⟩

/-- How many frames are kept. -/
def frameBudget : Nat := 8

/-- The frames after one more line. -/
def takeFrame (frames : List Text) (line : Text) : List Text :=
  if frames.length < frameBudget then frames ++ (methodOf threadFrame line).toList else frames

/-- The slots of the header. -/
structure Header where
  process : Slot
  subject : Slot
  deriving DecidableEq, Repr

namespace Header

def initial : Header := ⟨.first, .first⟩

/-- One line. -/
def step (h : Header) (line : Text) : Header :=
  ⟨h.process.offer (processLine.read line), h.subject.offer (subjectLine.read line)⟩

end Header

/-- What a report holds. -/
structure Report where
  process : Text
  subject : Text
  frames : Text
  deriving DecidableEq, Repr

/-- The report with a header and some frames. -/
def Report.of (h : Header) (frames : List Text) : Report :=
  ⟨h.process.text, h.subject.text, Text.join " " frames⟩

/-! ## Assertions -/

/-- The header alone. -/
def scanHeader (lines : List Text) : Report :=
  .of (lines.foldl Header.step .initial) []

/-! ## Watchdog -/

/-- The scan of a watchdog's report, between two lines. -/
structure WatchdogScan where
  header : Header
  frames : List Text
  deriving DecidableEq, Repr

namespace WatchdogScan

def initial : WatchdogScan := ⟨.initial, []⟩

/-- One line. -/
def step (s : WatchdogScan) (line : Text) : WatchdogScan :=
  ⟨s.header.step line, takeFrame s.frames line⟩

end WatchdogScan

/-- The header and the first frames. -/
def scanWatchdog (lines : List Text) : Report :=
  let s := lines.foldl WatchdogScan.step .initial
  .of s.header s.frames

/-! ## Applications that do not answer -/

/-- How far the scan of a trace has come. -/
inductive Phase where
  /-- Looking for the command line of the process. -/
  | seekingProcess
  /-- Looking for the header of its main thread. -/
  | seekingMain
  /-- Taking frames. -/
  | inMain
  deriving DecidableEq, Repr

/-- Whether a line is a command line that names the process. -/
def confirms (process : Text) (line : Text) : Bool :=
  line.startsWith "Cmd line:" && line.includes process

/-- Whether a line is the header of a main thread. -/
def opensMain (line : Text) : Bool :=
  line.startsWith "\"main\" prio"

/-- The scan of a trace, between two lines. -/
structure AnrScan where
  header : Header
  cpu : Slot
  phase : Phase
  frames : List Text
  deriving DecidableEq, Repr

namespace AnrScan

def initial : AnrScan := ⟨.initial, .first, .seekingProcess, []⟩

/-- The phase after a line, when `process` is what is known of the process by then. -/
def nextPhase (phase : Phase) (process line : Text) : Phase :=
  match phase with
  | .seekingProcess => if confirms process line then .seekingMain else .seekingProcess
  | .seekingMain => if opensMain line then .inMain else .seekingMain
  | .inMain => .inMain

/-- One line. A line that moves the scan on is no frame. -/
def step (s : AnrScan) (line : Text) : AnrScan :=
  let header := s.header.step line
  { header
    cpu := s.cpu.offer (cpuTotal.read line)
    phase := nextPhase s.phase header.process.text line
    frames := if s.phase = .inMain then takeFrame s.frames line else s.frames }

end AnrScan

/-- What the trace of an application that does not answer holds. -/
structure AnrReport where
  report : Report
  cpu : Text
  deriving DecidableEq, Repr

/-- The header, the frames of the main thread, and the load. -/
def scanAnr (lines : List Text) : AnrReport :=
  let s := lines.foldl AnrScan.step .initial
  ⟨.of s.header s.frames, s.cpu.text⟩

/-! ## Fields -/

/-- The fields of a failed assertion. -/
def assertionFields (r : Report) : Fields :=
  .ofList [(.data 0, r.process), (.data 1, r.subject)]

/-- The fields of a watchdog's report. -/
def watchdogFields (r : Report) : Fields :=
  .ofList [(.data 0, r.process), (.data 1, r.subject), (.data 2, r.frames)]

/-- The fields of a trace. -/
def anrFields (r : AnrReport) : Fields :=
  (watchdogFields r.report).set (.data 3) (("cpu:" : Text) ++ r.cpu)

end CrashDigest.Trace
