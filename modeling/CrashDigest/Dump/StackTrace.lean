import CrashDigest.Dump.KernelFrame
import CrashDigest.Probe
import CrashDigest.Text.Lines

/-!
# Stack traces of soft lockups

A console reports a soft lockup under a banner. Behind the banner the trace
reader takes two things at once: the first instruction pointer, written with a
dash behind it, and the frames of the call trace, each with a space before it.
An unsure frame leaves its space and counts. With the eighth frame the reader
stops, so nothing behind it matters, not even that the file cannot be read.
-/

namespace CrashDigest

/-- The two kinds of soft lockup, by the banner that reports them. -/
inductive Banner where
  /-- A processor waits for another one that does not answer. -/
  | ipi
  /-- A processor is stuck. -/
  | soft
  deriving DecidableEq, Repr

namespace Banner

/-- The words of the banner, which stand on its line in turn. -/
def words : Banner → List Text
  | .ipi => ["BUG: ", "waiting for CSD lock"]
  | .soft => ["BUG: soft lockup"]

/-- Whether a line is the banner. -/
def isOn (b : Banner) (line : Text) : Bool :=
  line.includesInTurn b.words

end Banner

namespace StackTrace

/-- The instruction pointer on a 32-bit machine. -/
def pointer32 : Probe :=
  ⟨.lineFrom "EIP:", .token Token.space 2⟩

/-- The instruction pointer on a 64-bit machine. -/
def pointer64 : Probe :=
  ⟨.lineThrough "RIP: " ["[", "ffffffff", "]"], .token Token.frameEnd 2⟩

/-- The instruction pointer on a line, if there is one. -/
def pointerOn (line : Text) : Option Text :=
  (pointer32.read line).or (pointer64.read line)

/-- How many frames are kept. -/
def frameBudget : Nat := 8

/-- The reader between two lines. -/
structure Reader where
  text : Text
  bannerSeen : Bool
  pointerSeen : Bool
  inTrace : Bool
  frames : Nat
  deriving DecidableEq, Repr

namespace Reader

/-- A reader that has seen nothing. -/
def initial : Reader := ⟨[], false, false, false, 0⟩

/-- Whether all the frames are there. -/
def isDone (r : Reader) : Bool := frameBudget ≤ r.frames

/-- Take the pointer of a line, unless there is one already. -/
def takePointer (r : Reader) (line : Text) : Reader :=
  if r.pointerSeen then r
  else
    match pointerOn line with
    | none => r
    | some pointer => { r with text := r.text ++ pointer ++ (" - " : Text), pointerSeen := true }

/-- Take the frame of a line, if the call trace has begun. -/
def takeFrame (r : Reader) (line : Text) : Reader :=
  if line.includes "Call Trace:" then { r with inTrace := true }
  else if r.inTrace then
    { r with text := r.text ++ ' ' :: KernelFrame.functionOf line, frames := r.frames + 1 }
  else r

/-- One line. -/
def step (banner : Banner) (r : Reader) (line : Text) : Reader :=
  if r.bannerSeen then (r.takePointer line).takeFrame line
  else { r with bannerSeen := banner.isOn line }

/-- The lines in turn, until all the frames are there. -/
def run (banner : Banner) (r : Reader) : List Text → Reader
  | [] => r
  | line :: lines => if r.isDone then r else run banner (r.step banner line) lines

end Reader

/-- The trace that the lines hold. -/
def ofLines (banner : Banner) (lines : List Text) : Text :=
  (Reader.initial.run banner lines).text

/-- The trace that a file holds. A failure behind the last frame does not count. -/
def ofStream {ε : Type} (banner : Banner) (s : Lines.Stream ε) : Except ε Text :=
  let r := Reader.initial.run banner s.lines
  if r.isDone then .ok r.text
  else s.readAll fun _ => r.text

end StackTrace

end CrashDigest
