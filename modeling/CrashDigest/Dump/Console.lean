import CrashDigest.Dump.StackTrace
import CrashDigest.Fields
import CrashDigest.Slot

/-!
# Kernel consoles

A console is the kernel's log up to its panic. One pass takes three things from
it: the instruction pointer of the fault, the name of the thread that was
running, and the message of the panic. A thread is named again and again; the
name that counts is the first one behind the pointer or the panic, unless the
pointer comes right after a candidate, which is then kept.

A panic for a hard lockup is followed by the stack of the processor that was
interrupted; the pass keeps its first four frames. For a soft lockup the stack
is under a banner of its own, and is read in a second pass.
-/

namespace CrashDigest.Console

/-- The pointer on a 32-bit machine, among the registers. -/
def pointer32 : Probe :=
  ⟨.span "EIP:" "SS:ESP", .token Token.space 2⟩

/-- The pointer on a 64-bit machine. -/
def pointer64 : Probe :=
  ⟨.lineThrough "RIP  [" ["ffffffff", "]"], .token Token.space 3⟩

/-- The name of a thread. -/
def threadName : Probe :=
  ⟨.lineFromAny ["comm: ", "Comm: "], .token Token.space 1⟩

/-- The message of a panic. -/
def panicMessage : Probe :=
  ⟨.lineFrom "Kernel panic - not syncing: ", .token Token.colon 1⟩

/-- How many frames of a hard lockup are kept. -/
def frameBudget : Nat := 4

/-- The scan between two lines. -/
structure Scan where
  instruction : Slot
  /-- Whether the line before this one mentions the register of the pointer. -/
  behindRip : Bool
  comm : Text
  /-- Whether the name may still become that of the faulting thread when the pointer comes. -/
  commWaits : Bool
  /-- Whether the name is final. -/
  commClosed : Bool
  panic : Slot
  hardLockup : Bool
  /-- Whether the stack of the interrupted processor has begun. -/
  stackBegun : Bool
  frames : Text
  frameCount : Nat
  deriving DecidableEq, Repr

namespace Scan

/-- Nothing seen yet. -/
def initial : Scan where
  instruction := .first
  behindRip := false
  comm := []
  commWaits := false
  commClosed := false
  panic := .first
  hardLockup := false
  stackBegun := false
  frames := []
  frameCount := 0

/-- The pointer that a line gives: in one of its two forms, or in the brackets of a line that
follows a mention of the register. -/
def pointerOn (behindRip : Bool) (line : Text) : Option Text :=
  ((pointer32.read line).or (pointer64.read line)).or
    (if behindRip then Token.nth Token.frameEnd 1 line else none)

/-- Take the pointer. A name that waits for it is final. -/
def takePointer (s : Scan) (line : Text) : Scan :=
  if s.instruction.isOpen then
    let candidate := pointerOn s.behindRip line
    { s with
      instruction := s.instruction.offer candidate
      commClosed := s.commClosed || (s.instruction.takes candidate && s.commWaits)
      behindRip := line.includes "RIP" }
  else s

/-- Take a name. Behind the pointer or the panic it is final. -/
def takeName (s : Scan) (line : Text) : Scan :=
  if s.commClosed then s
  else
    match threadName.read line with
    | none => s
    | some name =>
        if s.instruction.isFound || s.panic.isFound then { s with comm := name, commClosed := true }
        else { s with comm := name, commWaits := true }

/-- Take the panic, and whether it is for a hard lockup. -/
def takePanic (s : Scan) (line : Text) : Scan :=
  let candidate := panicMessage.read line
  if s.panic.takes candidate then
    { s with panic := s.panic.offer candidate, hardLockup := line.includes "hard LOCKUP" }
  else s

/-- Take a frame of a hard lockup, once its stack has begun. -/
def takeFrame (s : Scan) (line : Text) : Scan :=
  if !s.hardLockup then s
  else if !s.stackBegun then { s with stackBegun := line.includes "nmi_stack_correct" }
  else if s.frameCount < frameBudget then
    match KernelFrame.functionOf line with
    | [] => s
    | function => { s with frames := s.frames ++ function, frameCount := s.frameCount + 1 }
  else s

/-- One line. -/
def step (s : Scan) (line : Text) : Scan :=
  (((s.takePointer line).takeName line).takePanic line).takeFrame line

end Scan

/-- What one pass over a console gives. -/
structure Summary where
  instruction : Text
  comm : Text
  panic : Text
  /-- The frames of a hard lockup, if that is what it was. -/
  lockupFrames : Option Text
  deriving DecidableEq, Repr

/-- Whether the panic is for a soft lockup. -/
def Summary.isSoftLockup (s : Summary) : Bool :=
  s.panic.includes "softlockup"

/-- The text before the first separator, or all of it if nothing stands there. -/
def headOr (sep : Separator) (text : Text) : Text :=
  match Token.nth sep 0 text with
  | none => text
  | some [] => text
  | some head => head

/-- The name without the number of the processor; a fault in an interrupt belongs to no thread. -/
def finalName (comm panic : Text) : Text :=
  if panic.includes "Fatal exception in interrupt" then []
  else if comm.includes "/" then headOr Token.slash comm
  else comm

/-- The message of the panic; that of a hard lockup ends before the processor's number. -/
def finalPanic (hardLockup : Bool) (panic : Text) : Text :=
  if hardLockup then headOr (.word " on cpu") panic else panic

/-- What the scan has found at the end. -/
def Scan.summary (s : Scan) : Summary where
  instruction := s.instruction.text
  comm := finalName s.comm s.panic.text
  panic := finalPanic s.hardLockup s.panic.text
  lockupFrames := if s.hardLockup then some s.frames else none

/-- The summary of a console. -/
def scan (lines : List Text) : Summary :=
  (lines.foldl Scan.step Scan.initial).summary

/-- The stack of a soft lockup: the first kind if it is there, else the second. -/
def softLockupStack {ε : Type} (s : Lines.Stream ε) : Except ε Text :=
  match StackTrace.ofStream .ipi s with
  | .ok [] => StackTrace.ofStream .soft s
  | other => other

/-- The stack that a console shows, if it is for a lockup. -/
def lockupStack {ε : Type} (summary : Summary) (s : Lines.Stream ε) : Except ε Text :=
  match summary.lockupFrames with
  | some frames => .ok frames
  | none => if summary.isSoftLockup then softLockupStack s else .ok []

/-- Which memory a console was kept in, by its file name. -/
def memory? (fileName : Text) : Option Text :=
  if fileName.includes "emmc_ipanic_console" then some "emmc"
  else if fileName.includes "ram_ipanic_console" then some "ram"
  else none

/-- The fields of a console: the stack or else the pointer, the thread, the panic, and the memory
if the name tells it. -/
def fields {ε : Type} (fileName : Text) (s : Lines.Stream ε) : Except ε Fields := do
  let summary ← s.readAll scan
  let stack ← lockupStack summary s
  let signature := if stack = [] then summary.instruction else stack
  let found := Fields.ofList
    [(.data 0, signature), (.data 1, summary.comm), (.data 2, summary.panic)]
  pure (match memory? fileName with
    | some memory => found.set (.data 3) memory
    | none => found)

/-- Whether the fields tell anything: a signature or a panic. -/
def hasSignature (f : Fields) : Bool :=
  let filled (key : FieldKey) : Bool := (f.get? key).any fun value => !value.isEmpty
  filled (.data 0) || filled (.data 2)

end CrashDigest.Console
