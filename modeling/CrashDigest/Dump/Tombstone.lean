import CrashDigest.Fields
import CrashDigest.Probe
import CrashDigest.Slot
import CrashDigest.Text.Blank
import CrashDigest.Text.Digit

/-!
# Tombstones

A tombstone is what is left of a native process: its name, the build, the
signal that ended it with the address at fault, an abort message if there was
one, and the stack. Signal and frames are looked for near the fingerprint of
the build only, in a window of lines that starts anew with each fingerprint:
five lines for the signal, fifteen for the stack and the abort message.

A frame gives its symbol or, without one, its library. The stack is written as
symbols if any frame has one, else as libraries, with a column for every frame.
-/

namespace CrashDigest.Tombstone

/-! ## Windows -/

/-- The lines behind the latest anchor. -/
structure Window where
  active : Bool
  seen : Nat
  deriving DecidableEq, Repr

namespace Window

/-- No anchor has come. -/
def closed : Window := ⟨false, 0⟩

/-- The window that starts at this line, if the line is an anchor. -/
def anchor (w : Window) (isAnchor : Bool) : Window :=
  if isAnchor then ⟨true, 0⟩ else w

/-- Whether one more line falls into the window. -/
def admits (size : Nat) (w : Window) : Bool :=
  w.active && w.seen < size

/-- The window after one more line. -/
def advance (size : Nat) (w : Window) : Window :=
  if w.admits size then { w with seen := w.seen + 1 } else { w with active := false }

end Window

/-! ## The stack -/

/-- The symbol of a frame: what stands in its parentheses. -/
def symbolOf (frame : Text) : Option Text :=
  (Token.nth Token.openParen 1 frame).bind (Token.nth Token.closeParen 0)

/-- The library of a frame: its fourth word. -/
def libraryOf (frame : Text) : Option Text :=
  Token.nthCollapsed Token.spaces 3 frame

/-- The stack in its two forms, side by side. -/
structure Backtrace where
  symbols : Text
  libraries : Text
  frames : Nat
  hasSymbols : Bool
  deriving DecidableEq, Repr

namespace Backtrace

def empty : Backtrace := ⟨[], [], 0, false⟩

/-- What separates a frame from the ones before it. -/
def gap (b : Backtrace) : Text :=
  if b.frames = 0 then [] else [' ']

/-- One more frame. Once a frame has a symbol the libraries are not needed. -/
def push (b : Backtrace) (frame : Text) : Backtrace :=
  match symbolOf frame with
  | some symbol =>
      { b with
        symbols := b.symbols ++ b.gap ++ symbol
        frames := b.frames + 1
        hasSymbols := true }
  | none =>
      { b with
        symbols := b.symbols ++ b.gap
        libraries := b.libraries ++ b.gap ++ (libraryOf frame).getD []
        frames := b.frames + 1 }

/-- The stack as it is written. -/
def render (b : Backtrace) : Text :=
  if b.hasSymbols then b.symbols else b.libraries

end Backtrace

/-! ## The scan -/

/-- The process, in its angle brackets. -/
def processLine : Probe := ⟨.lineWith ">>>", .token (.word ">>>") 1⟩

/-- The signal and what follows it, from its parenthesis on. -/
def signalLine : Probe := ⟨.lineWith "signal", .token Token.openParen 1⟩

/-- The message of an abort. -/
def abortMessage : Probe := ⟨.lineStarting "Abort message:", .token Token.colon 1⟩

/-- Whether a line has the fingerprint of the build. -/
def isFingerprint (line : Text) : Bool := line.includes "Build fingerprint"

/-- The process of a line. -/
def processOn (line : Text) : Option Text :=
  (processLine.read line).bind (Token.nth Token.lessThan 0)

/-- The signal of a line. -/
def signalOn (line : Text) : Option Text :=
  (signalLine.read line).bind (Token.nth Token.closeParen 0)

/-- Whether a text is a hexadecimal number, with or without its `0x`. -/
def isHexNumber (s : Text) : Bool :=
  let digits := if s.startsWith "0x" then s.drop 2 else s
  !digits.isEmpty && digits.all isHexDigit

/-- The address at fault on a line, or nothing if it is no number. -/
def faultAddressOn (line : Text) : Text :=
  match Token.nth (.word "fault addr ") 1 line with
  | some address => if isHexNumber address then address else []
  | none => []

/-- Whether a line has a frame's number, which has two digits of which the first is 0. -/
def isFrame : Text → Bool
  | '#' :: '0' :: d :: rest => ('0' ≤ d && d ≤ '7') || isFrame ('0' :: d :: rest)
  | _ :: rest => isFrame rest
  | [] => false

/-- How many lines behind a fingerprint may give the signal. -/
def signalWindow : Nat := 5

/-- How many lines behind a fingerprint may give frames. -/
def stackWindow : Nat := 15

/-- How many frames are kept. -/
def frameBudget : Nat := 8

/-- The scan between two lines. -/
structure Scan where
  process : Slot
  signal : Slot
  faultAddress : Text
  nearSignal : Window
  nearStack : Window
  backtrace : Backtrace
  abort : Slot
  deriving DecidableEq, Repr

namespace Scan

def initial : Scan := ⟨.first, .first, [], .closed, .closed, .empty, .first⟩

/-- Take the signal, and the address at fault from the same line. -/
def takeSignal (s : Scan) (line : Text) : Scan :=
  if s.signal.isOpen then
    let window := s.nearSignal.anchor (isFingerprint line)
    let candidate := if window.admits signalWindow then signalOn line else none
    { s with
      nearSignal := window.advance signalWindow
      signal := s.signal.offer candidate
      faultAddress := if s.signal.takes candidate then faultAddressOn line else s.faultAddress }
  else s

/-- Take a frame. -/
def takeFrame (s : Scan) (line : Text) : Scan :=
  if s.backtrace.frames < frameBudget then
    let window := s.nearStack.anchor (isFingerprint line)
    { s with
      nearStack := window.advance stackWindow
      backtrace :=
        if window.admits stackWindow && isFrame line then s.backtrace.push line else s.backtrace }
  else s

/-- Take the abort message, near the stack only. -/
def takeAbort (s : Scan) (line : Text) : Scan :=
  if s.nearStack.active then { s with abort := s.abort.offer (abortMessage.read line) } else s

/-- One line. -/
def step (s : Scan) (line : Text) : Scan :=
  (({ s with process := s.process.offer (processOn line) }.takeSignal
    line).takeFrame line).takeAbort line

end Scan

/-- What a tombstone holds. -/
structure Summary where
  process : Text
  signal : Text
  backtrace : Text
  faultAddress : Text
  deriving DecidableEq, Repr

/-- The stack, behind the abort message if there is one. -/
def withAbort (abort : Option Text) (backtrace : Text) : Text :=
  match abort with
  | some message => message ++ (" - " : Text) ++ backtrace
  | none => backtrace

/-- What the scan has found at the end. -/
def Scan.summary (s : Scan) : Summary :=
  ⟨s.process.text.trim, s.signal.text, withAbort s.abort.value s.backtrace.render, s.faultAddress⟩

/-- The summary of a tombstone. -/
def scan (lines : List Text) : Summary :=
  (lines.foldl Scan.step .initial).summary

/-- The fields of a tombstone. -/
def fields (s : Summary) : Fields :=
  .ofList
    [(.data 0, s.process), (.data 1, s.signal), (.data 2, s.backtrace), (.data 3, s.faultAddress)]

end CrashDigest.Tombstone
