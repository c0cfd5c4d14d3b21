import CrashDigest.CommandLine

/-!
# The program

A whole run as one function: from the arguments, the environment and the files
to what is printed, the status, the files afterwards, and the change of owner
that the system is asked for.
-/

namespace CrashDigest.Program

/-- The program's name. -/
def name : Text := "crashparse"

/-- The program's name and version. -/
def version : Text := name ++ (" 0.4.2\n" : Text)

/-- How the program is called. -/
def usage : Text :=
  ("Usage: " : Text) ++ name ++ (" [OPTIONS] --tag <TAG> <DIR>\n" : Text)

/-- What a run leaves behind. -/
structure Result where
  stdout : Text
  stderr : Text
  status : Nat
  files : FileTree
  handover : Option Handover
  deriving DecidableEq, Repr

/-- A line for the user about a failure. -/
def complaint (message : Text) : Text :=
  name ++ (": " : Text) ++ message ++ ['\n']

/-- A run whose arguments ask for none. -/
def refuse (files : FileTree) : UsageError → Result
  | .helpWanted => ⟨usage, [], 0, files, none⟩
  | .versionWanted => ⟨version, [], 0, files, none⟩
  | _ => ⟨[], usage, 2, files, none⟩

/-- A run of the engine, reported as the command line asks. -/
def report (json : Bool) (handover : Option Handover) :
    Except ParseError Outcome × FileTree → Result
  | (.ok o, files) => ⟨if json then o.toJson.pretty ++ ['\n'] else [], [], 0, files, handover⟩
  | (.error e, files) => ⟨[], complaint e.message, e.exitCode, files, handover⟩

/-- The run for the arguments. -/
def run [Dialect] (arguments : List Text) (env : Environment) (files : FileTree) : Result :=
  match CommandLine.parse arguments with
  | .error e => refuse files e
  | .ok invocation =>
      match invocation.settings env files with
      | .error e => ⟨[], complaint e.chain, 2, files, none⟩
      | .ok settings =>
          let ended := Engine.parse settings invocation.request files
          report invocation.json (Engine.handover? settings invocation.request ended.1) ended

end CrashDigest.Program
