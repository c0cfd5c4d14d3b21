import CrashDigest.Dump.Console
import CrashDigest.Event.Basic

/-!
# Panics

The console of a panic may be kept in several places. The places are tried in
order, and the first console that tells something is taken, whatever came
before it: one that tells nothing, or one that cannot be read. Where none is
taken an error is reported if there was one, and else that there is too little
data, with a hint if only the header of a panic is there.
-/

namespace CrashDigest.Panic

/-- The fields of a console. -/
def consoleFields (files : FileTree) (path : Path) : Except ArtifactError Fields :=
  match Artifact.stream files path with
  | .error e => .error e
  | .ok s =>
      match Console.fields (path.fileName?.getD []) s with
      | .ok fields => .ok fields
      | .error why => .error (.read path why)

/-- What trying the consoles has come to. -/
structure Trial where
  /-- The fields of the first console that tells something. -/
  found : Option Fields
  /-- The first error before it. -/
  error : Option ArtifactError
  /-- Whether there was a console at all. -/
  anyConsole : Bool
  deriving DecidableEq, Repr

/-- Try the consoles in order; `read` is what a place gives, and nothing where no console is. -/
def tryAll {κ : Type} (read : κ → Option (Except ArtifactError Fields)) : List κ → Trial
  | [] => ⟨none, none, false⟩
  | place :: places =>
      match read place with
      | none => tryAll read places
      | some (.ok fields) =>
          if Console.hasSignature fields then ⟨some fields, none, true⟩
          else { tryAll read places with anyConsole := true }
      | some (.error e) => { tryAll read places with error := some e, anyConsole := true }

/-- Says that no console told anything. -/
def insufficientData : Text := "insufficient data"

/-- The fields of a console, filled up to four. -/
def filled (found : Fields) : Fields :=
  .ofList (([.data 0, .data 1, .data 2, .data 3] : List FieldKey).map
    fun key => (key, (found.get? key).getD []))

/-- The fields of the event after the trial; `hasHeader` says whether a panic header is there. -/
def Trial.fields (t : Trial) (hasHeader : Bool) : Except ArtifactError Fields :=
  match t.found, t.error with
  | some found, _ => .ok (filled found)
  | none, some e => .error e
  | none, none =>
      let told := Fields.empty.set (.data 0) insufficientData
      .ok (if !t.anyConsole && hasHeader then told.set (.data 3) "emmc_hdr" else told)

/-- The fields of a panic. -/
def extract (e : Event) : Except ArtifactError Extraction :=
  let read (pattern : Pattern) : Option (Except ArtifactError Fields) :=
    (e.find? [pattern]).map (consoleFields e.files)
  let trial := tryAll read ArtifactName.consoles
  (trial.fields (e.find? [ArtifactName.panicHeader]).isSome).map .of

end CrashDigest.Panic
