import CrashDigest.Files.Tree
import CrashDigest.Gzip.Member
import CrashDigest.Text.Lines

/-!
# Artifacts

An artifact is a file with what a crash left behind. It is compressed if its
name says so, or else if it starts like compressed data; then its content is
what the data stands for. A scan gets its lines, and an artifact that cannot
be opened, or not be read to its end, is an error that names it.
-/

namespace CrashDigest

/-- An artifact that has been opened. -/
structure Artifact where
  compressed : Bool
  /-- What could be read. -/
  content : Bytes
  /-- Why no more could be read, if the end was not reached. -/
  failure : Option FileError
  deriving DecidableEq, Repr

/-- Why an artifact could not be read. -/
inductive ArtifactError where
  | open (path : Path) (why : FileError)
  | read (path : Path) (why : FileError)
  deriving DecidableEq, Repr

/-- The error in words. -/
def ArtifactError.message : ArtifactError → Text
  | .open path why => "failed to open artifact ".toList ++ path ++ ": ".toList ++ why.message
  | .read path why => "failed to read artifact ".toList ++ path ++ ": ".toList ++ why.message

namespace Artifact

/-- The artifact with this name and these bytes. -/
def ofBytes (path : Path) (data : Bytes) : Artifact :=
  if path.hasGzipExtension || Gzip.looksCompressed data then
    let decoded := Gzip.decode data
    ⟨true, decoded.content, decoded.failure.map .damaged⟩
  else ⟨false, data, none⟩

/-- The artifact at a path. -/
def open? (files : FileTree) (path : Path) : Except FileError Artifact :=
  (files.read path).map (ofBytes path)

/-- The lines of an artifact. -/
def lines (a : Artifact) : Lines.Stream FileError :=
  ⟨Lines.ofBytes a.content, a.failure⟩

/-- The lines of the artifact at a path, if it can be opened. -/
def stream (files : FileTree) (path : Path) : Except ArtifactError (Lines.Stream FileError) :=
  match open? files path with
  | .ok a => .ok a.lines
  | .error e => .error (.open path e)

/-- What a scan makes of all the lines of the artifact at a path. -/
def scan {α : Type} (files : FileTree) (path : Path) (scan : List Text → α) :
    Except ArtifactError α :=
  match stream files path with
  | .error e => .error e
  | .ok s =>
      match s.readAll scan with
      | .ok a => .ok a
      | .error e => .error (.read path e)

end Artifact

end CrashDigest
