import CrashDigest.Assoc
import CrashDigest.Files.Error
import CrashDigest.Files.Path

/-!
# File trees

The files that a run can see: each place, the names on the way to it from the
root, with what stands there. A path is followed name by name; every name but
the last must be a directory's. Reading a file gives its bytes, and writing
replaces all of them or, on a device that is full, fails.

This is less than a real file system has. A place has one name only, so there
are no symbolic links; everything may be read and written that is there; a write
takes all of the data or none of it; and a device that takes no data has none to
read either.
-/

namespace CrashDigest

/-- A place in a tree: the names on the way from the root. -/
abbrev Place := List Text

/-- What stands at a place. -/
inductive Node where
  | file (content : Bytes)
  | directory
  /-- A device that takes no data. -/
  | fullDevice
  deriving DecidableEq, Repr

/-- The files that a run can see. -/
structure FileTree where
  /-- The places in the order in which their directories list them. -/
  nodes : List (Place × Node)
  /-- Where paths start that do not start at the root. -/
  workingDirectory : Place
  deriving DecidableEq, Repr

namespace FileTree

/-- What stands at a place. The root is always a directory. -/
def node? (t : FileTree) (place : Place) : Option Node :=
  if place = [] then some .directory else t.nodes.lookup place

/-- One step from a place: stay, go up, or go to a name. Only a directory can be left. -/
def step (t : FileTree) (here : Place) (name : Text) : Except FileError Place :=
  match t.node? here with
  | none => .error .notFound
  | some .directory =>
      if name = [] ∨ name = ['.'] then .ok here
      else if name = ['.', '.'] then .ok here.dropLast
      else .ok (here ++ [name])
  | some _ => .error .notDirectory

/-- Where a path leads. Nothing need stand there yet. -/
def follow (t : FileTree) (p : Path) : Except FileError Place :=
  if p = [] then .error .notFound
  else p.parts.foldlM t.step (if p.isAbsolute then [] else t.workingDirectory)

/-- What stands where a path leads. -/
def open? (t : FileTree) (p : Path) : Except FileError Node :=
  match t.follow p with
  | .error e => .error e
  | .ok place =>
      match t.node? place with
      | some node => .ok node
      | none => .error .notFound

/-- Whether something stands where a path leads. -/
def isThere (t : FileTree) (p : Path) : Bool :=
  (t.open? p).toBool

/-- Whether a directory stands where a path leads. -/
def isDirectory (t : FileTree) (p : Path) : Bool :=
  match t.open? p with
  | .ok .directory => true
  | _ => false

/-- The bytes of a file. -/
def read (t : FileTree) (p : Path) : Except FileError Bytes :=
  match t.open? p with
  | .error e => .error e
  | .ok (.file content) => .ok content
  | .ok .directory => .error .isDirectory
  | .ok .fullDevice => .ok []

/-- The name of a place within a directory, if it stands there. -/
def nameWithin (directory : Place) (place : Place) : Option Text :=
  if place.dropLast = directory then place.getLast? else none

/-- The names in a directory, in its order; none where no directory is. -/
def list (t : FileTree) (p : Path) : List Text :=
  match t.follow p with
  | .error _ => []
  | .ok place =>
      if t.node? place = some .directory then
        t.nodes.filterMap fun (place', _) => nameWithin place place'
      else []

/-- The tree with something else at a place. -/
def put (t : FileTree) (place : Place) (node : Node) : FileTree :=
  { t with nodes := Assoc.put place node t.nodes }

/-- The place of a file that is to be written: a directory must be around it, and none in its
stead. -/
def writable (t : FileTree) (p : Path) : Except FileError Place :=
  match t.follow p with
  | .error e => .error e
  | .ok place =>
      match t.node? place with
      | some .directory => .error .isDirectory
      | some _ => .ok place
      | none =>
          match t.node? place.dropLast with
          | some .directory => .ok place
          | some _ => .error .notDirectory
          | none => .error .notFound

/-- Make a file empty, new or not, and say where it is. A full device stays what it is. -/
def create (t : FileTree) (p : Path) : Except FileError (Place × FileTree) :=
  match t.writable p with
  | .error e => .error e
  | .ok place =>
      match t.node? place with
      | some .fullDevice => .ok (place, t)
      | _ => .ok (place, t.put place (.file []))

/-- Give a file that was created its bytes. -/
def fill (t : FileTree) (place : Place) (content : Bytes) : Except FileError FileTree :=
  match t.node? place with
  | some .fullDevice => if content = [] then .ok t else .error .noSpace
  | _ => .ok (t.put place (.file content))

end FileTree

end CrashDigest
