import CrashDigest.Files.Tree
import CrashDigest.Pattern.Search

/-!
# Finding files by name

An artifact is known by a pattern that its name matches somewhere. The names
of a directory are tried in its order; where there are several patterns, one
that comes first is tried on all of them before the next.
-/

namespace CrashDigest.FileTree

/-- The first file of a directory whose name the pattern matches. -/
def find? (t : FileTree) (dir : Path) (pattern : Pattern) : Option Path :=
  ((t.list dir).find? pattern.isIn).map dir.join

/-- The first file that one of the patterns finds, in their order. -/
def findFirst? (t : FileTree) (dir : Path) (patterns : List Pattern) : Option Path :=
  patterns.findSome? (t.find? dir)

end CrashDigest.FileTree
