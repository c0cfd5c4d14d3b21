import CrashDigest.Gzip.Reader
import CrashDigest.Text.Basic

/-!
# File errors

Why a file could not be used. The wording of the first four is the operating
system's, with its number for the error.
-/

namespace CrashDigest

/-- Why a file could not be used. -/
inductive FileError where
  | notFound
  | notDirectory
  | isDirectory
  /-- The device takes no more data. -/
  | noSpace
  /-- The file was to hold text, and its bytes are no UTF-8. -/
  | notText
  /-- The compressed data of the file is wrong. -/
  | damaged (why : Gzip.Failure)
  deriving DecidableEq, Repr

/-- The error in words. -/
def FileError.message : FileError → Text
  | .notFound => "No such file or directory (os error 2)"
  | .notDirectory => "Not a directory (os error 20)"
  | .isDirectory => "Is a directory (os error 21)"
  | .noSpace => "No space left on device (os error 28)"
  | .notText => "stream did not contain valid UTF-8"
  | .damaged why => why.message

end CrashDigest
