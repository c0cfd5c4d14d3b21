import CrashDigest.Files.Tree
import CrashDigest.Settings.Ini
import CrashDigest.Text.Utf8

/-!
# Where the settings come from

A settings file is named by the user, or else by the environment, or else it is
the user's own if there is one. A file that was named must be there.
-/

namespace CrashDigest

/-- The variables of the environment that matter, where they are set. -/
structure Environment where
  logsRoot : Option Text
  configPath : Option Text
  configHome : Option Text
  home : Option Text
  deriving DecidableEq, Repr

/-- A value that is more than blanks. -/
def notBlank (value : Text) : Option Text :=
  if value.isBlankText then none else some value

/-- Why there are no settings. -/
inductive ConfigError where
  | unreadable (path : Path) (why : FileError)
  | invalid (path : Path) (why : InvalidChoice)
  | skipPattern (text : Text)
  deriving DecidableEq, Repr

namespace ConfigError

/-- The error in words. -/
def message : ConfigError → Text
  | .unreadable path _ => ("Failed to read config file: " : Text) ++ path
  | .invalid path _ => ("Invalid config file: " : Text) ++ path
  | .skipPattern text => ("Invalid ownership skip_pattern: " : Text) ++ text

/-- The cause of the error in words. -/
def cause : ConfigError → Text
  | .unreadable _ why => why.message
  | .invalid _ why => why.message
  | .skipPattern _ => "regex parse error:"

/-- The error and its cause. -/
def chain (e : ConfigError) : Text :=
  e.message ++ (": " : Text) ++ e.cause

end ConfigError

namespace Environment

/-- The defaults, for the root of the logs that the environment names. -/
def settings (env : Environment) : Settings :=
  .forRoot ((env.logsRoot.bind notBlank).getD Settings.defaultRoot)

/-- The user's own settings file. -/
def userPath (env : Environment) : Path :=
  let home : Path := match env.configHome, env.home with
    | some dir, _ => dir
    | none, some dir => Path.join dir ".config"
    | none, none => ".config"
  (home.join "crashparse").join "config.ini"

/-- The settings file: the one that is named, or the user's own if it is there. -/
def configPath? (env : Environment) (files : FileTree) (named : Option Path) : Option Path :=
  match named, env.configPath.bind notBlank with
  | some path, _ => some path
  | none, some path => some path
  | none, none => if files.isThere env.userPath then some env.userPath else none

end Environment

namespace SettingsFile

/-- The settings of a file. -/
def read (files : FileTree) (path : Path) : Except ConfigError SettingsFile :=
  match files.read path with
  | .error why => .error (.unreadable path why)
  | .ok data =>
      match Utf8.decode? data with
      | none => .error (.unreadable path .notText)
      | some text =>
          match ofText text with
          | .ok file => .ok file
          | .error why => .error (.invalid path why)

/-- The settings of the file that is in use, if there is one. -/
def load (env : Environment) (files : FileTree) (named : Option Path) :
    Except ConfigError SettingsFile :=
  match env.configPath? files named with
  | none => .ok .empty
  | some path => read files path

end SettingsFile

end CrashDigest
