import CrashDigest.Program

/-!
# The command line program

Loads the files that a run looks at, runs `Program.run` on them, and writes
back the record, the output and the status. Files that a run does not name are
not loaded: to the run they are not there. The owner of a directory stays as
it is, also where the run would hand it over: to change it takes rights that
are better asked for elsewhere.
-/

namespace CrashDigest.Main

/-- What really stands at a path that starts at the root. -/
def nodeAt (path : String) : IO (Option Node) := do
  let file := (← IO.currentDir) / path
  if ← file.isDir then return some .directory
  if !(← file.pathExists) then return none
  if (← IO.FS.realPath file).toString = "/dev/full" then return some .fullDevice
  try
    let data ← IO.FS.readBinFile file
    return some (.file data.toList)
  catch _ => return none

/-- The path of a place. -/
def pathOf (place : Place) : String :=
  "/" ++ String.ofList (Text.join ['/'] place)

/-- The tree with what stands at a place and on the way to it. -/
def loadPlace (t : FileTree) (place : Place) : IO FileTree := do
  let mut t := t
  for n in List.range place.length do
    let here := place.take (n + 1)
    if (t.node? here).isNone then
      if let some node ← nodeAt (pathOf here) then
        t := t.put here node
  return t

/-- The tree with what a path names. The names of the path are taken one after the other, so that
a step upwards starts from a directory that is there. -/
def loadPath (t : FileTree) (path : Path) : IO FileTree := do
  let mut t := t
  let mut here := if path.isAbsolute then [] else t.workingDirectory
  for name in path.parts do
    if let .ok next := t.step here name then
      t ← loadPlace t next
      here := next
  return t

/-- The tree with a directory and all the files in it. -/
def loadDirectory (t : FileTree) (dir : Path) : IO FileTree := do
  let mut t ← loadPath t dir
  if t.isDirectory dir then
    for entry in ← ((← IO.currentDir) / String.ofList dir).readDir do
      t ← loadPath t (dir.join entry.fileName.toList)
  return t

/-- The files that a run looks at. -/
def load (arguments : List Text) (env : Environment) : IO FileTree := do
  let cwd := (← IO.currentDir).toString.toList.splitBy (fun a b => a ≠ '/' && b ≠ '/')
  let place := cwd.filter fun name => name ≠ ['/']
  let mut t ← loadPlace ⟨[], place⟩ place
  if let .ok invocation := CommandLine.parse arguments then
    for path in [invocation.config, env.configPath, some env.userPath].filterMap id do
      t ← loadPath t path
    if let .ok settings := invocation.settings env t then
      t ← loadPath t settings.serialPath
    t ← loadDirectory t invocation.request.dir
  return t

/-- Write the files that a run has changed. -/
def store (before after : FileTree) : IO Unit := do
  for (place, node) in after.nodes do
    if let .file content := node then
      if before.node? place ≠ some node then
        IO.FS.writeBinFile (pathOf place) ⟨content.toArray⟩

/-- The variables of the environment that matter. -/
def environment : IO Environment := do
  let get (name : String) : IO (Option Text) := do
    return (← IO.getEnv name).map String.toList
  let logsRoot ← get "CRASHPARSE_LOGS_ROOT"
  let configPath ← get "CRASHPARSE_CONFIG"
  let configHome ← get "XDG_CONFIG_HOME"
  let home ← get "HOME"
  return { logsRoot, configPath, configHome, home }

/-- A whole run. -/
def run (arguments : List Text) : IO UInt32 := do
  let env ← environment
  let before ← load arguments env
  let result := Program.run arguments env before
  store before result.files
  IO.print (String.ofList result.stdout)
  IO.eprint (String.ofList result.stderr)
  return UInt32.ofNat result.status

end CrashDigest.Main

def main (arguments : List String) : IO UInt32 :=
  CrashDigest.Main.run (arguments.map String.toList)
