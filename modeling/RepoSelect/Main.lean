import RepoSelect.FileTree.Along
import RepoSelect.Program
import Std.Time.DateTime.Timestamp

/-!
# The executable

A run on the files of the machine. What is at the places along the paths that the run follows
is read first; what the run changes is written back when it is over.
-/

namespace RepoSelect.Executable

open FileTree

def pathOf (place : Place) : String := "/" ++ "/".intercalate place

/-- What is at a place of the machine. -/
def entryAt (place : Place) : IO (Option Entry) := do
  try
    return some (.file (← IO.FS.readBinFile (pathOf place)))
  catch
    | .noFileOrDirectory .. => return none
    | .inappropriateType .. => return some .directory
    | e => throw e

/-- The tree with what is along a path. -/
def observe (t : FileTree) (path : String) : IO FileTree :=
  (t.placesAlong path).foldlM (fun t place => do
    if (t.at? place).isSome || t.at? place.dropLast ≠ some .directory then return t
    match ← entryAt place with
    | some e => return t.put place e
    | none => return t) t

/-- The tree with what is along all paths that a run follows: those that its configuration
names are known only when that has been read. -/
def observeAll (e : Program.Environment) (words : List String) (t : FileTree) :
    IO FileTree := do
  let t ← observe t t.workingPath
  let t ← (Program.paths e t words).foldlM observe t
  (Program.paths e t words).foldlM observe t

/-- Writes a file beside its place, and then puts it there. -/
def replaceFile (path : String) (content : ByteArray) : IO Unit := do
  IO.FS.writeBinFile (path ++ ".part") content
  IO.FS.rename (path ++ ".part") path

/-- Makes a tree that is true of the machine into another one there. -/
def realize (before after : FileTree) : IO Unit := do
  for place in before.entries.keys do
    if (after.at? place).isNone then
      IO.FS.removeFile (pathOf place)
  for (place, entry) in after.entries.toList do
    if before.at? place ≠ some entry then
      match entry with
      | .directory => IO.FS.createDir (pathOf place)
      | .file content => replaceFile (pathOf place) content

/-- The current time. -/
def now : IO Instant := do
  let t ← Std.Time.Timestamp.now
  return (Instant.ofNanos? t.toNanosecondsSinceUnixEpoch.val).getD .epoch

def variableNames : List String :=
  ["NO_COLOR", "CLICOLOR", "CLICOLOR_FORCE", "TERM", "RUST_LOG", "REPO_FLEET_CONFIG",
    "REPO_FLEET_CACHE"]

def environment : IO Program.Environment := do
  let known ← variableNames.mapM fun name => return (name, ← IO.getEnv name)
  let directory (name : String) : IO (Option String) :=
    return (← IO.getEnv name).filter (· ≠ "")
  return {
    getVariable := fun name => (known.lookup name).join
    home := { dir := ← directory "HOME", cacheDir := ← directory "XDG_CACHE_HOME" }
    clock := { now := ← now }
    isTerminal := ← (← IO.getStdout).isTty }

end RepoSelect.Executable

open RepoSelect Executable

def main (words : List String) : IO UInt32 := do
  let e ← environment
  let here := Path.components (toString (← IO.currentDir))
  let t ← observeAll e words { workingDirectory := here }
  let exit := Program.run e t words
  realize t exit.files
  (← IO.getStdout).putStr exit.out
  (← IO.getStderr).putStr exit.err
  return exit.code.toUInt32
