import RepoSelect.Cache.Record
import RepoSelect.FileTree.Action

/-!
# Cache files

Reading, writing and removing the file that holds a cache record. A record is written to a
draft beside the file, which then takes the file's place: whoever reads the file finds the
old record or the new one. If the draft cannot be written as a whole, what there is of it stays.
-/

namespace RepoSelect.Cache

/-- The record at a path, whatever its age. -/
def read (t : FileTree) (path : String) : Except Failure CacheRecord :=
  match t.lookup path with
  | .error _ => .error (.cacheMissing path)
  | .ok e =>
    match e.bytes with
    | .error fault => .error (.cacheCorrupt path fault.message)
    | .ok content => (CacheRecord.parse content).mapError fun f => .cacheCorrupt path f.message

/-- The record at a path, if it is no older than `ttl` at the time `now`. -/
def load (t : FileTree) (path : String) (ttl : Duration) (now : Timestamp) :
    Except Failure CacheRecord := do
  let r ← read t path
  let age := r.ageAt now
  if ttl < age then .error (.cacheExpired path age) else .ok r

/-- The path of the draft. -/
def draftPath (path : String) : String := Path.withExtension path "json.tmp"

/-- Puts the draft in its place; a draft that cannot be placed is removed. -/
def publish (path : String) : FileAction IoFault Unit := fun t =>
  match t.moveFile (draftPath path) path with
  | .ok t' => .ok () t'
  | .error fault => .error fault ((t.removeFile (draftPath path)).toOption.getD t)

/-- Writes a record to a path, and the directories above it if need be. -/
def saveOn (disk : Disk) (path : String) (r : CacheRecord) : FileAction Failure Unit :=
  EStateM.adaptExcept (Failure.cacheWrite path) do
    FileTree.ensureDirectories ((Path.parent? path).getD "")
    FileTree.writeFile disk (draftPath path) r.print.toUTF8
    publish path

/-- The same on a disk that takes all that is written. -/
def save (path : String) (r : CacheRecord) : FileAction Failure Unit := saveOn .sound path r

/-- Removes the file; false if there was none. -/
def flush (path : String) : FileAction Failure Bool := fun t =>
  match t.removeFile path with
  | .ok t' => .ok true t'
  | .error .notFound => .ok false t
  | .error fault => .error (.io fault) t

end RepoSelect.Cache
