import RepoSelect.Failure
import RepoSelect.Path
import Std.Data.ExtTreeMap

/-!
# Trees of files

Files and directories by their places, and what a path leads to. A place is the list of names
on the way down from the root, which is a directory and has no name.

A path is followed name by name (`descend`); every component in front of the last one has to
lead to a directory. What is done with the last component is up to the operation, so a path
is first resolved to a `Target`. There are no links: a place is reached by its names alone, and no
two places share what is in them.
-/

namespace RepoSelect

namespace FileTree

abbrev Place := List String

inductive Entry where
  | file (content : ByteArray)
  | directory

/-- Files are equal if their bytes are. -/
instance : DecidableEq Entry
  | .directory, .directory => isTrue rfl
  | .directory, .file _ => isFalse nofun
  | .file _, .directory => isFalse nofun
  | .file a, .file b =>
    if h : a.data = b.data then isTrue (congrArg Entry.file (ByteArray.ext h))
    else isFalse fun e => h (congrArg ByteArray.data (Entry.file.inj e))

/-- What the last component of a path means. -/
inductive Target where
  /-- A directory that `.`, `..` or nothing but `/` leads to. -/
  | directory (place : Place)
  /-- A name in a directory, with or without a `/` behind it. -/
  | named (place : Place) (slash : Bool)
deriving Repr, DecidableEq

end FileTree

open FileTree

structure FileTree where
  entries : Std.ExtTreeMap Place Entry := ∅
  /-- Where relative paths start. -/
  workingDirectory : Place := []
deriving DecidableEq

/-- Results can be told apart if what they hold can. -/
instance decidableEqResult {ε α : Type} [DecidableEq ε] [DecidableEq α] :
    DecidableEq (Except ε α)
  | .ok a, .ok b => decidable_of_iff (a = b) ⟨congrArg Except.ok, Except.ok.inj⟩
  | .error f, .error g => decidable_of_iff (f = g) ⟨congrArg Except.error, Except.error.inj⟩
  | .ok _, .error _ => isFalse nofun
  | .error _, .ok _ => isFalse nofun

namespace FileTree

/-- What is at a place. -/
def at? (t : FileTree) (place : Place) : Option Entry :=
  if place = [] then some .directory else t.entries[place]?

def put (t : FileTree) (place : Place) (e : Entry) : FileTree :=
  { t with entries := t.entries.insert place e }

def drop (t : FileTree) (place : Place) : FileTree :=
  { t with entries := t.entries.erase place }

@[simp] theorem at?_nil (t : FileTree) : t.at? [] = some .directory := rfl

theorem at?_put (t : FileTree) {place : Place} (e : Entry) (other : Place)
    (h : place ≠ []) :
    (t.put place e).at? other = if place = other then some e else t.at? other := by
  unfold at? put
  by_cases ho : other = []
  · subst ho
    simp [h]
  · simp [ho, Std.ExtTreeMap.getElem?_insert]

theorem at?_drop (t : FileTree) {place : Place} (other : Place) (h : place ≠ []) :
    (t.drop place).at? other = if place = other then none else t.at? other := by
  unfold at? drop
  by_cases ho : other = []
  · subst ho
    simp [h]
  · simp [ho, Std.ExtTreeMap.getElem?_erase]

/-! ## Following paths -/

/-- The most bytes that a name and a path have. -/
def nameLimit : Nat := 255

def pathLimit : Nat := 4095

/-- The place of `name` in the directory `here`. -/
def child (here : Place) (name : String) : Except IoFault Place :=
  if nameLimit < name.utf8ByteSize then .error .nameTooLong else .ok (here ++ [name])

/-- The directory that `name` leads to from the directory `here`. -/
def descend (t : FileTree) (here : Place) (name : String) : Except IoFault Place :=
  if name = "." then .ok here
  else if name = ".." then .ok here.dropLast
  else do
    let place ← child here name
    match t.at? place with
    | some .directory => .ok place
    | some (.file _) => .error .notADirectory
    | none => .error .notFound

/-- What the last of some components means, seen from the directory `here`. -/
def follow (t : FileTree) (slash : Bool) (here : Place) : List String → Except IoFault Target
  | [] => .ok (.directory here)
  | [name] =>
    if name = "." ∨ name = ".." then return .directory (← t.descend here name)
    else return .named (← child here name) slash
  | name :: names => do t.follow slash (← t.descend here name) names

/-- Where following a path starts. -/
def start (t : FileTree) (path : String) : Place :=
  if Path.isAbsolute path then [] else t.workingDirectory

def resolve (t : FileTree) (path : String) : Except IoFault Target :=
  if path.toList.contains '\x00' then .error .zeroByteInName
  else if path = "" then .error .notFound
  else if pathLimit < path.utf8ByteSize then .error .nameTooLong
  else
    t.follow (path.toList.getLast? = some '/') (t.start path) (Path.components path)

/-- The path of the directory where relative paths start. -/
def workingPath (t : FileTree) : String := "/" ++ "/".intercalate t.workingDirectory

/-! ## Looking -/

/-- What a path leads to. -/
def lookup (t : FileTree) (path : String) : Except IoFault Entry := do
  match ← t.resolve path with
  | .directory _ => .ok .directory
  | .named place slash =>
    match t.at? place, slash with
    | none, _ => .error .notFound
    | some (.file _), true => .error .notADirectory
    | some e, _ => .ok e

def exists? (t : FileTree) (path : String) : Bool := (t.lookup path).toBool

def isDirectory (t : FileTree) (path : String) : Bool :=
  match t.lookup path with
  | .ok .directory => true
  | _ => false

def Entry.bytes : Entry → Except IoFault ByteArray
  | .file content => .ok content
  | .directory => .error .isADirectory

/-- A content as text. -/
def textOf (content : ByteArray) : Except IoFault String :=
  match String.fromUTF8? content with
  | some text => .ok text
  | none => .error .notText

def readText (t : FileTree) (path : String) : Except IoFault String := do
  textOf (← (← t.lookup path).bytes)

/-! ## Changing -/

/-- The tree with a file, in place of one that is there; an error if the file cannot be opened. -/
def write (t : FileTree) (path : String) (content : ByteArray) : Except IoFault FileTree := do
  match ← t.resolve path with
  | .directory _ | .named _ true => .error .isADirectory
  | .named place false =>
    if t.at? place = some .directory then .error .isADirectory
    else .ok (t.put place (.file content))

def createDirectory (t : FileTree) (path : String) : Except IoFault FileTree := do
  match ← t.resolve path with
  | .directory _ => .error .alreadyExists
  | .named place _ =>
    if (t.at? place).isSome then .error .alreadyExists else .ok (t.put place .directory)

def removeFile (t : FileTree) (path : String) : Except IoFault FileTree := do
  match ← t.resolve path with
  | .directory _ => .error .isADirectory
  | .named place slash =>
    match t.at? place with
    | none => .error .notFound
    | some .directory => .error .isADirectory
    | some (.file _) => if slash then .error .notADirectory else .ok (t.drop place)

/-- Gives a file another path, in place of a file that is there. -/
def moveFile (t : FileTree) (source dest : String) : Except IoFault FileTree := do
  match ← t.resolve source, ← t.resolve dest with
  | .named here slash, .named there slash' =>
    match t.at? here with
    | none => .error .notFound
    | some .directory => .error .isADirectory
    | some (.file content) =>
      if slash || slash' then .error .notADirectory
      else if t.at? there = some .directory then .error .isADirectory
      else .ok ((t.drop here).put there (.file content))
  | _, _ => .error .inUse

end FileTree

end RepoSelect
