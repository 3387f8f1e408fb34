import RepoSelect.FileTree.Basic

/-!
# Several changes in a row

What is done before a failure stays done: an action leads from a tree to a tree whether it
succeeds or fails. So a write that fails on a full disk leaves a file with the bytes that there
was room for.
-/

namespace RepoSelect

/-- A course of changes to a tree, which may fail with an `ε`. -/
abbrev FileAction (ε α : Type) := EStateM ε FileTree α

/-- How a disk takes what is written: all of it, or so many bytes and never the last one. -/
inductive Disk where
  | sound
  | failing (room : Nat) (fault : IoFault)
deriving Repr, DecidableEq

namespace FileTree

/-- One change; if it fails, the tree stays as it is. -/
def change (f : FileTree → Except IoFault FileTree) : FileAction IoFault Unit := fun t =>
  match f t with
  | .ok t' => .ok () t'
  | .error fault => .error fault t

/-- What a disk with so much room takes of a content. -/
def beginning (room : Nat) (content : ByteArray) : ByteArray :=
  content.extract 0 (min room (content.size - 1))

/-- Writes a file. What has been written stays there, be it all or not. -/
def writeFile (disk : Disk) (path : String) (content : ByteArray) : FileAction IoFault Unit :=
  match disk with
  | .sound => change (·.write path content)
  | .failing room fault => fun t =>
    match t.write path (beginning room content) with
    | .ok t' => .error fault t'
    | .error fault => .error fault t

/-- Creates a directory unless it is there. -/
def ensureDirectory (path : String) : FileAction IoFault Unit := fun t =>
  match t.createDirectory path with
  | .ok t' => .ok () t'
  | .error fault => if t.isDirectory path then .ok () t else .error fault t

/-- Creates a directory and those above it, unless they are there. -/
def ensureDirectories (path : String) : FileAction IoFault Unit := fun t =>
  if path = "" then .ok () t
  else
    match ensureDirectory path t with
    | .error .notFound t =>
      match _h : Path.parent? path with
      | none => .error (.other "failed to create whole tree") t
      | some parent =>
        match ensureDirectories parent t with
        | .ok () t => ensureDirectory path t
        | .error fault t => .error fault t
    | result => result
termination_by path.toList.length
decreasing_by exact Path.length_parent?_lt ‹_›

end FileTree

end RepoSelect
