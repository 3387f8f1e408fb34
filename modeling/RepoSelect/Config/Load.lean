import RepoSelect.Config.Reader
import RepoSelect.FileTree.Basic

/-!
# Configuration files

A configuration from a file; its relative paths start from the file's directory.
-/

namespace RepoSelect.Config

def load (t : FileTree) (path : String) : Except Failure Config := do
  let text ← (t.readText path).mapError .io
  let c ← parse text
  .ok { c with baseDir := (Path.parent? path).getD "" }

end RepoSelect.Config
