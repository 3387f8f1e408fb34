import RepoSelect.Names

/-!
# Repositories and catalogs

What is kept of a repository, and the key under which a catalog holds it: the bare name
in the default project, `project/name` in any other.
-/

namespace RepoSelect

structure Repository where
  name : String
  description : String := ""
  isPublic : Bool := false
  project : String := ""
  defaultBranch : String := ""
  /-- The labels in the order in which they were reported. -/
  labels : List String := []
deriving Repr, DecidableEq

/-- Repositories by qualified name. -/
abbrev Catalog := NameMap Repository

/-- A repository without a project belongs to the default one. -/
def qualifiedName (project name defaultProject : String) : String :=
  if project = "" ∨ project = defaultProject then name else project ++ "/" ++ name

def Repository.qualifiedName (r : Repository) (defaultProject : String) : String :=
  RepoSelect.qualifiedName r.project r.name defaultProject

end RepoSelect
