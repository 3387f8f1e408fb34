import RepoSelect.Repository.Basic

/-!
# The label index

The repositories of each label, derived from a catalog in three passes: the labels that the
records list, the aliases of the configuration, and the superset label, which holds
every key of the catalog.
-/

namespace RepoSelect

structure Label where
  name : String
  members : NameSet := ∅
deriving Repr, DecidableEq

structure LabelIndex where
  table : NameMap NameSet := ∅
deriving DecidableEq

namespace LabelIndex

def empty : LabelIndex := {}

def get? (ix : LabelIndex) (label : String) : Option NameSet := ix.table[label]?

def contains (ix : LabelIndex) (label : String) : Bool := ix.table.contains label

/-- The repositories of a label; an unknown label has none. -/
def members (ix : LabelIndex) (label : String) : NameSet := (ix.get? label).getD ∅

def label? (ix : LabelIndex) (name : String) : Option Label :=
  (ix.get? name).map fun members => ⟨name, members⟩

/-- The names of the labels in increasing order. -/
def names (ix : LabelIndex) : List String := ix.table.keys

def size (ix : LabelIndex) : Nat := ix.table.size

def isEmpty (ix : LabelIndex) : Bool := ix.table.isEmpty

/-- Adds repositories to a label, which exists from then on. -/
def extend (ix : LabelIndex) (label : String) (repos : List String) : LabelIndex :=
  ⟨ix.table.insert label (ix.members label ∪ Std.ExtTreeSet.ofList repos)⟩

def insert (ix : LabelIndex) (label repo : String) : LabelIndex := ix.extend label [repo]

/-- Adds each repository to the labels that its record lists. -/
def addDeclared (ix : LabelIndex) (catalog : Catalog) : LabelIndex :=
  catalog.foldl (fun ix key repo => repo.labels.foldl (·.insert · key) ix) ix

def addAliases (ix : LabelIndex) (aliases : NameMap (List String)) : LabelIndex :=
  aliases.foldl extend ix

/-- Makes `label` hold the keys of the catalog and nothing else. -/
def setSuperset (ix : LabelIndex) (label : String) (catalog : Catalog) : LabelIndex :=
  ⟨ix.table.insert label (Std.ExtTreeSet.ofList catalog.keys)⟩

def build (catalog : Catalog) (aliases : NameMap (List String)) (superset : String) :
    LabelIndex :=
  ((empty.addDeclared catalog).addAliases aliases).setSuperset superset catalog

end LabelIndex

end RepoSelect
