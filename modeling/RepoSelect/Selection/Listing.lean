import RepoSelect.Json.Printer
import RepoSelect.Repository.Codec
import RepoSelect.Style
import RepoSelect.Text.Blank

/-!
# Listings of selected repositories

The selected names, with what a catalog knows of each: as JSON, or in columns. A name that is
not in the catalog is listed all the same.
-/

namespace RepoSelect.Selection

open Json (Value)

/-! ## As JSON -/

def entry (catalog : Catalog) (name : String) : Value :=
  .object <| ("name", .string name) :: match catalog[name]? with
    | none => []
    | some r =>
      [ ("project", .string r.project),
        ("default_branch", .string r.defaultBranch),
        ("description", .string r.description),
        ("labels", .array (r.labels.map .string)) ]

def toJson (catalog : Catalog) (names : List String) : Value := .array (names.map (entry catalog))

/-! ## In columns -/

structure Row where
  name : String
  project : String
  branch : String
  description : String
deriving Repr, DecidableEq

def row (catalog : Catalog) (name : String) : Row :=
  match catalog[name]? with
  | none => ⟨name, "-", "-", "(not in catalog)"⟩
  | some r =>
    ⟨name, r.project, if r.defaultBranch = "" then "-" else r.defaultBranch, r.description⟩

/-- The width of a column. -/
def width (column : Row → String) (rows : List Row) : Nat :=
  (rows.map fun r => (column r).length).foldl max 0

/-- A text with blanks behind it up to a width. -/
def pad (width : Nat) (text : String) : String :=
  text ++ String.ofList (List.replicate (width - text.length) ' ')

def withoutEndBlanks (line : String) : String := String.ofList (Text.trimEnd line.toList)

/-- One line per name, its columns as wide as their widest entries. -/
def table (catalog : Catalog) (style : Style) (names : List String) : List String :=
  let rows := names.map (row catalog)
  let names := width (·.name) rows
  let projects := width (·.project) rows
  let branches := width (·.branch) rows
  rows.map fun r =>
    withoutEndBlanks (pad names r.name ++ "  " ++ pad projects r.project ++ "  "
      ++ pad branches r.branch ++ "  " ++ style.dim r.description)

end RepoSelect.Selection
