/-!
# Edit distance

The distance between two texts, row by row of the usual table: entry `j` of the row for the
first `i` characters of `a` is the distance between them and the first `j` characters of `b`.
-/

namespace RepoSelect

namespace EditDistance

/-- The entries behind the first one of the next row, from the row above and the entry on
the left. -/
def entries (a : Char) : List Char → List Nat → Nat → List Nat
  | b :: bs, corner :: above :: row, left =>
    let cost := if a = b then 0 else 1
    let here := min (min (above + 1) (left + 1)) (corner + cost)
    here :: entries a bs (above :: row) here
  | _, _, _ => []

/-- The row for one more character. -/
def nextRow (bs : List Char) (row : List Nat) (a : Char) : List Nat :=
  let first := row.headD 0 + 1
  first :: entries a bs row first

/-- The row for no characters. -/
def firstRow (bs : List Char) : List Nat := List.range (bs.length + 1)

end EditDistance

/-- The number of single-character edits that turn one text into the other. -/
def editDistance (a b : String) : Nat :=
  let bs := b.toList
  ((a.toList.foldl (EditDistance.nextRow bs) (EditDistance.firstRow bs)).getLast?).getD 0

end RepoSelect
