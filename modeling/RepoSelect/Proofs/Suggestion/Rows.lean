import Mathlib.Data.List.Infix
import RepoSelect.Proofs.Suggestion.Edits
import RepoSelect.Suggestion.EditDistance

/-!
# The rows of the table

> The row for the characters that have been read holds the least numbers of edits between them and
> each beginning of the other text (`foldl_nextRow_firstRow`), so that the last entry of the last
> row is the number for the whole texts (`editDistance_eq`).

A row is filled from the left, with the row above and the entry on the left at hand, and both texts
grow at their ends on the way. Written down backwards they grow at the front, where the recursion
of `leastEdits` takes a character off. So a row is stated from any place on, with what lies in front
of it last character first (`rowFrom`), and only the whole table is turned round again.
-/

namespace RepoSelect

namespace EditDistance

variable {read : List Char}

/-- The part of the row for `read` that is behind `front`, where `bs` is what is left of the other
text. Both `read` and `front` have their last character first. -/
def rowFrom (read front bs : List Char) : List Nat :=
  bs.inits.map fun t => leastEdits read (t.reverse ++ front)

theorem rowFrom_nil (read front : List Char) : rowFrom read front [] = [leastEdits read front] :=
  rfl

theorem rowFrom_cons (read front : List Char) (b : Char) (bs : List Char) :
    rowFrom read front (b :: bs) = leastEdits read front :: rowFrom read (b :: front) bs := by
  simp [rowFrom]

theorem rowFrom_eq_cons (read front bs : List Char) :
    ∃ row, rowFrom read front bs = leastEdits read front :: row := by
  cases bs with
  | nil => exact ⟨[], rfl⟩
  | cons b bs => exact ⟨_, rowFrom_cons read front b bs⟩

/-! ## One row from the one above -/

theorem cons_entries (a : Char) (read front bs : List Char) :
    leastEdits (a :: read) front
        :: entries a bs (rowFrom read front bs) (leastEdits (a :: read) front)
      = rowFrom (a :: read) front bs := by
  induction bs generalizing front with
  | nil => rfl
  | cons b bs ih =>
    obtain ⟨row, habove⟩ := rowFrom_eq_cons read (b :: front) bs
    rw [rowFrom_cons, rowFrom_cons, ← ih, habove, entries, leastEdits_cons_cons]

theorem nextRow_rowFrom (a : Char) (read bs : List Char) :
    nextRow bs (rowFrom read [] bs) a = rowFrom (a :: read) [] bs := by
  have hfirst : (rowFrom read [] bs).headD 0 + 1 = leastEdits (a :: read) [] := by
    obtain ⟨row, hrow⟩ := rowFrom_eq_cons read [] bs
    rw [hrow, List.headD_cons, leastEdits_nil_right, leastEdits_nil_right, List.length_cons]
  rw [nextRow, hfirst, cons_entries]

/-! ## The table -/

theorem rowFrom_unread (front bs : List Char) :
    rowFrom [] front bs = List.range' front.length (bs.length + 1) := by
  induction bs generalizing front with
  | nil => rw [rowFrom_nil, leastEdits_nil_left]; rfl
  | cons b bs ih => rw [rowFrom_cons, ih, leastEdits_nil_left, List.length_cons]; rfl

theorem firstRow_eq (bs : List Char) : firstRow bs = rowFrom [] [] bs := by
  rw [firstRow, rowFrom_unread, List.range_eq_range']
  rfl

theorem foldl_nextRow (as bs : List Char) :
    as.foldl (nextRow bs) (rowFrom read [] bs) = rowFrom (as.reverse ++ read) [] bs := by
  induction as generalizing read with
  | nil => rfl
  | cons a as ih =>
    rw [List.foldl_cons, nextRow_rowFrom, ih, List.reverse_cons, List.append_assoc]
    rfl

theorem foldl_nextRow_firstRow (as bs : List Char) :
    as.foldl (nextRow bs) (firstRow bs) = bs.inits.map (leastEdits as) := by
  rw [firstRow_eq, foldl_nextRow, rowFrom]
  simp only [List.append_nil, leastEdits_reverse]

end EditDistance

theorem editDistance_eq (a b : String) : editDistance a b = leastEdits a.toList b.toList := by
  have hlast : b.toList.inits.getLast? = some b.toList := by
    simp [List.getLast?_eq_getElem?]
  rw [editDistance, EditDistance.foldl_nextRow_firstRow, List.getLast?_map, hlast]
  rfl

end RepoSelect
