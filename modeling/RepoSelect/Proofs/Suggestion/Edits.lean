import Mathlib.Order.Bounds.Basic

/-!
# Edits

A text becomes another one by edits of one character each, wherever in the text they are made. The
least number of edits is found without looking at any course of them:

> It is the length of the one text if the other is empty; else the first characters are paired off,
> or one of them is passed over, whatever is cheapest (`isLeast_leastEdits`).

That so many edits will do is read off the recursion. That no fewer will do is shown edit by edit:
one more edit raises the number by one at most (`leastEdits_le_of_edit`). An edit can be made far
behind the characters that the recursion looks at, so this is shown for an edit of the first
character, and then carried over a common first character.

Backwards the same edits lead from one reversed text to the other, so that the number is also the
one of a recursion on the last characters (`leastEdits_reverse`).
-/

namespace RepoSelect

variable {m n : Nat} {s t u : List Char}

/-! ## One after the other -/

/-- One character is put in, taken out or replaced. -/
inductive Edit : List Char → List Char → Prop
  | insert (front back : List Char) (x : Char) : Edit (front ++ back) (front ++ x :: back)
  | delete (front back : List Char) (x : Char) : Edit (front ++ x :: back) (front ++ back)
  | substitute (front back : List Char) (x y : Char) :
      Edit (front ++ x :: back) (front ++ y :: back)

/-- That many edits lead from one text to the other. -/
inductive Edits : Nat → List Char → List Char → Prop
  | refl (s : List Char) : Edits 0 s s
  | tail {n : Nat} {s t u : List Char} (h : Edits n s t) (e : Edit t u) : Edits (n + 1) s u

namespace Edit

theorem cons (x : Char) (h : Edit s t) : Edit (x :: s) (x :: t) := by
  cases h with
  | insert front back y => exact .insert (x :: front) back y
  | delete front back y => exact .delete (x :: front) back y
  | substitute front back y z => exact .substitute (x :: front) back y z

theorem reverse (h : Edit s t) : Edit s.reverse t.reverse := by
  cases h with
  | insert front back x => simpa using Edit.insert back.reverse front.reverse x
  | delete front back x => simpa using Edit.delete back.reverse front.reverse x
  | substitute front back x y => simpa using Edit.substitute back.reverse front.reverse x y

end Edit

namespace Edits

theorem head (e : Edit s t) (h : Edits n t u) : Edits (n + 1) s u := by
  induction h with
  | refl t => exact .tail (.refl s) e
  | tail _ e' ih => exact .tail (ih e) e'

theorem cons (x : Char) (h : Edits n s t) : Edits n (x :: s) (x :: t) := by
  induction h with
  | refl s => exact .refl (x :: s)
  | tail _ e ih => exact .tail ih (e.cons x)

theorem reverse (h : Edits n s t) : Edits n s.reverse t.reverse := by
  induction h with
  | refl s => exact .refl s.reverse
  | tail _ e ih => exact .tail ih e.reverse

theorem shorter (h : Edits m s t) (h' : Edits n s t) : Edits (min m n) s t := by
  rcases Nat.le_total m n with hle | hle
  · rwa [Nat.min_eq_left hle]
  · rwa [Nat.min_eq_right hle]

theorem reverse_iff : Edits n s.reverse t.reverse ↔ Edits n s t :=
  ⟨fun h => by simpa using h.reverse, reverse⟩

end Edits

/-! ## How many it takes -/

/-- The number of edits, by recursion on the first characters. -/
def leastEdits : List Char → List Char → Nat
  | [], t => t.length
  | s, [] => s.length
  | x :: s, y :: t =>
    min (min (leastEdits s (y :: t) + 1) (leastEdits (x :: s) t + 1))
      (leastEdits s t + if x = y then 0 else 1)
termination_by s t => s.length + t.length

theorem leastEdits_nil_left (t : List Char) : leastEdits [] t = t.length := by
  rw [leastEdits]

theorem leastEdits_nil_right (s : List Char) : leastEdits s [] = s.length := by
  cases s <;> simp [leastEdits]

theorem leastEdits_cons_cons (x y : Char) (s t : List Char) :
    leastEdits (x :: s) (y :: t) =
      min (min (leastEdits s (y :: t) + 1) (leastEdits (x :: s) t + 1))
        (leastEdits s t + if x = y then 0 else 1) := by
  rw [leastEdits]

theorem edits_insert_all (t : List Char) : Edits t.length [] t := by
  induction t with
  | nil => exact .refl []
  | cons y t ih => exact ih.tail (.insert [] t y)

theorem edits_delete_all (s : List Char) : Edits s.length s [] := by
  induction s with
  | nil => exact .refl []
  | cons x s ih => exact ih.head (.delete [] s x)

theorem edits_leastEdits (s t : List Char) : Edits (leastEdits s t) s t := by
  fun_induction leastEdits s t with
  | case1 t => exact edits_insert_all t
  | case2 s _ => exact edits_delete_all s
  | case3 x s y t ihdelete ihinsert ihpair =>
    have hdelete : Edits (leastEdits s (y :: t) + 1) (x :: s) (y :: t) :=
      ihdelete.head (.delete [] s x)
    have hinsert : Edits (leastEdits (x :: s) t + 1) (x :: s) (y :: t) :=
      ihinsert.tail (.insert [] t y)
    have hpair : Edits (leastEdits s t + if x = y then 0 else 1) (x :: s) (y :: t) := by
      by_cases hxy : x = y
      · subst hxy
        simpa using ihpair.cons x
      · simpa [hxy] using (ihpair.cons x).tail (.substitute [] t x y)
    exact (hdelete.shorter hinsert).shorter hpair

/-! ## No fewer -/

theorem leastEdits_self (s : List Char) : leastEdits s s = 0 := by
  induction s with
  | nil => exact leastEdits_nil_left []
  | cons x s ih => simp [leastEdits_cons_cons, ih]

theorem leastEdits_cons_left_le (x : Char) (s t : List Char) :
    leastEdits (x :: s) t ≤ leastEdits s t + 1 := by
  cases t with
  | nil => simp [leastEdits_nil_right]
  | cons y t =>
    rw [leastEdits_cons_cons]
    omega

theorem leastEdits_insert_le (y : Char) (s t : List Char) :
    leastEdits s (y :: t) ≤ leastEdits s t + 1 := by
  cases s with
  | nil => simp [leastEdits_nil_left]
  | cons x s =>
    rw [leastEdits_cons_cons]
    omega

theorem leastEdits_delete_le (y : Char) (s t : List Char) :
    leastEdits s t ≤ leastEdits s (y :: t) + 1 := by
  induction s with
  | nil =>
    rw [leastEdits_nil_left, leastEdits_nil_left, List.length_cons]
    omega
  | cons x s ih =>
    have hleft := leastEdits_cons_left_le x s t
    rw [leastEdits_cons_cons]
    omega

theorem leastEdits_substitute_le (y z : Char) (s t : List Char) :
    leastEdits s (z :: t) ≤ leastEdits s (y :: t) + 1 := by
  induction s with
  | nil =>
    rw [leastEdits_nil_left, leastEdits_nil_left, List.length_cons, List.length_cons]
    omega
  | cons x s ih =>
    have hcost : (if x = z then 0 else 1) ≤ 1 := by
      split <;> omega
    rw [leastEdits_cons_cons, leastEdits_cons_cons]
    omega

/-- Behind a common first character an edit changes no more than it does without one. -/
theorem leastEdits_cons_le (x : Char) (h : ∀ s, leastEdits s u ≤ leastEdits s t + 1)
    (s : List Char) : leastEdits s (x :: u) ≤ leastEdits s (x :: t) + 1 := by
  induction s with
  | nil =>
    have hnil := h []
    rw [leastEdits_nil_left, leastEdits_nil_left] at hnil ⊢
    exact Nat.succ_le_succ hnil
  | cons y s ih =>
    have hinsert := h (y :: s)
    have hpair := h s
    rw [leastEdits_cons_cons, leastEdits_cons_cons]
    omega

theorem leastEdits_append_le (front : List Char) (h : ∀ s, leastEdits s u ≤ leastEdits s t + 1)
    (s : List Char) : leastEdits s (front ++ u) ≤ leastEdits s (front ++ t) + 1 := by
  induction front generalizing s with
  | nil => exact h s
  | cons x front ih => exact leastEdits_cons_le x ih s

theorem leastEdits_le_of_edit (s : List Char) (e : Edit t u) :
    leastEdits s u ≤ leastEdits s t + 1 := by
  cases e with
  | insert front back y =>
    exact leastEdits_append_le front (fun s => leastEdits_insert_le y s back) s
  | delete front back y =>
    exact leastEdits_append_le front (fun s => leastEdits_delete_le y s back) s
  | substitute front back y z =>
    exact leastEdits_append_le front (fun s => leastEdits_substitute_le y z s back) s

theorem leastEdits_le_of_edits (h : Edits n s t) : leastEdits s t ≤ n := by
  induction h with
  | refl s => exact (leastEdits_self s).le
  | @tail n s t u _ e ih =>
    have hedit := leastEdits_le_of_edit s e
    omega

theorem isLeast_leastEdits (s t : List Char) : IsLeast {n | Edits n s t} (leastEdits s t) :=
  ⟨edits_leastEdits s t, fun _ h => leastEdits_le_of_edits h⟩

theorem leastEdits_reverse (s t : List Char) :
    leastEdits s.reverse t.reverse = leastEdits s t := by
  have hreverse := isLeast_leastEdits s.reverse t.reverse
  simp only [Edits.reverse_iff] at hreverse
  exact hreverse.unique (isLeast_leastEdits s t)

end RepoSelect
