import RepoSelect.Proofs.Text.Run
import RepoSelect.Text.Blank

/-!
# Texts without blanks at their ends

Trimming takes a stretch out of a text (`trim_infix`). A text that is its own trimmed text starts
and ends with no blank (`ends_of_trim`), and where only the start of a text is blank, the text is
some blanks and the trimmed text (`exists_blanks`).
-/

namespace RepoSelect.Text

theorem trim_infix (s : List Char) : trim s <:+: s := by
  have hend : trimEnd (trimStart s) <+: trimStart s := by
    rw [trimEnd, ← List.reverse_suffix, List.reverse_reverse]
    exact List.dropWhile_suffix _
  exact hend.isInfix.trans (List.dropWhile_suffix _).isInfix

theorem isBlank_getLast_trimEnd {s : List Char} {c : Char}
    (h : (trimEnd s).getLast? = some c) : isBlank c = false := by
  rw [trimEnd, List.getLast?_reverse] at h
  have := List.head?_dropWhile_not isBlank s.reverse
  rw [h] at this
  simpa using this

theorem isBlank_getLast_trim {s : List Char} {c : Char} (h : (trim s).getLast? = some c) :
    isBlank c = false :=
  isBlank_getLast_trimEnd h

theorem ends_of_trim {s : List Char} (h : trim s = s) :
    (∀ c, s.head? = some c → isBlank c = false)
      ∧ (∀ c, s.getLast? = some c → isBlank c = false) := by
  refine ⟨fun c hc => ?_, fun c hc => ?_⟩
  · obtain ⟨r, rfl⟩ := List.head?_eq_some_iff.mp hc
    cases hblank : isBlank c with
    | false => rfl
    | true =>
      have hskip : trim (c :: r) = trim r := by
        rw [trim, trim, trimStart, List.dropWhile_cons_of_pos hblank, trimStart]
      have hinside := trim_infix r
      have hle := hinside.length_le
      rw [← hskip, h, List.length_cons] at hle
      exact absurd hle (Nat.not_succ_le_self _)
  · rw [← h] at hc
    exact isBlank_getLast_trimEnd hc

theorem trim_append {a b : List Char} (ha : trim a = a) (hb : trim b = b) :
    trim (a ++ b) = a ++ b := by
  obtain ⟨hheadA, hlastA⟩ := ends_of_trim ha
  obtain ⟨hheadB, hlastB⟩ := ends_of_trim hb
  refine trim_eq_self (fun c hc => ?_) (fun c hc => ?_)
  · rw [List.head?_append, Option.or_eq_some_iff] at hc
    rcases hc with hc | ⟨-, hc⟩
    · exact hheadA c hc
    · exact hheadB c hc
  · rw [List.getLast?_append, Option.or_eq_some_iff] at hc
    rcases hc with hc | ⟨-, hc⟩
    · exact hlastB c hc
    · exact hlastA c hc

/-- Without blanks at the end, only those in front are taken off. -/
theorem exists_blanks {s : List Char} (h : ∀ c, s.getLast? = some c → isBlank c = false) :
    ∃ blanks, s = blanks ++ trim s ∧ ∀ c ∈ blanks, isBlank c = true := by
  have hsplit : s.takeWhile isBlank ++ trimStart s = s := List.takeWhile_append_dropWhile
  have hend : trimEnd (trimStart s) = trimStart s := by
    refine trimEnd_of_getLast fun c hc => h c ?_
    rw [← hsplit, List.getLast?_append, hc, Option.some_or]
  refine ⟨s.takeWhile isBlank, ?_, List.all_eq_true.mp List.all_takeWhile⟩
  rw [trim, hend, hsplit]

/-- Blanks in front of a text are taken off it. -/
theorem trim_blanks_append {blanks s : List Char} (hblanks : ∀ c ∈ blanks, isBlank c = true)
    (hhead : ∀ c, s.head? = some c → isBlank c = false)
    (hlast : ∀ c, s.getLast? = some c → isBlank c = false) : trim (blanks ++ s) = s := by
  rw [trim, trimStart, dropWhile_append hblanks hhead, trimEnd_of_getLast hlast]

end RepoSelect.Text
