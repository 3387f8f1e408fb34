import RepoSelect.Path

/-!
# The directory above a path

How a path, its parent and its siblings are followed: all of them along the same components up to
the last one that counts (`components_eq`).

> A path is followed along some components, then its last name, then `.` any number of times. Its
> parent is followed along the same components without some `.` at their end, and the path with
> another extension along the same ones and another name.

Components are taken from the characters of a path (`pieces`), where the cuts are made.
-/

namespace RepoSelect.Path

/-- The components in a list of characters. -/
def pieces (s : List Char) : List String :=
  ((Text.splitAt '/' s).filter (· ≠ [])).map String.ofList

theorem components_ofList (s : List Char) : components (String.ofList s) = pieces s := by
  rw [components, String.toList_ofList, pieces]

theorem pieces_append_slash (a b : List Char) : pieces (a ++ '/' :: b) = pieces a ++ pieces b := by
  rw [pieces, Text.splitAt_append_cons, List.filter_append, List.map_append]
  rfl

theorem pieces_of_not_mem {s : List Char} (hne : s ≠ []) (h : '/' ∉ s) :
    pieces s = [String.ofList s] := by
  rw [pieces, Text.splitAt_of_not_mem h]
  simp [hne]

/-- Components that stay where they are. -/
def Idle (names : List String) : Prop := ∀ name ∈ names, name = "."

theorem idle_nil : Idle [] := nofun

/-- What does not count at the end of a path is `.` and nothing else. -/
theorem pieces_reverse_trimEnd (s : List Char) :
    ∃ dots, Idle dots ∧ pieces s.reverse = pieces (trimEnd s).reverse ++ dots := by
  fun_induction trimEnd s with
  | case1 => exact ⟨[], idle_nil, rfl⟩
  | case2 r hne ih =>
    obtain ⟨dots, hdots, heq⟩ := ih
    refine ⟨dots, hdots, ?_⟩
    rw [← heq, List.reverse_cons, pieces_append_slash]
    exact List.append_nil _
  | case3 r ih =>
    obtain ⟨dots, hdots, heq⟩ := ih
    refine ⟨dots ++ ["."], fun name h => ?_, ?_⟩
    · rcases List.mem_append.mp h with h | h
      · exact hdots name h
      · exact List.mem_singleton.mp h
    · have hdot : pieces ('.' :: '/' :: r).reverse = pieces ('/' :: r).reverse ++ ["."] := by
        rw [List.reverse_cons, List.reverse_cons, List.append_assoc, List.singleton_append,
          pieces_append_slash, pieces_append_slash]
        simp [pieces, Text.splitAt]
      rw [hdot, heq, List.append_assoc]
  | case4 => exact ⟨[], idle_nil, (List.append_nil _).symm⟩

theorem getLast?_trimEnd (s : List Char) : (trimEnd s).getLast? = s.getLast? := by
  fun_induction trimEnd s with
  | case1 => rfl
  | case2 r hne ih => rw [ih, List.getLast?_cons_of_ne_nil hne]
  | case3 r ih => rw [ih, List.getLast?_cons_cons]
  | case4 => rfl

theorem trimEnd_ne_dot_slash (s r : List Char) : trimEnd s ≠ '.' :: '/' :: r := by
  fun_induction trimEnd s with
  | case1 =>
    intro heq
    cases heq
  | case2 r' hne ih => exact ih
  | case3 r' ih => exact ih
  | case4 s _ hdot =>
    rintro rfl
    exact hdot r rfl

theorem trimEnd_suffix (s : List Char) : trimEnd s <:+ s := by
  fun_induction trimEnd s with
  | case1 => exact List.suffix_refl _
  | case2 r hne ih => exact ih.trans (List.suffix_cons '/' r)
  | case3 r ih => exact ih.trans (List.suffix_cons '.' _)
  | case4 s => exact List.suffix_refl s

/-! ## Cuts -/

theorem not_mem_takeWhile_ne (c : Char) (s : List Char) :
    c ∉ s.takeWhile fun d => decide (d ≠ c) := by
  intro hmem
  have hne := List.all_eq_true.mp List.all_takeWhile c hmem
  simp at hne

theorem eq_of_dropWhile_ne {c d : Char} {s r : List Char}
    (h : (s.dropWhile fun d => decide (d ≠ c)) = d :: r) : d = c := by
  have hhead := List.head?_dropWhile_not (fun d => decide (d ≠ c)) s
  rw [h] at hhead
  simpa using hhead

/-! ## The last name -/

/-- A text in front of a name: nothing, or a text up to a slash; in reverse. -/
def EndsInSlash (front : List Char) : Prop := front = [] ∨ ∃ f, front = '/' :: f

theorem pieces_front_append {front name : List Char} (hfront : EndsInSlash front)
    (hne : name ≠ []) (hname : '/' ∉ name) :
    pieces (front.reverse ++ name) = pieces front.reverse ++ [String.ofList name] := by
  rcases hfront with rfl | ⟨f, rfl⟩
  · exact pieces_of_not_mem hne hname
  · rw [List.reverse_cons, List.append_assoc, List.singleton_append, pieces_append_slash,
      pieces_append_slash, pieces_of_not_mem hne hname]
    exact congrArg (· ++ _) (List.append_nil _).symm

theorem isAbsolute_ofList {front name : List Char} (hfront : EndsInSlash front)
    (hname : '/' ∉ name) :
    isAbsolute (String.ofList (front.reverse ++ name)) = (front.getLast? = some '/') := by
  rw [isAbsolute, String.toList_ofList, decide_eq_true_eq]
  rcases hfront with rfl | ⟨f, rfl⟩
  · cases name with
    | nil => rfl
    | cons c name =>
      have hc : c ≠ '/' := fun h => hname (by simp [h])
      simpa using hc
  · simp [List.getLast?_cons]

/-- What the last name of a path is, and what stands in front of it. -/
theorem splitLast?_spec {p : String} {name front : List Char}
    (h : splitLast? p = some (name, front)) :
    trimEnd p.toList.reverse = name ++ front ∧ EndsInSlash front ∧ name ≠ [] ∧ '/' ∉ name := by
  unfold splitLast? at h
  split at h
  · cases h
  · cases h
  · next hnil hroot =>
    obtain ⟨rfl, rfl⟩ := Prod.mk.inj (Option.some.inj h)
    generalize hs : trimEnd p.toList.reverse = s at *
    refine ⟨(List.takeWhile_append_dropWhile ..).symm, ?_, ?_, ?_⟩
    · cases hfront : s.dropWhile (fun c => decide (c ≠ '/')) with
      | nil => exact .inl rfl
      | cons c f =>
        rw [eq_of_dropWhile_ne hfront]
        exact .inr ⟨f, rfl⟩
    · cases s with
      | nil => exact absurd rfl hnil
      | cons c r =>
        have hc : c ≠ '/' := by
          rintro rfl
          exact hroot (by rw [trimEnd_eq_cons_slash hs])
        simp [hc]
    · exact not_mem_takeWhile_ne '/' s

theorem components_eq {p : String} {name front : List Char}
    (h : splitLast? p = some (name, front)) :
    ∃ dots, Idle dots
      ∧ components p = pieces front.reverse ++ String.ofList name.reverse :: dots := by
  obtain ⟨htrim, hfront, hne, hname⟩ := splitLast?_spec h
  obtain ⟨dots, hdots, hpieces⟩ := pieces_reverse_trimEnd p.toList.reverse
  refine ⟨dots, hdots, ?_⟩
  have hp : components p = pieces p.toList.reverse.reverse := by rw [List.reverse_reverse]; rfl
  rw [hp, hpieces, htrim, List.reverse_append,
    pieces_front_append hfront (by simpa using hne) (by simpa using hname), List.append_assoc,
    List.singleton_append]

theorem isAbsolute_eq {p : String} {name front : List Char}
    (h : splitLast? p = some (name, front)) : isAbsolute p = (front.getLast? = some '/') := by
  obtain ⟨htrim, hfront, hne, hname⟩ := splitLast?_spec h
  have hlast : p.toList.head? = (front.reverse ++ name.reverse).head? := by
    rw [← List.reverse_append, List.head?_reverse, ← htrim, getLast?_trimEnd,
      List.getLast?_reverse]
  have hname' : '/' ∉ name.reverse := by simpa using hname
  rw [← isAbsolute_ofList hfront hname', isAbsolute,
    isAbsolute, hlast, String.toList_ofList]

/-! ## Parents and siblings -/

/-- A parent is followed along the components of the path in front of its last name. -/
theorem components_parent? {p q : String} (h : parent? p = some q) :
    isAbsolute q = isAbsolute p ∧ ∃ dots name dots', Idle dots ∧ Idle dots'
      ∧ components p = components q ++ (dots ++ name :: dots') ∧ (name = "." → q = "") := by
  rw [parent?, Option.map_eq_some_iff] at h
  obtain ⟨⟨name, front⟩, hsplit, rfl⟩ := h
  obtain ⟨dots', hdots', hp⟩ := components_eq hsplit
  obtain ⟨dots, hdots, hpieces⟩ := pieces_reverse_trimEnd front
  constructor
  · have habs := isAbsolute_eq hsplit
    rw [← getLast?_trimEnd, ← List.head?_reverse] at habs
    rw [Bool.eq_iff_iff, isAbsolute, String.toList_ofList, decide_eq_true_eq, habs]
  · refine ⟨dots, String.ofList name.reverse, dots', hdots, hdots', ?_, fun hdot => ?_⟩
    · rw [hp, hpieces, components_ofList, List.append_assoc]
    · obtain ⟨htrim, hfront, -, -⟩ := splitLast?_spec hsplit
      have hname : name = ['.'] := by simpa using congrArg (fun s => s.toList.reverse) hdot
      rcases hfront with rfl | ⟨f, rfl⟩
      · simp [trimEnd]
      · rw [hname] at htrim
        exact absurd htrim (trimEnd_ne_dot_slash _ f)

/-- A path goes on where its parent ends. -/
theorem parent?_prefix {p q : String} (h : parent? p = some q) : q.toList <+: p.toList := by
  rw [parent?, Option.map_eq_some_iff] at h
  obtain ⟨⟨name, front⟩, hsplit, rfl⟩ := h
  obtain ⟨htrim, -, -, -⟩ := splitLast?_spec hsplit
  have hfront : trimEnd front <:+ p.toList.reverse := by
    refine (trimEnd_suffix front).trans ((List.suffix_append name front).trans ?_)
    rw [← htrim]
    exact trimEnd_suffix _
  rw [String.toList_ofList, ← List.reverse_suffix, List.reverse_reverse]
  exact hfront

/-- A file name is its stem, and nothing or a dot and an extension without one. -/
theorem splitName_stem (name : String) :
    ∃ tail, name.toList = (splitName name).1.toList ++ tail
      ∧ (tail = [] ∨ ∃ ext, tail = '.' :: ext ∧ '.' ∉ ext) := by
  simp only [splitName]
  split
  · exact ⟨[], by simp, .inl rfl⟩
  · exact ⟨[], by simp, .inl rfl⟩
  · next c stem _ hstem =>
    have hwhole := List.takeWhile_append_dropWhile (p := fun c => decide (c ≠ '.'))
      (l := name.toList.reverse)
    obtain rfl : c = '.' := eq_of_dropWhile_ne hstem
    rw [hstem] at hwhole
    rw [← List.reverse_inj, List.reverse_reverse, List.reverse_append, List.reverse_cons,
      List.append_assoc, List.singleton_append] at hwhole
    refine ⟨'.' :: (name.toList.reverse.takeWhile fun c => decide (c ≠ '.')).reverse, ?_,
      .inr ⟨_, rfl, ?_⟩⟩
    · rw [String.toList_ofList]
      exact hwhole.symm
    · rw [List.mem_reverse]
      exact not_mem_takeWhile_ne '.' _

theorem fileName?_eq_some {p name : String} (h : fileName? p = some name) :
    ∃ front, splitLast? p = some (name.toList.reverse, front) ∧ name ≠ "." ∧ name ≠ ".." := by
  unfold fileName? at h
  split at h
  · cases h
  · next reversed front hsplit =>
    split at h
    · cases h
    · next hdots =>
      rw [not_or] at hdots
      obtain rfl := Option.some.inj h
      refine ⟨front, by simpa using hsplit, ?_, ?_⟩
      · intro heq
        exact hdots.1 (by simpa using congrArg (fun s => s.toList.reverse) heq)
      · intro heq
        exact hdots.2 (by simpa using congrArg (fun s => s.toList.reverse) heq)

/-- A path without a file name ends at a directory. -/
theorem last_of_fileName?_eq_none {p name : String} {front : List String}
    (h : fileName? p = none) (hp : components p = front ++ [name]) : name = "." ∨ name = ".." := by
  have hlast : (components p).getLast? = some name := by rw [hp, List.getLast?_concat]
  unfold fileName? at h
  split at h
  · next hsplit =>
    obtain ⟨dots, hdots, hpieces⟩ := pieces_reverse_trimEnd p.toList.reverse
    have hnone : pieces (trimEnd p.toList.reverse).reverse = [] := by
      unfold splitLast? at hsplit
      split at hsplit
      · next hnil => rw [hnil]; rfl
      · next hroot => rw [hroot]; rfl
      · cases hsplit
    rw [List.reverse_reverse, hnone, List.nil_append] at hpieces
    have hcomponents : components p = dots := hpieces
    rw [hcomponents] at hlast
    exact .inl (hdots name (List.mem_of_getLast? hlast))
  · next reversed front' hsplit =>
    split at h
    · next hname =>
      obtain ⟨dots, hdots, hcomponents⟩ := components_eq hsplit
      rw [hcomponents, List.getLast?_append] at hlast
      cases hd : dots.getLast? with
      | some d =>
        simp only [List.getLast?_cons, hd, Option.getD_some, Option.some_or, Option.some.injEq]
          at hlast
        exact .inl (hlast ▸ hdots d (List.mem_of_getLast? hd))
      | none =>
        simp only [List.getLast?_cons, hd, Option.getD_none, Option.some_or, Option.some.injEq]
          at hlast
        rw [← hlast]
        rcases hname with rfl | rfl
        · exact .inl rfl
        · exact .inr rfl
    · cases h

/-- Another extension with a dot in it makes another name. -/
theorem stem_append_ne {ext : String} (hext : '.' ∈ ext.toList) (name : String) :
    (splitName name).1 ++ "." ++ ext ≠ name := by
  intro heq
  obtain ⟨tail, htail, hcases⟩ := splitName_stem name
  have hlist := congrArg String.toList heq
  rw [htail, String.toList_append, String.toList_append, List.append_assoc,
    List.append_cancel_left_eq] at hlist
  rcases hcases with rfl | ⟨ext', rfl, hdot⟩
  · simp at hlist
  · rw [← (List.cons.inj hlist).2] at hdot
    exact hdot hext

/-- A path with another extension is followed along the same components, up to its name. -/
theorem components_withExtension {p name : String} (h : fileName? p = some name) {ext : String}
    (hext : '/' ∉ ext.toList) :
    isAbsolute (withExtension p ext) = isAbsolute p
      ∧ ∃ front dots, Idle dots ∧ components p = front ++ name :: dots
        ∧ components (withExtension p ext) = front ++ [(splitName name).1 ++ "." ++ ext] := by
  obtain ⟨front, hsplit, -, -⟩ := fileName?_eq_some h
  obtain ⟨dots, hdots, hp⟩ := components_eq hsplit
  obtain ⟨-, hfront, -, hname⟩ := splitLast?_spec hsplit
  obtain ⟨tail, htail, -⟩ := splitName_stem name
  have hsibling : withExtension p ext
      = String.ofList (front.reverse ++ ((splitName name).1 ++ "." ++ ext).toList) := by
    rw [withExtension, hsplit, h]
    simp [← String.toList_inj]
  have hslash : '/' ∉ ((splitName name).1 ++ "." ++ ext).toList := by
    have hstem : '/' ∉ (splitName name).1.toList := by
      rw [List.mem_reverse, htail, List.mem_append, not_or] at hname
      exact hname.1
    simp [hstem, hext]
  constructor
  · rw [Bool.eq_iff_iff, hsibling, isAbsolute_ofList hfront hslash, isAbsolute_eq hsplit]
  · refine ⟨pieces front.reverse, dots, hdots, by simpa using hp, ?_⟩
    rw [hsibling, components_ofList, pieces_front_append hfront (by simp) hslash,
      String.ofList_toList]

end RepoSelect.Path
