import Mathlib.Data.List.Perm.Subperm
import Mathlib.Tactic.Tauto
import RepoSelect.Proofs.Filter.Selection
import RepoSelect.Proofs.Filter.Strip

/-!
# Unwanted labels

A filter that skips its unwanted labels should select what it selects otherwise, less the
members of those labels that the user's own tokens do not force (`Filter.SkipsUnwanted`). The
labels are skipped by tokens that are written out, a skip marker, a label marker and the name,
and then read like any other token, so the law depends on how that text is read:

> The law holds for all tokens and all label indexes if and only if the token written for each
> unwanted label is read as the one that skips this very label (`Markers.Restores`).

One half is the selection law. For the other one a single repository under a single label is
enough to see that *some* token skips the label. That it is the label's *own* token follows by
length: a name that is read is as long as the one that was written only if it is that name
(`name_eq_of_length_le`), so the longest names come from nowhere else.

If no marker is a prefix of another one, what it takes is plain (`restores_iff`): a name that
is not empty, does not end in a blank and starts with no marker.
-/

namespace RepoSelect

/-! ## The token of an unwanted label -/

namespace Markers

/-- The text that is put behind the user's tokens to skip a label. -/
def skipText (m : Markers) (label : String) : String := m.skip ++ m.label ++ label

/-- The text that skips a label is read as a token that does so. -/
def Restores (m : Markers) (label : String) : Prop :=
  label ≠ "" ∧ Token.read m (m.skipText label) = ⟨label, true, false, true⟩

theorem toList_skipText (m : Markers) (label : String) :
    (m.skipText label).toList
      = (m.text .skip).toList ++ ((m.text .label).toList ++ label.toList) := by
  simp [skipText, text]

theorem length_skipText (m : Markers) (label : String) :
    (m.skipText label).toList.length
      = m.size .skip + (m.size .label + label.toList.length) := by
  rw [toList_skipText, List.length_append, List.length_append, size, size]

variable {m : Markers} {label name : String}

/-- A token that is flagged as a skipped label has markers of both kinds in front. -/
theorem exists_run_of_flags
    (h : Token.read m (m.skipText label) = ⟨name, true, false, true⟩) :
    ∃ ks, m.concat ks ++ name.toList = Text.trim (m.skipText label).toList
      ∧ m.size .skip + m.size .label ≤ (m.concat ks).length := by
  have hrun := Token.concat_append_name m (m.skipText label)
  have hlabel := congrArg Token.isLabel h
  have hskip := congrArg Token.isSkipped h
  simp only [Token.read, Token.ofRun, List.contains_iff_mem] at hlabel hskip
  rw [h] at hrun
  exact ⟨_, hrun, size_add_size_le_length_concat (by decide) hskip hlabel⟩

/-- A name that comes out as long as it went in is the same name: nothing has been trimmed,
and the run of markers is no longer than the two that were written. -/
theorem name_eq_of_length_le
    (h : Token.read m (m.skipText label) = ⟨name, true, false, true⟩)
    (hlen : label.toList.length ≤ name.toList.length) : name = label := by
  obtain ⟨ks, hrun, hsize⟩ := exists_run_of_flags h
  have htrim := Text.trim_infix (m.skipText label).toList
  have htotal := congrArg List.length hrun
  rw [List.length_append] at htotal
  have hle := htrim.length_le
  rw [length_skipText] at hle
  have hwhole : Text.trim (m.skipText label).toList = (m.skipText label).toList := by
    refine htrim.eq_of_length ?_
    rw [length_skipText]
    omega
  rw [hwhole, toList_skipText, ← List.append_assoc] at hrun
  have hfront : (m.concat ks).length
      = ((m.text .skip).toList ++ (m.text .label).toList).length := by
    rw [List.length_append, ← size, ← size]
    omega
  exact String.toList_inj.mp (List.append_inj hrun hfront).2

/-! ## Markers none of which begins another -/

/-- With markers that have been checked and none of which begins another, a label is restored
if and only if its name can stand behind markers at all. -/
theorem restores_iff (hcheck : m.check = .ok ()) (hfree : m.PrefixFree) :
    m.Restores label ↔ label ≠ ""
      ∧ (∀ c, label.toList.getLast? = some c → isBlank c = false)
      ∧ m.leading? label.toList = none := by
  constructor
  · rintro ⟨hne, hread⟩
    have hname : (Token.read m (m.skipText label)).name = label := by rw [hread]
    refine ⟨hne, fun c hc => ?_, ?_⟩
    · rw [← hname] at hc
      exact Token.isBlank_getLast_name hc
    · rw [← hname]
      exact Token.leading?_name m _
  · rintro ⟨hne, hlast, hlead⟩
    have htrim : Text.trim (m.skipText label).toList = (m.skipText label).toList := by
      rw [toList_skipText]
      refine Text.trim_eq_self (fun c hc => ?_) (fun c hc => ?_)
      · have hskip : (m.text .skip).toList ≠ [] :=
          fun hnil => size_ne_zero_of_check hcheck .skip (congrArg List.length hnil)
        rw [List.head?_append_of_ne_nil _ hskip] at hc
        exact isBlank_of_check hcheck (List.mem_of_head? hc)
      · have hlabel : label.toList ≠ [] := fun hnil => hne (String.toList_eq_nil_iff.mp hnil)
        rw [← List.append_assoc, List.getLast?_append_of_ne_nil _ hlabel] at hc
        exact hlast c hc
    refine ⟨hne, ?_⟩
    rw [Token.read, htrim, toList_skipText,
      strip_text_append hfree (size_ne_zero_of_check hcheck .skip),
      strip_text_append hfree (size_ne_zero_of_check hcheck .label),
      strip_of_leading?_eq_none hlead]
    simp [Token.ofRun]

/-! ## A name that no marker touches -/

/-- Three markers cannot begin with four different characters. -/
theorem exists_plain_char (m : Markers) :
    ∃ c, isBlank c = false ∧ ∀ k, (m.text k).toList.head? ≠ some c := by
  have hplain : ∀ c ∈ ['0', '1', '2', '3'], isBlank c = false := by
    simp only [List.forall_mem_cons]
    exact ⟨rfl, rfl, rfl, rfl, fun c hc => absurd hc List.not_mem_nil⟩
  by_contra hnone
  have hsub : ['0', '1', '2', '3'] ⊆ MarkerKind.all.filterMap fun k => (m.text k).toList.head? := by
    intro c hc
    by_contra hmem
    exact hnone ⟨c, hplain c hc, fun k hk => hmem (List.mem_filterMap.mpr ⟨k, k.mem_all, hk⟩)⟩
  have hfour := (List.subperm_of_subset (by decide) hsub).length_le
  have hthree := List.length_filterMap_le (fun k => (m.text k).toList.head?) MarkerKind.all
  exact absurd (Nat.le_trans hfour hthree) (by decide)

theorem leading?_eq_none_of_head {c : Char} (h : ∀ k, (m.text k).toList.head? ≠ some c)
    (s : List Char) : m.leading? (c :: s) = none := by
  refine leading?_eq_none.mpr fun k => Bool.eq_false_iff.mpr fun hbegins => ?_
  obtain ⟨hsize, t, ht⟩ := begins_iff.mp hbegins
  cases hk : (m.text k).toList with
  | nil => exact hsize (congrArg List.length hk)
  | cons d rest =>
    rw [hk, List.cons_append] at ht
    obtain ⟨rfl, -⟩ := List.cons.inj ht
    exact h k (congrArg List.head? hk)

theorem exists_length_bound (names : List String) :
    ∃ n, ∀ s ∈ names, s.toList.length ≤ n := by
  induction names with
  | nil => exact ⟨0, fun s hs => absurd hs List.not_mem_nil⟩
  | cons name names ih =>
    obtain ⟨n, hn⟩ := ih
    refine ⟨max name.toList.length n, fun s hs => ?_⟩
    rcases List.mem_cons.mp hs with rfl | hs
    · exact Nat.le_max_left _ _
    · exact Nat.le_trans (hn s hs) (Nat.le_max_right _ _)

/-- Some name is read as itself and is none of those given. -/
theorem exists_plain_name (m : Markers) (names : List String) :
    ∃ x, x ≠ "" ∧ x ∉ names ∧ Token.read m x = { name := x } := by
  obtain ⟨c, hblank, hhead⟩ := m.exists_plain_char
  obtain ⟨n, hn⟩ := exists_length_bound names
  have hlist : (String.ofList (List.replicate (n + 1) c)).toList = List.replicate (n + 1) c :=
    String.toList_ofList
  refine ⟨String.ofList (List.replicate (n + 1) c), ?_, fun hmem => ?_, ?_⟩
  · intro hempty
    rw [hempty] at hlist
    cases hlist
  · have := hn _ hmem
    rw [hlist, List.length_replicate] at this
    omega
  · refine Token.read_plain ?_ ?_
    · rw [hlist, List.replicate_succ]
      exact leading?_eq_none_of_head hhead _
    · rw [hlist]
      refine Text.trim_eq_self (fun d hd => ?_) (fun d hd => ?_)
      · rw [List.eq_of_mem_replicate (List.mem_of_head? hd)]
        exact hblank
      · rw [List.eq_of_mem_replicate (List.mem_of_getLast? hd)]
        exact hblank

end Markers

/-! ## The law -/

namespace Filter

/-- The filter with its unwanted labels skipped or not. -/
def skipping (f : Filter) (skip : Bool) : Filter := { f with skipUnwanted := skip }

/-- The repository is a member of an unwanted label. -/
def Unwanted (f : Filter) (ix : LabelIndex) (r : String) : Prop :=
  ∃ l ∈ f.unwanted, r ∈ ix.members l

/-- Skipping the unwanted labels takes away the repositories that are unwanted and that no
forced token of the user's reaches, and adds nothing. -/
def SkipsUnwanted (f : Filter) : Prop :=
  ∀ raw ix r, r ∈ (f.skipping true).evaluate raw ix ↔
    r ∈ (f.skipping false).evaluate raw ix
      ∧ ¬(f.Unwanted ix r ∧ ¬(f.skipping false).Feeds raw ix .forced r)

variable {f : Filter} {raw : List String} {ix : LabelIndex} {r : String}

theorem reads_skipping_false {t : Token} :
    (f.skipping false).Reads raw t ↔ t.name ≠ "" ∧ ∃ text ∈ raw, Token.read f.markers text = t := by
  simp [Reads, expand, unwantedTokens, skipping]

/-- The tokens of the unwanted labels come on top of the user's. -/
theorem reads_skipping_true {t : Token} :
    (f.skipping true).Reads raw t ↔ (f.skipping false).Reads raw t
      ∨ (t.name ≠ "" ∧ ∃ l ∈ f.unwanted, Token.read f.markers (f.markers.skipText l) = t) := by
  have hexpand : ∀ text, text ∈ (f.skipping true).expand raw ↔
      text ∈ raw ∨ ∃ l ∈ f.unwanted, f.markers.skipText l = text := by
    intro text
    simp [expand, unwantedTokens, skipping, Markers.skipText]
  rw [reads_skipping_false, ← and_or_left, Reads]
  refine and_congr_right fun _ => ?_
  constructor
  · rintro ⟨text, htext, hread⟩
    rcases (hexpand text).1 htext with hraw | ⟨l, hl, rfl⟩
    · exact .inl ⟨text, hraw, hread⟩
    · exact .inr ⟨l, hl, hread⟩
  · rintro (⟨text, hraw, hread⟩ | ⟨l, hl, hread⟩)
    · exact ⟨text, (hexpand text).2 (.inl hraw), hread⟩
    · exact ⟨_, (hexpand _).2 (.inr ⟨l, hl, rfl⟩), hread⟩

/-! ### Restored labels are skipped -/

theorem feeds_skipping_true (h : ∀ l ∈ f.unwanted, f.markers.Restores l) {b : Bucket} :
    (f.skipping true).Feeds raw ix b r ↔
      (f.skipping false).Feeds raw ix b r ∨ (b = .excluded ∧ f.Unwanted ix r) := by
  constructor
  · rintro ⟨t, ht, rfl, hreach⟩
    rcases reads_skipping_true.mp ht with huser | ⟨-, l, hl, hread⟩
    · exact .inl ⟨t, huser, rfl, hreach⟩
    · rw [(h l hl).2] at hread
      subst hread
      exact .inr ⟨rfl, l, hl, (Token.reaches_label rfl).1 hreach⟩
  · rintro (⟨t, ht, hb, hreach⟩ | ⟨rfl, l, hl, hmem⟩)
    · exact ⟨t, reads_skipping_true.mpr (.inl ht), hb, hreach⟩
    · obtain ⟨hne, hread⟩ := h l hl
      exact ⟨⟨l, true, false, true⟩, reads_skipping_true.mpr (.inr ⟨hne, l, hl, hread⟩), rfl,
        (Token.reaches_label rfl).2 hmem⟩

theorem skipsUnwanted_of_restores (h : ∀ l ∈ f.unwanted, f.markers.Restores l) :
    f.SkipsUnwanted := by
  intro raw ix r
  simp only [mem_evaluate, feeds_skipping_true h, reduceCtorEq, false_and, or_false,
    true_and]
  tauto

/-! ### Skipped labels are restored -/

/-- One repository under the label `l` and a user who asks for it by name: the law takes it
away, so some token skips `l`, and none of the user's does. -/
theorem exists_token_of_skipsUnwanted (h : f.SkipsUnwanted) {l : String}
    (hl : l ∈ f.unwanted) :
    l ≠ "" ∧ ∃ l' ∈ f.unwanted,
      Token.read f.markers (f.markers.skipText l') = ⟨l, true, false, true⟩ := by
  obtain ⟨x, hx, hfresh, hread⟩ := f.markers.exists_plain_name
    (f.unwanted.map fun l' => (Token.read f.markers (f.markers.skipText l')).name)
  let ix := LabelIndex.empty.insert l x
  have hmembers : ∀ k r, r ∈ ix.members k ↔ k = l ∧ r = x := by
    intro k r
    rw [LabelIndex.mem_members_insert, or_iff_right LabelIndex.not_mem_members_empty]
  have huser : ∀ t, (f.skipping false).Reads [x] t ↔ t = { name := x } := by
    intro t
    rw [reads_skipping_false]
    constructor
    · rintro ⟨-, text, htext, ht⟩
      rw [List.mem_singleton.mp htext, hread] at ht
      exact ht.symm
    · rintro rfl
      exact ⟨hx, x, List.mem_singleton_self x, hread⟩
  have hgone : x ∉ (f.skipping true).evaluate [x] ix := by
    intro hmem
    refine ((h [x] ix x).1 hmem).2 ⟨⟨l, hl, (hmembers l x).2 ⟨rfl, rfl⟩⟩, ?_⟩
    rintro ⟨t, ht, hb, -⟩
    rw [(huser t).1 ht] at hb
    cases hb
  have hexcluded : (f.skipping true).Feeds [x] ix .excluded x := by
    by_contra hnot
    have hreads : (f.skipping true).Reads [x] { name := x } :=
      reads_skipping_true.mpr (.inl ((huser _).2 rfl))
    exact hgone (mem_evaluate.mpr (.inr ⟨⟨_, hreads, rfl, .name rfl⟩, hnot⟩))
  obtain ⟨t, ht, hb, hreach⟩ := hexcluded
  rcases reads_skipping_true.mp ht with hown | ⟨hne, l', hl', hread'⟩
  · rw [(huser t).1 hown] at hb
    cases hb
  obtain ⟨hskip, hforce⟩ := Token.bucket_eq_excluded.mp hb
  cases hlabel : t.isLabel with
  | false =>
    rw [Token.reaches_plain hlabel] at hreach
    exact absurd (List.mem_map.mpr ⟨l', hl', by rw [hread', hreach]⟩) hfresh
  | true =>
    rw [Token.reaches_label hlabel, hmembers] at hreach
    have ht' : t = ⟨l, true, false, true⟩ := by
      obtain ⟨name, isLabel, isForced, isSkipped⟩ := t
      simp_all
    rw [ht'] at hne hread'
    exact ⟨hne, l', hl', hread'⟩

/-- If each name of a list is read from some text of the list, each is read from its own: a
longest name among those that are not would have to come from a longer one. -/
theorem read_own_of_read_some {m : Markers} {names : List String}
    (h : ∀ l ∈ names, ∃ l' ∈ names, Token.read m (m.skipText l') = ⟨l, true, false, true⟩) :
    ∀ l ∈ names, Token.read m (m.skipText l) = ⟨l, true, false, true⟩ := by
  obtain ⟨n, hn⟩ := Markers.exists_length_bound names
  have hind : ∀ d, ∀ l ∈ names, n - l.toList.length < d →
      Token.read m (m.skipText l) = ⟨l, true, false, true⟩ := by
    intro d
    induction d with
    | zero => exact fun l _ hd => absurd hd (Nat.not_lt_zero _)
    | succ d ih =>
      intro l hl hd
      obtain ⟨l', hl', hread⟩ := h l hl
      rcases Nat.lt_or_ge l.toList.length l'.toList.length with hlt | hge
      · have hbound := hn l' hl'
        have hown := ih l' hl' (by omega)
        rw [hown] at hread
        rw [← (Token.mk.inj hread).1]
        exact hown
      · rw [Markers.name_eq_of_length_le hread hge]
        rwa [Markers.name_eq_of_length_le hread hge] at hread
  exact fun l hl => hind _ l hl (Nat.lt_succ_self _)

theorem restores_of_skipsUnwanted (h : f.SkipsUnwanted) :
    ∀ l ∈ f.unwanted, f.markers.Restores l := by
  have hown := read_own_of_read_some fun l hl => (exists_token_of_skipsUnwanted h hl).2
  exact fun l hl => ⟨(exists_token_of_skipsUnwanted h hl).1, hown l hl⟩

/-- **When unwanted labels are skipped.** The law holds exactly if each unwanted label is
restored from the token that is written for it. -/
theorem skipsUnwanted_iff_restores (f : Filter) :
    (f.SkipsUnwanted ↔ ∀ l ∈ f.unwanted, f.markers.Restores l)
      ∧ (f.markers.check = .ok () → f.markers.PrefixFree → ∀ l, f.markers.Restores l ↔
          l ≠ "" ∧ (∀ c, l.toList.getLast? = some c → isBlank c = false)
            ∧ f.markers.leading? l.toList = none) :=
  ⟨⟨restores_of_skipsUnwanted, skipsUnwanted_of_restores⟩,
    fun hcheck hfree _ => Markers.restores_iff hcheck hfree⟩

/-- With the default markers the token written for the unwanted label `+old` is `!~+old`, which
forces the label `old`: a repository that has the label `+old` stays selected, though it is
unwanted and the user's only token does not force it. -/
theorem unwanted_label_with_marker_stays :
    let f : Filter := { unwanted := ["+old"] }
    let ix := LabelIndex.empty.insert "+old" "app"
    f.markers.check = .ok () ∧ f.Unwanted ix "app"
      ∧ ¬(f.skipping false).Feeds ["app"] ix .forced "app"
      ∧ (f.skipping false).evaluate ["app"] ix = ["app"]
      ∧ (f.skipping true).evaluate ["app"] ix = ["app"]
      ∧ ¬f.SkipsUnwanted := by
  intro f ix
  have hunwanted : f.Unwanted ix "app" := ⟨"+old", by decide, by decide +kernel⟩
  have hunforced : ¬(f.skipping false).Feeds ["app"] ix .forced "app" := by
    rintro ⟨t, ht, hb, -⟩
    obtain ⟨-, text, htext, hread⟩ := reads_skipping_false.mp ht
    rw [List.mem_singleton.mp htext] at hread
    rw [← hread] at hb
    exact absurd hb (by decide +kernel)
  have hon : (f.skipping true).evaluate ["app"] ix = ["app"] := by decide +kernel
  refine ⟨by decide +kernel, hunwanted, hunforced, by decide +kernel, hon, fun hlaw => ?_⟩
  have hmem : "app" ∈ (f.skipping true).evaluate ["app"] ix := by
    rw [hon]
    exact List.mem_singleton_self _
  exact ((hlaw ["app"] ix "app").1 hmem).2 ⟨hunwanted, hunforced⟩

end Filter

end RepoSelect
