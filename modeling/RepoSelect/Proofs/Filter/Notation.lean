import RepoSelect.Filter.Group
import RepoSelect.Proofs.Filter.Selection
import RepoSelect.Proofs.Filter.Strip

/-!
# What set notation denotes

A filter can be read twice: its tokens are resolved into sets of repositories, and their names are
put together in set notation without looking at any label. The second reading loses nothing:

> If every name of a bucket is replaced by what it denotes, the bucket is the one that the filter
> resolves its tokens to (`labelGroup_resolved`).

In set notation a label and a repository are both just texts, and the label marker in front tells
them apart. That it does comes from the reading of tokens: what is left when the markers are taken
off starts with no marker (`Token.leading?_name`), so a plain name never looks like a label.
-/

namespace RepoSelect

/-! ## What a name denotes -/

/-- A name behind the label marker denotes the members of that label, none if it is unknown, and
any other name denotes itself. -/
def LabelIndex.denoted (ix : LabelIndex) (m : Markers) (name : String) : NameSet :=
  if m.label.toList.isPrefixOf name.toList then
    ix.members (String.ofList (name.toList.drop m.label.toList.length))
  else {name}

/-- What the names of a bucket denote together. -/
def Label.denoted (l : Label) (m : Markers) (ix : LabelIndex) : NameSet :=
  NameSet.unions (l.members.toList.map (ix.denoted m))

namespace LabelGroup

/-- The sets of repositories that the three buckets denote. -/
def resolved (g : LabelGroup) (m : Markers) (ix : LabelIndex) : Partition :=
  ⟨g.forced.denoted m ix, g.included.denoted m ix, g.excluded.denoted m ix⟩

end LabelGroup

section

variable {m : Markers} {ix : LabelIndex} {t : Token}

theorem LabelIndex.denoted_label (ix : LabelIndex) (m : Markers) (label : String) :
    ix.denoted m (m.label ++ label) = ix.members label := by
  have hmarked : m.label.toList.isPrefixOf (m.label ++ label).toList = true := by
    rw [List.isPrefixOf_iff_prefix, String.toList_append]
    exact List.prefix_append _ _
  rw [denoted, if_pos hmarked, String.toList_append, List.drop_left, String.ofList_toList]

/-- A name that no marker begins denotes itself. -/
theorem LabelIndex.denoted_plain {name : String} (hsize : m.size .label ≠ 0)
    (hlead : m.leading? name.toList = none) : ix.denoted m name = {name} := by
  have hbegins := Markers.leading?_eq_none.mp hlead .label
  rw [denoted, if_neg]
  intro hprefix
  have hmarked : m.begins .label name.toList = true :=
    Markers.begins_iff.mpr ⟨hsize, List.isPrefixOf_iff_prefix.mp hprefix⟩
  rw [hmarked] at hbegins
  cases hbegins

/-- A token is shown as a name that denotes what the token reaches. -/
theorem LabelIndex.denoted_displayName (hsize : m.size .label ≠ 0)
    (hlead : m.leading? t.name.toList = none) : ix.denoted m (t.displayName m) = ix.reach t := by
  unfold Token.displayName reach
  cases t.isLabel with
  | true => exact ix.denoted_label m t.name
  | false => exact denoted_plain hsize hlead

end

/-! ## What a group denotes -/

theorem Label.mem_denoted {l : Label} {m : Markers} {ix : LabelIndex} {r : String} :
    r ∈ l.denoted m ix ↔ ∃ name ∈ l.members, r ∈ ix.denoted m name := by
  rw [denoted, NameSet.mem_unions]
  constructor
  · rintro ⟨set, hset, hr⟩
    obtain ⟨name, hname, rfl⟩ := List.mem_map.mp hset
    exact ⟨name, Std.ExtTreeSet.mem_toList.mp hname, hr⟩
  · rintro ⟨name, hname, hr⟩
    exact ⟨_, List.mem_map_of_mem (Std.ExtTreeSet.mem_toList.mpr hname), hr⟩

namespace Filter

variable {f : Filter} {raw : List String} {ix : LabelIndex}

/-- No marker begins the name of a token that counts. -/
theorem Reads.leading?_name {t : Token} (h : f.Reads raw t) :
    f.markers.leading? t.name.toList = none := by
  obtain ⟨-, text, -, rfl⟩ := h
  exact Token.leading?_name f.markers text

/-- The names shown for a bucket denote what the tokens of the bucket reach. -/
theorem mem_denoted_shown {b : Bucket} {title r : String} (hsize : f.markers.size .label ≠ 0) :
    r ∈ Label.denoted ⟨title, .ofList
        (((f.tokens raw).filter (·.bucket = b)).map (·.displayName f.markers))⟩ f.markers ix
      ↔ f.Feeds raw ix b r := by
  rw [Label.mem_denoted]
  constructor
  · rintro ⟨name, hname, hr⟩
    rw [Std.ExtTreeSet.mem_ofList, List.contains_iff_mem] at hname
    obtain ⟨t, ht, rfl⟩ := List.mem_map.mp hname
    obtain ⟨ht, hb⟩ := List.mem_filter.mp ht
    have hreads := mem_tokens.mp ht
    rw [LabelIndex.denoted_displayName hsize hreads.leading?_name, LabelIndex.mem_reach] at hr
    exact ⟨t, hreads, of_decide_eq_true hb, hr⟩
  · rintro ⟨t, hreads, hb, hr⟩
    refine ⟨t.displayName f.markers, ?_, ?_⟩
    · rw [Std.ExtTreeSet.mem_ofList, List.contains_iff_mem]
      exact List.mem_map_of_mem
        (List.mem_filter.mpr ⟨mem_tokens.mpr hreads, decide_eq_true hb⟩)
    · rw [LabelIndex.denoted_displayName hsize hreads.leading?_name]
      exact LabelIndex.mem_reach.mpr hr

theorem resolved_labelGroup (hsize : f.markers.size .label ≠ 0) (raw : List String)
    (ix : LabelIndex) : (f.labelGroup raw).resolved f.markers ix = f.partition raw ix := by
  have hbucket (b : Bucket) (title : String) :
      Label.denoted ⟨title, .ofList
          (((f.tokens raw).filter (·.bucket = b)).map (·.displayName f.markers))⟩ f.markers ix
        = (f.partition raw ix).get b := by
    ext1 r
    rw [mem_denoted_shown hsize, mem_partition_get]
  have hforced := hbucket .forced "forced"
  have hincluded := hbucket .included "included"
  have hexcluded := hbucket .excluded "excluded"
  simp only [LabelGroup.resolved, labelGroup, hforced, hincluded, hexcluded, Partition.get]

/-- **Set notation means the selection.** Bucket by bucket the names that are shown denote what the
filter resolves its tokens to, and so what is forced, with what is included and not excluded, is
what the filter selects. -/
theorem labelGroup_resolved (f : Filter) (hcheck : f.markers.check = .ok ()) (raw : List String)
    (ix : LabelIndex) :
    (f.labelGroup raw).resolved f.markers ix = f.partition raw ix
      ∧ (∀ r, r ∈ f.evaluate raw ix ↔
          r ∈ (f.labelGroup raw).forced.denoted f.markers ix
            ∨ (r ∈ (f.labelGroup raw).included.denoted f.markers ix
              ∧ r ∉ (f.labelGroup raw).excluded.denoted f.markers ix)) := by
  have hpartition :=
    resolved_labelGroup (Markers.size_ne_zero_of_check hcheck .label) raw ix
  refine ⟨hpartition, fun r => ?_⟩
  rw [evaluate, Std.ExtTreeSet.mem_toList, ← hpartition, Partition.mem_selection]
  rfl

/-- A filter with markers that begin with one another. -/
def dashes : Filter := { markers := ⟨"-", "--", "-+"⟩, skipUnwanted := true, unwanted := ["old"] }

/-- Labels of which one has a repository of its own name. -/
def dashIndex : LabelIndex :=
  ((LabelIndex.empty.insert "ops" "api").insert "ops" "ops").insert "old" "api"

theorem dashes_resolved :
    dashes.markers.check = .ok ()
      ∧ (dashes.labelGroup ["-ops", "web", "-+-old", "--none"]).included.members.toList
          = ["-ops", "web"]
      ∧ (dashes.labelGroup ["-ops", "web", "-+-old", "--none"]).resolved dashes.markers dashIndex
          = dashes.partition ["-ops", "web", "-+-old", "--none"] dashIndex
      ∧ dashes.evaluate ["-ops", "web", "-+-old", "--none"] dashIndex = ["api", "ops", "web"] := by
  have hcheck : dashes.markers.check = .ok () := by rfl
  refine ⟨hcheck, by decide +kernel, ?_, by decide +kernel⟩
  exact (labelGroup_resolved dashes hcheck ["-ops", "web", "-+-old", "--none"] dashIndex).1

end Filter

end RepoSelect
