import RepoSelect.Filter.Basic
import RepoSelect.Proofs.Label.Members

/-!
# What a filter selects

Which repositories a selection holds, said of the tokens one by one and without the three
sets that the tokens feed:

> A repository is selected if and only if some forced token reaches it, or some token that is
> neither forced nor skipped reaches it and no token that is skipped and not forced does.

A label token reaches the members of its label and a plain token its own name (`Reaches`), and
only tokens that have a name count (`Filter.Reads`). Nothing is said of the order of the
tokens, and no token counts twice.

`mem_evaluate` is the membership half, by the buckets one at a time (`mem_partition_get`); the
order of the list comes from the set that it is read off (`evaluate_pairwise_lt`).
-/

namespace RepoSelect

/-! ## What a token reaches -/

/-- The repositories that a token stands for: a label token for the members of its label, none
if the label is unknown, and a plain token for the repository of its name. -/
inductive Token.Reaches (ix : LabelIndex) (t : Token) : String → Prop
  | member {repos : NameSet} {r : String} (hlabel : t.isLabel = true)
      (hget : ix.get? t.name = some repos) (hmem : r ∈ repos) : Reaches ix t r
  | name (hplain : t.isLabel = false) : Reaches ix t t.name

theorem Token.reaches_label {ix : LabelIndex} {t : Token} {r : String}
    (h : t.isLabel = true) : t.Reaches ix r ↔ r ∈ ix.members t.name := by
  rw [LabelIndex.mem_members]
  constructor
  · rintro (⟨-, hget, hmem⟩ | hplain)
    · exact ⟨_, hget, hmem⟩
    · rw [h] at hplain
      cases hplain
  · rintro ⟨repos, hget, hmem⟩
    exact .member h hget hmem

theorem Token.reaches_plain {ix : LabelIndex} {t : Token} {r : String}
    (h : t.isLabel = false) : t.Reaches ix r ↔ r = t.name := by
  constructor
  · rintro (⟨hlabel, -, -⟩ | -)
    · rw [h] at hlabel
      cases hlabel
    · rfl
  · rintro rfl
    exact .name h

theorem LabelIndex.mem_reach {ix : LabelIndex} {t : Token} {r : String} :
    r ∈ ix.reach t ↔ t.Reaches ix r := by
  unfold reach
  cases h : t.isLabel with
  | true => rw [if_pos rfl, Token.reaches_label h]
  | false =>
    rw [if_neg Bool.false_ne_true, Token.reaches_plain h, NameSet.mem_singleton]

/-! ## The tokens that count -/

namespace Filter

/-- `t` is read from one of the texts of the expanded list, and has a name. -/
def Reads (f : Filter) (raw : List String) (t : Token) : Prop :=
  t.name ≠ "" ∧ ∃ text ∈ f.expand raw, Token.read f.markers text = t

theorem mem_tokens {f : Filter} {raw : List String} {t : Token} :
    t ∈ f.tokens raw ↔ f.Reads raw t := by
  simp only [tokens, Reads, List.mem_filter, List.mem_map, decide_eq_true_eq]
  exact and_comm

/-- Some token of the bucket `b` reaches the repository. -/
def Feeds (f : Filter) (raw : List String) (ix : LabelIndex) (b : Bucket) (r : String) : Prop :=
  ∃ t, f.Reads raw t ∧ t.bucket = b ∧ t.Reaches ix r

theorem mem_partition_get {f : Filter} {raw : List String} {ix : LabelIndex} {b : Bucket}
    {r : String} : r ∈ (f.partition raw ix).get b ↔ f.Feeds raw ix b r := by
  have hfed : (f.partition raw ix).get b
      = NameSet.unions (((f.tokens raw).filter (·.bucket = b)).map ix.reach) := by
    cases b <;> rfl
  rw [hfed, NameSet.mem_unions]
  constructor
  · rintro ⟨set, hset, hr⟩
    obtain ⟨t, ht, rfl⟩ := List.mem_map.mp hset
    obtain ⟨ht, hb⟩ := List.mem_filter.mp ht
    exact ⟨t, mem_tokens.mp ht, of_decide_eq_true hb, LabelIndex.mem_reach.mp hr⟩
  · rintro ⟨t, ht, hb, hr⟩
    have hmem : t ∈ (f.tokens raw).filter (·.bucket = b) :=
      List.mem_filter.mpr ⟨mem_tokens.mpr ht, decide_eq_true hb⟩
    exact ⟨_, List.mem_map_of_mem hmem, LabelIndex.mem_reach.mpr hr⟩

end Filter

/-! ## Buckets as flags -/

namespace Token

theorem bucket_eq_forced {t : Token} : t.bucket = .forced ↔ t.isForced = true := by
  unfold bucket
  cases t.isForced <;> cases t.isSkipped <;> decide

theorem bucket_eq_included {t : Token} :
    t.bucket = .included ↔ t.isForced = false ∧ t.isSkipped = false := by
  unfold bucket
  cases t.isForced <;> cases t.isSkipped <;> decide

theorem bucket_eq_excluded {t : Token} :
    t.bucket = .excluded ↔ t.isSkipped = true ∧ t.isForced = false := by
  unfold bucket
  cases t.isForced <;> cases t.isSkipped <;> decide

end Token

/-! ## The selection -/

namespace Filter

theorem mem_evaluate {f : Filter} {raw : List String} {ix : LabelIndex} {r : String} :
    r ∈ f.evaluate raw ix ↔
      f.Feeds raw ix .forced r
        ∨ (f.Feeds raw ix .included r ∧ ¬f.Feeds raw ix .excluded r) := by
  rw [evaluate, Std.ExtTreeSet.mem_toList, Partition.mem_selection]
  exact or_congr (mem_partition_get (b := .forced))
    (and_congr (mem_partition_get (b := .included))
      (not_congr (mem_partition_get (b := .excluded))))

theorem evaluate_pairwise_lt (f : Filter) (raw : List String) (ix : LabelIndex) :
    (f.evaluate raw ix).Pairwise (· < ·) :=
  (f.partition raw ix).selection.pairwise_lt

/-- **The selection law.** Names are compared code point by code point. A filter that does not
sort may give its names in any order, and gives them in this one as well. -/
theorem mem_evaluate_iff_reaches (f : Filter) (raw : List String) (ix : LabelIndex) :
    (∀ r, r ∈ f.evaluate raw ix ↔
      (∃ t, f.Reads raw t ∧ t.isForced = true ∧ t.Reaches ix r)
        ∨ ((∃ t, f.Reads raw t ∧ (t.isForced = false ∧ t.isSkipped = false) ∧ t.Reaches ix r)
          ∧ ¬∃ t, f.Reads raw t ∧ (t.isSkipped = true ∧ t.isForced = false)
              ∧ t.Reaches ix r))
      ∧ (f.evaluate raw ix).Nodup
      ∧ (f.evaluate raw ix).Pairwise (· < ·) := by
  have hlt := f.evaluate_pairwise_lt raw ix
  refine ⟨fun r => ?_, hlt.imp fun hab heq => ?_, hlt⟩
  · rw [mem_evaluate]
    simp only [Feeds, Token.bucket_eq_forced, Token.bucket_eq_included,
      Token.bucket_eq_excluded]
  · rw [heq] at hab
    exact String.lt_irrefl _ hab

end Filter

end RepoSelect
