import Mathlib.Tactic.Tauto
import RepoSelect.Filter.Group
import RepoSelect.Proofs.Filter.Selection

/-!
# A filter is a set of tokens

Tokens are looked at one after the other, and each one adds names to its bucket. The order in which
they come and how often they come make no difference:

> What a filter selects, and how it is shown, depends on which raw tokens there are, and two lists
> of tokens in a row feed each bucket what the two of them feed it alone (`order_immaterial`).

Selecting and showing are the same walk over the tokens, with other names added at each step
(`Partition.feed`): the repositories that the token reaches or the name that it is shown as
(`partition_eq_foldl`, `labelGroup_eq_foldl`). A step adds to one bucket and takes nothing away
(`mem_get_feed`), so what a bucket holds after the walk is said without any order
(`mem_get_walk`).
-/

namespace RepoSelect

/-! ## One token after the other -/

namespace Partition

variable {names : Token → NameSet} {p q : Partition} {t : Token} {ts us : List Token}
  {b : Bucket} {r : String}

def empty : Partition := ⟨∅, ∅, ∅⟩

/-- The names of both, bucket by bucket. -/
def union (p q : Partition) : Partition :=
  ⟨p.forced ∪ q.forced, p.included ∪ q.included, p.excluded ∪ q.excluded⟩

/-- Adds the names of a token to the token's bucket. -/
def feed (names : Token → NameSet) (p : Partition) (t : Token) : Partition :=
  match t.bucket with
  | .forced => { p with forced := p.forced ∪ names t }
  | .excluded => { p with excluded := p.excluded ∪ names t }
  | .included => { p with included := p.included ∪ names t }

theorem ext_get (h : ∀ b r, r ∈ p.get b ↔ r ∈ q.get b) : p = q := by
  obtain ⟨forced, included, excluded⟩ := p
  have hforced : forced = q.forced := Std.ExtTreeSet.ext_mem (h .forced)
  have hincluded : included = q.included := Std.ExtTreeSet.ext_mem (h .included)
  have hexcluded : excluded = q.excluded := Std.ExtTreeSet.ext_mem (h .excluded)
  rw [hforced, hincluded, hexcluded]

theorem mem_get_union : r ∈ (p.union q).get b ↔ r ∈ p.get b ∨ r ∈ q.get b := by
  cases b <;> exact Std.ExtTreeSet.mem_union_iff

theorem not_mem_get_empty : r ∉ empty.get b := by
  cases b <;> exact Std.ExtTreeSet.not_mem_empty

theorem mem_get_feed : r ∈ (p.feed names t).get b ↔ r ∈ p.get b ∨ (t.bucket = b ∧ r ∈ names t) := by
  unfold feed
  cases hbucket : t.bucket <;> cases b <;>
    simp [get, Std.ExtTreeSet.mem_union_iff]

theorem mem_get_foldl_feed :
    r ∈ (ts.foldl (feed names) p).get b
      ↔ r ∈ p.get b ∨ ∃ t ∈ ts, t.bucket = b ∧ r ∈ names t := by
  induction ts generalizing p with
  | nil => simp
  | cons t ts ih =>
    rw [List.foldl_cons, ih, mem_get_feed, or_assoc]
    simp only [List.mem_cons, exists_eq_or_imp]

theorem mem_get_walk :
    r ∈ (ts.foldl (feed names) empty).get b ↔ ∃ t ∈ ts, t.bucket = b ∧ r ∈ names t := by
  rw [mem_get_foldl_feed, or_iff_right not_mem_get_empty]

/-- The walk forgets in which order the tokens came, and how often. -/
theorem foldl_feed_congr (h : ∀ t, t ∈ ts ↔ t ∈ us) :
    ts.foldl (feed names) p = us.foldl (feed names) p := by
  refine ext_get fun b r => ?_
  rw [mem_get_foldl_feed, mem_get_foldl_feed]
  simp only [h]

theorem foldl_feed_append :
    (ts ++ us).foldl (feed names) empty
      = (ts.foldl (feed names) empty).union (us.foldl (feed names) empty) := by
  refine ext_get fun b r => ?_
  rw [mem_get_union, mem_get_walk, mem_get_walk, mem_get_walk]
  simp only [List.mem_append, or_and_right, exists_or]

end Partition

/-! ## Selecting and showing -/

/-- The three buckets of names under their titles. -/
def LabelGroup.titled (sorted : Bool) (p : Partition) : LabelGroup where
  forced := ⟨"forced", p.forced⟩
  included := ⟨"included", p.included⟩
  excluded := ⟨"excluded", p.excluded⟩
  sorted := sorted

namespace Filter

variable {f : Filter} {a b : List String}

theorem partition_eq_foldl (f : Filter) (raw : List String) (ix : LabelIndex) :
    f.partition raw ix = (f.tokens raw).foldl (Partition.feed ix.reach) .empty := by
  refine Partition.ext_get fun b r => ?_
  rw [mem_partition_get, Partition.mem_get_walk]
  simp only [Feeds, mem_tokens, LabelIndex.mem_reach]

/-- The names that are shown for a bucket are the ones that the walk leaves in it. -/
theorem shown_eq_foldl (f : Filter) (raw : List String) (bucket : Bucket) :
    (Std.ExtTreeSet.ofList
        (((f.tokens raw).filter (·.bucket = bucket)).map (·.displayName f.markers)) : NameSet)
      = ((f.tokens raw).foldl (Partition.feed fun t => {t.displayName f.markers}) .empty).get
          bucket := by
  refine Std.ExtTreeSet.ext_mem fun name => ?_
  rw [Partition.mem_get_walk, Std.ExtTreeSet.mem_ofList, List.contains_iff_mem, List.mem_map]
  simp only [List.mem_filter, decide_eq_true_eq, NameSet.mem_singleton, and_assoc,
    eq_comm (a := name)]

theorem labelGroup_eq_foldl (f : Filter) (raw : List String) :
    f.labelGroup raw = .titled f.sort
      ((f.tokens raw).foldl (Partition.feed fun t => {t.displayName f.markers}) .empty) := by
  simp only [labelGroup, shown_eq_foldl]
  rfl

/-! ## The tokens of a list -/

theorem mem_tokens_congr (h : ∀ text, text ∈ a ↔ text ∈ b) (t : Token) :
    t ∈ f.tokens a ↔ t ∈ f.tokens b := by
  simp only [mem_tokens, Reads, expand, List.mem_append, h]

/-- The tokens that skip the unwanted labels stand behind each of the lists. -/
theorem mem_tokens_append (t : Token) :
    t ∈ f.tokens (a ++ b) ↔ t ∈ f.tokens a ++ f.tokens b := by
  have hexpand (text : String) :
      text ∈ f.expand (a ++ b) ↔ text ∈ f.expand a ∨ text ∈ f.expand b := by
    simp only [expand, List.mem_append]
    tauto
  simp only [List.mem_append, mem_tokens, Reads, hexpand, or_and_right, exists_or, and_or_left]

/-- **Order and repetition do not matter.** Lists that hold the same raw tokens are resolved into
the same sets, select the same repositories and are shown as the same groups of names, and what a
list of tokens and another one behind it are resolved into is the union of what each of them is. -/
theorem order_immaterial (f : Filter) (ix : LabelIndex) :
    (∀ a b : List String, (∀ text, text ∈ a ↔ text ∈ b) →
        f.partition a ix = f.partition b ix
          ∧ f.evaluate a ix = f.evaluate b ix
          ∧ f.labelGroup a = f.labelGroup b)
      ∧ ∀ a b : List String,
          f.partition (a ++ b) ix = (f.partition a ix).union (f.partition b ix) := by
  refine ⟨fun a b h => ?_, fun a b => ?_⟩
  · have htokens := mem_tokens_congr (f := f) h
    have hpartition : f.partition a ix = f.partition b ix := by
      rw [partition_eq_foldl, partition_eq_foldl, Partition.foldl_feed_congr htokens]
    refine ⟨hpartition, ?_, ?_⟩
    · rw [evaluate, evaluate, hpartition]
    · rw [labelGroup_eq_foldl, labelGroup_eq_foldl, Partition.foldl_feed_congr htokens]
  · rw [partition_eq_foldl, partition_eq_foldl, partition_eq_foldl,
      Partition.foldl_feed_congr mem_tokens_append, Partition.foldl_feed_append]

/-- Labels of which one is unwanted and shares a repository with the other. -/
def sharingIndex : LabelIndex :=
  (((LabelIndex.empty.insert "ops" "api").insert "ops" "db").insert "ops" "web").insert "old" "web"

theorem shuffled_tokens_alike :
    let f : Filter := { skipUnwanted := true, unwanted := ["old"] }
    let a := ["~ops", "+cli", "!api", "~ops", "+~none"]
    let b := ["+~none", "!api", "!api", "~ops", "+cli"]
    (∀ text, text ∈ a ↔ text ∈ b)
      ∧ f.partition a sharingIndex = f.partition b sharingIndex
      ∧ f.labelGroup a = f.labelGroup b
      ∧ f.evaluate a sharingIndex = ["cli", "db"]
      ∧ f.evaluate b sharingIndex = ["cli", "db"] := by
  intro f a b
  have hsame : ∀ text, text ∈ a ↔ text ∈ b := by
    intro text
    simp only [a, b, List.mem_cons, List.not_mem_nil]
    tauto
  obtain ⟨hpartition, hevaluate, hgroup⟩ := (order_immaterial f sharingIndex).1 a b hsame
  have hselected : f.evaluate a sharingIndex = ["cli", "db"] := by decide +kernel
  exact ⟨hsame, hpartition, hgroup, hselected, hevaluate ▸ hselected⟩

end Filter

end RepoSelect
