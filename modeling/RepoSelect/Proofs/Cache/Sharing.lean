import RepoSelect.Proofs.Cache.Load
import RepoSelect.Proofs.Cache.Outcome
import RepoSelect.Proofs.Cache.Savers

/-!
# Savers of one path

Those who save to a path and those who read from it are promised that a reader never finds part of
a record, and that everybody's record is saved (`Served`).

> The promise is kept as long as no two savers are at the draft at the same time. It is kept for all
> orders of their steps only if there are no two savers at all (`savers_served_iff`).

Of any two savers, the second one can open the draft while the first one has it open, and empty it
under its hands. The first one puts it in its place nevertheless, and a reader finds an empty
file. What the second one writes from then on goes to that file, under the eyes of its readers, and
in the end it finds no draft to put in its place.
-/

namespace RepoSelect.Cache

open FileTree

variable {ι : Type} {path : String} {content : ι → ByteArray} {t u v : FileTree}
  {draft place : Place} {i j : ι}

/-! ## What readers and savers are promised -/

/-- The texts of the records. -/
def textsOf (record : ι → CacheRecord) (i : ι) : ByteArray := (record i).print.toUTF8

/-- A path that a record can be saved to, with nothing there or a record. -/
structure Savable (path : String) (t : FileTree) : Prop where
  save_eq_ok : ∃ r u, save path r t = .ok () u
  /-- Making the directories does not change what there is to be read. -/
  read_ensured : read (treeAfter (ensureDirectories (folder path)) t) path = read t path
  missing_or_record : read t path = .error (.cacheMissing path) ∨ ∃ r, read t path = .ok r

/-- Every saver that has ended was successful, and a reader finds nothing only if nothing was there
and no saver has ended, or else a whole record: the one that was there or one that is saved. -/
structure Served (path : String) (record : ι → CacheRecord) (t : FileTree) (w : World ι) :
    Prop where
  ended_ok {i : ι} {outcome : Except IoFault Unit} (h : w.stage i = .ended outcome) :
    outcome = .ok ()
  found : (read w.files path = .error (.cacheMissing path)
      ∧ read t path = .error (.cacheMissing path) ∧ ∀ i outcome, w.stage i ≠ .ended outcome)
    ∨ ∃ r, read w.files path = .ok r ∧ (read t path = .ok r ∨ ∃ i, r = (record i).asWritten)

theorem served_start (h : Savable path t) (record : ι → CacheRecord) :
    Served path record t (.start t) := by
  refine ⟨nofun, ?_⟩
  rcases h.missing_or_record with hmissing | ⟨r, hread⟩
  · exact .inl ⟨hmissing, hmissing, nofun⟩
  · exact .inr ⟨r, hread, .inl hread⟩

theorem Savable.exists_ready (h : Savable path t) : ∃ v draft place,
    ensureDirectories (folder path) t = .ok () v ∧ Ready v path draft place
      ∧ read v path = read t path := by
  obtain ⟨r, u, hsave⟩ := h.save_eq_ok
  obtain ⟨v, draft, place, hensure, hready⟩ := exists_ready_of_saved hsave
  have hsame := h.read_ensured
  simp only [treeAfter, hensure] at hsame
  exact ⟨v, draft, place, hensure, hready, hsame⟩

theorem served_of_settled (h : Savable path t) {record : ι → CacheRecord} {w : World ι}
    (hready : Ready v path draft place) (hsame : read v path = read t path)
    (hsettled : Settled path (textsOf record) draft place (v.at? place) w u) :
    Served path record t w := by
  obtain ⟨hfiles, hat⟩ := hsettled.ready_files
  refine ⟨hsettled.ended_ok, ?_⟩
  rcases hsettled.found with ⟨hold, hgoing⟩ | ⟨i, hnew⟩
  · have hread : read w.files path = read t path := by
      rw [read_congr (hready.lookup_congr hfiles (hat.trans hold)), hsame]
    rcases h.missing_or_record with hmissing | ⟨r, hr⟩
    · exact .inl ⟨hread.trans hmissing, hmissing, hgoing⟩
    · exact .inr ⟨r, hread.trans hr, .inl hr⟩
  · have hlookup : w.files.lookup path = .ok (fileOf (record i)) :=
      hfiles.lookup_eq (hat.trans hnew)
    exact .inr ⟨_, read_of_lookup hlookup, .inr ⟨i, rfl⟩⟩

/-- No text of a record is empty, since the empty text is not read as a record. -/
theorem size_textsOf_pos (record : ι → CacheRecord) (i : ι) : 0 < (textsOf record i).size := by
  rw [Nat.pos_iff_ne_zero]
  intro hsize
  have hempty : (record i).print = "" := String.utf8ByteSize_eq_zero_iff.mp hsize
  have hparse := (record i).parse_print
  have hunread : (CacheRecord.parse "".toUTF8).toBool = false := by decide +kernel
  rw [hempty] at hparse
  rw [hparse] at hunread
  cases hunread

theorem read_empty {u : FileTree} (h : u.lookup path = .ok (.file .empty)) :
    ∃ message, read u path = .error (.cacheCorrupt path message) := by
  have hunread : (CacheRecord.parse .empty).toBool = false := by decide +kernel
  cases hparse : CacheRecord.parse .empty with
  | ok r =>
    rw [hparse] at hunread
    cases hunread
  | error f =>
    refine ⟨f.message, ?_⟩
    simp only [read, h, Entry.bytes, hparse]
    rfl

/-! ## Two at once -/

variable [DecidableEq ι]

/-- Two savers can come so far, and leave the files so. -/
def Meet (path : String) (content : ι → ByteArray) (t : FileTree) (i j : ι) (u : FileTree)
    (a b : Stage) : Prop :=
  ∃ w, Turns path content (.start t) w ∧ w.files = u ∧ w.stage i = a ∧ w.stage j = b

namespace Meet

variable {a b : Stage} {adv : Advance} {n : Nat}

theorem first (h : Meet path content t i j u a b) (hne : i ≠ j)
    (hadvance : advance path (content i) n u a = adv) :
    Meet path content t i j adv.files adv.stage (b.follow adv.moved) := by
  obtain ⟨w, hrun, rfl, rfl, rfl⟩ := h
  obtain ⟨hfiles, hself, hothers⟩ := w.step_spec i n hadvance
  exact ⟨_, hrun.tail ⟨i, n, rfl⟩, hfiles, hself, hothers j hne.symm⟩

theorem second (h : Meet path content t i j u a b) (hne : i ≠ j)
    (hadvance : advance path (content j) n u b = adv) :
    Meet path content t i j adv.files (a.follow adv.moved) adv.stage := by
  obtain ⟨w, hrun, rfl, rfl, rfl⟩ := h
  obtain ⟨hfiles, hself, hothers⟩ := w.step_spec j n hadvance
  exact ⟨_, hrun.tail ⟨j, n, rfl⟩, hfiles, hothers i hne, hself⟩

end Meet

/-- The second saver empties the draft that the first one has filled. -/
theorem meet_drafts (hensure : ensureDirectories (folder path) t = .ok () v)
    (hready : Ready v path draft place) (hne : i ≠ j) (hpos : 0 < (content i).size) :
    Meet path content t i j (v.put draft (.file .empty))
      (.writing (some draft) (content i).size) (.writing (some draft) 0) := by
  have hmade : advance path (content i) 0 t .begun = { files := v, stage := .prepared } := by
    simp only [advance, hensure]
  have hbegun : Meet path content t i j t .begun .begun := ⟨_, .refl, rfl, rfl, rfl⟩
  have hfirst : Meet path content t i j v .prepared .begun := hbegun.first hne hmade
  have hboth : Meet path content t i j v .prepared .prepared :=
    hfirst.second hne (hready.advance_begun (content j) 0)
  have hopen : Meet path content t i j (v.put draft (.file .empty)) (.writing (some draft) 0)
      .prepared := hboth.first hne (hready.advance_prepared (content i) 0)
  have hfull : Meet path content t i j (v.put draft (.file (content i)))
      (.writing (some draft) (content i).size) .prepared :=
    hopen.first hne (advance_whole hready.draft_ne_nil hpos)
  have hready' := hready.put hready.draft_ne_nil hready.draft_free (content i)
  have hreopen := hfull.second hne (hready'.advance_prepared (content j) 0)
  rwa [put_put] at hreopen

/-- The first saver puts the empty draft in place of the record, where the second one has it
open. -/
theorem meet_torn (hensure : ensureDirectories (folder path) t = .ok () v)
    (hready : Ready v path draft place) (hne : i ≠ j) (hpos : 0 < (content i).size) :
    Meet path content t i j (((v.put draft (.file .empty)).drop draft).put place (.file .empty))
      (.ended (.ok ())) (.writing (some place) 0) := by
  have hready' := hready.put hready.draft_ne_nil hready.draft_free .empty
  have hempty : (v.put draft (.file .empty)).at? draft = some (.file .empty) := by
    rw [at?_put _ _ _ hready.draft_ne_nil, if_pos rfl]
  have hplaced := (meet_drafts hensure hready hne hpos).first hne
    (hready'.advance_place hempty (Nat.le_refl _) (n := 0))
  simpa only [Stage.follow, Option.bind_some, if_true] using hplaced

/-- There is no draft left for the second saver to put in its place. -/
theorem meet_lost (hensure : ensureDirectories (folder path) t = .ok () v)
    (hready : Ready v path draft place) (hne : i ≠ j) (hpos : 0 < (content i).size)
    (hpos' : 0 < (content j).size) :
    ∃ u, Meet path content t i j u (.ended (.ok ())) (.ended (.error .notFound)) := by
  have hdrafted := hready.put hready.draft_ne_nil hready.draft_free .empty
  have hdropped := hdrafted.drop hready.draft_ne_nil hdrafted.draft_free
  have hready' := hdropped.put hready.place_ne_nil hdropped.place_free (content j)
  have hnone : (((v.put draft (.file .empty)).drop draft).put place (.file (content j))).at? draft
      = none := by
    rw [at?_put _ _ _ hready.place_ne_nil, if_neg hready.draft_ne_place.symm,
      at?_drop _ _ hready.draft_ne_nil, if_pos rfl]
  have hfull := (meet_torn hensure hready hne hpos).second hne
    (advance_whole hready.place_ne_nil hpos')
  have hmissing := hfull.second hne (hready'.advance_missing hnone (Nat.le_refl _) (n := 0))
  exact ⟨_, hmissing.second hne (hready'.advance_unplaced hnone .notFound (n := 0))⟩

/-! ## The promise -/

theorem exists_corrupt (h : Savable path t) (record : ι → CacheRecord) (hne : i ≠ j) :
    ∃ w message, Turns path (textsOf record) (.start t) w ∧ w.stage i = .ended (.ok ())
      ∧ read w.files path = .error (.cacheCorrupt path message) := by
  obtain ⟨v, draft, place, hensure, hready, -⟩ := h.exists_ready
  obtain ⟨w, hrun, hfiles, hi, -⟩ := meet_torn hensure hready hne (size_textsOf_pos record i)
  have hlookup : w.files.lookup path = .ok (.file .empty) := by
    rw [hfiles]
    refine (hready.saved .empty).lookup_eq ?_
    rw [at?_put _ _ _ hready.place_ne_nil, if_pos rfl]
  obtain ⟨message, hread⟩ := read_empty hlookup
  exact ⟨w, message, hrun, hi, hread⟩

theorem exists_unsaved (h : Savable path t) (record : ι → CacheRecord) (hne : i ≠ j) :
    ∃ w, Turns path (textsOf record) (.start t) w ∧ w.stage j = .ended (.error .notFound) := by
  obtain ⟨v, draft, place, hensure, hready, -⟩ := h.exists_ready
  obtain ⟨-, w, hrun, -, -, hj⟩ := meet_lost hensure hready hne (size_textsOf_pos record i)
    (size_textsOf_pos record j)
  exact ⟨w, hrun, hj⟩

/-- **Savers of one path** keep their promise if they leave the draft to each other. For all turns
that they can take they keep it only if there are no two of them: any two can take turns so that the
file is no record when one of them has saved, and so that the other one finds no draft to place. -/
theorem savers_served_iff (h : Savable path t) (record : ι → CacheRecord) :
    (∀ w, ExclusiveTurns path (textsOf record) (.start t) w → Served path record t w)
      ∧ ((∀ w, Turns path (textsOf record) (.start t) w → Served path record t w)
          ↔ Subsingleton ι)
      ∧ ∀ i j, i ≠ j →
          (∃ w message, Turns path (textsOf record) (.start t) w ∧ w.stage i = .ended (.ok ())
            ∧ read w.files path = .error (.cacheCorrupt path message))
          ∧ ∃ w, Turns path (textsOf record) (.start t) w
            ∧ w.stage j = .ended (.error .notFound) := by
  obtain ⟨v, draft, place, hensure, hready, hsame⟩ := h.exists_ready
  have hexclusive : ∀ w, ExclusiveTurns path (textsOf record) (.start t) w →
      Served path record t w := by
    intro w hrun
    rcases settled_of_turns hensure hready hrun with rfl | ⟨v', hsettled⟩
    · exact served_start h record
    · exact served_of_settled h hready hsame hsettled
  refine ⟨hexclusive, ⟨fun hall => ⟨fun i j => ?_⟩, fun hone w hrun => hexclusive w ?_⟩,
    fun i j hne => ⟨exists_corrupt h record hne, exists_unsaved h record hne⟩⟩
  · by_contra hne
    obtain ⟨w, hrun, hj⟩ := exists_unsaved h record hne
    cases (hall w hrun).ended_ok hj
  · have hturns : ∀ w w', Turn path (textsOf record) w w' →
        Turn path (textsOf record) w w' ∧ w'.Exclusive :=
      fun _ _ hturn => ⟨hturn, fun i j _ _ => Subsingleton.elim i j⟩
    exact Relation.ReflTransGen.mono hturns _ _ hrun

/-! ## Two savers in an empty directory -/

theorem savable_empty : Savable "c.json" {} := by
  refine ⟨⟨⟨Instant.epoch, ∅⟩, _, ready_empty.save_eq _⟩, ?_, .inl ?_⟩
  · simp only [treeAfter, ready_empty.ensure_eq]
  · have hmissing : ({} : FileTree).lookup "c.json" = .error .notFound := by decide +kernel
    rw [read, hmissing]

/-- An empty record and one with a repository. -/
def rivals : Bool → CacheRecord
  | false => ⟨Instant.epoch, ∅⟩
  | true => ⟨sampleStamp, (∅ : Catalog).insert "app" sampleRepository⟩

theorem rivals_served_in_turn :
    (∀ w, ExclusiveTurns "c.json" (textsOf rivals) (.start {}) w → Served "c.json" rivals {} w)
      ∧ ¬∀ w, Turns "c.json" (textsOf rivals) (.start {}) w → Served "c.json" rivals {} w := by
  obtain ⟨hexclusive, hall, -⟩ := savers_served_iff savable_empty rivals
  exact ⟨hexclusive, fun h => absurd ((hall.mp h).elim false true) Bool.false_ne_true⟩

/-- A reader finds a file that is no record, and a saver fails, although each of the two would save
its record if it were alone. -/
theorem rivals_collide :
    Savable "c.json" {}
      ∧ (∃ w message, Turns "c.json" (textsOf rivals) (.start {}) w
          ∧ read w.files "c.json" = .error (.cacheCorrupt "c.json" message))
      ∧ ∃ w, Turns "c.json" (textsOf rivals) (.start {}) w
          ∧ w.stage true = .ended (.error .notFound) := by
  obtain ⟨w, message, hrun, -, hread⟩ :=
    exists_corrupt savable_empty rivals Bool.false_ne_true
  exact ⟨savable_empty, ⟨w, message, hrun, hread⟩,
    exists_unsaved savable_empty rivals Bool.false_ne_true⟩

end RepoSelect.Cache
