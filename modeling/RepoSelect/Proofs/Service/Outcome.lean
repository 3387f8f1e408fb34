import RepoSelect.Proofs.Cache.Save
import RepoSelect.Proofs.Service.Fetch
import RepoSelect.Proofs.Service.Run
import RepoSelect.Service.Query

/-!
# What a filled service is left with

How a call that fills a service ended says what the service holds and what the cache has:

> A failure leaves both as they were, unless the cache could not be written; then the whole fetch is
> held and the cache still has what it had. After a success from the providers both have the
> whole fetch. Part of a fetch is never held, and no record of one is written (`populate_outcome`).

What a disk that fills up can leave behind is the beginning of the record of a whole fetch, in the
place of the draft, never where the path leads. Nobody reads it as a record of less: it is none.

A path that led nowhere is the one case where the cache can change although it was not
written: on the way to the folder of `a/b/../c.json` the directory `a/b` is created, and if
`a/c.json` is there, the path leads to it from then on (`unwritten_cache_appears`). Paths
without `..` are not like that.

A service whose provider broke down is poisoned, and answers nothing any more
(`answersPoisoned`).
-/

namespace RepoSelect.Service

open FileTree

variable {disk : Disk} {s s' : Service} {t t' : FileTree} {clock : Clock} {refresh : Bool}
  {outcome : Except Mishap Origin} {asked : List String}

/-! ## Poisoned services -/

/-- Whoever asks for what the service holds, or wants to change it, is told that the lock is
poisoned. The cache file is removed before the lock is asked for. -/
structure AnswersPoisoned (s : Service) : Prop where
  populate (disk : Disk) (refresh : Bool) (t : FileTree) (clock : Clock) :
    (s.populateOn disk refresh t clock).outcome = .error (.failed poisoned)
  flush {t t' : FileTree} {removed : Bool} (h : Cache.flush s.cachePath t = .ok removed t') :
    (s.flush t).outcome = .error (.failed poisoned)
  replace (catalog : Catalog) : s.replace catalog = .error poisoned
  view : s.view = .error poisoned
  select (tokens : List String) : s.select tokens = .error poisoned
  repository? (name : String) : s.repository? name = .error poisoned
  defaultBranch? (name : String) : s.defaultBranch? name = .error poisoned
  size : s.size = .error poisoned
  completions (typed : String) : s.completions typed = .error poisoned

theorem answersPoisoned (h : s.isPoisoned = true) : s.AnswersPoisoned := by
  have hview : s.view = .error poisoned := by rw [view, if_pos h]
  have hrepository : ∀ name, s.repository? name = .error poisoned := by
    intro name
    simp [Service.repository?, hview, bind, Except.bind]
  refine ⟨fun disk refresh t clock => ?_, fun {t t' removed} hflush => ?_, fun catalog => ?_, hview,
    fun tokens => ?_, hrepository, fun name => ?_, ?_, fun typed => ?_⟩
  · rw [Service.populateOn, if_pos h]
  · simp [Service.flush, hflush, h]
  · simp [Service.replace, hview, bind, Except.bind]
  · simp [Service.select, hview, bind, Except.bind]
  · simp [Service.defaultBranch?, hrepository, bind, Except.bind]
  · simp [Service.size, hview, bind, Except.bind]
  · simp [Service.completions, hview, bind, Except.bind]

/-! ## The outcomes one by one -/

namespace Populates

theorem of_failed {f : Failure}
    (h : Populates disk s t clock refresh (.error (.failed f)) s' t' asked)
    (hf : ∀ path fault, f ≠ .cacheWrite path fault) : s' = s ∧ t' = t := by
  cases h with
  | poisoned => exact ⟨rfl, rfl⟩
  | failed => exact ⟨rfl, rfl⟩
  | unsaved hclean hask hfetch hsave =>
    obtain ⟨fault, hfailure⟩ := Cache.failure_of_unsaved hsave
    exact absurd hfailure (hf _ fault)

theorem of_brokeDown (h : Populates disk s t clock refresh (.error .brokeDown) s' t' asked) :
    s' = { s with isPoisoned := true } ∧ t' = t := by
  cases h with
  | brokeDown => exact ⟨rfl, rfl⟩

/-- If the cache could not be written, the whole fetch is held, and all but its draft is spared. -/
theorem of_cacheWrite {path : String} {fault : IoFault}
    (h : Populates disk s t clock refresh (.error (.failed (.cacheWrite path fault))) s' t' asked) :
    ∃ catalog, s.Fetches t clock catalog ∧ s' = s.withCatalog catalog
      ∧ Cache.Spares disk ⟨clock.now, catalog⟩ t t' s.cachePath := by
  cases h with
  | failed hclean hask hfetch =>
    obtain ⟨project, message, hfailure⟩ := fetch_failed hfetch
    cases hfailure
  | unsaved hclean hask hfetch hsave =>
    exact ⟨_, fetch_answer_eq_ok.mp hfetch, rfl, Cache.spares_of_unsaved hsave⟩

theorem of_provider (h : Populates disk s t clock refresh (.ok .provider) s' t' asked) :
    ∃ catalog, s.Fetches t clock catalog ∧ s' = s.withCatalog catalog
      ∧ Cache.read t' s.cachePath = .ok ⟨clock.now, catalog⟩ := by
  cases h with
  | saved hclean hask hfetch hsave =>
    refine ⟨_, fetch_answer_eq_ok.mp hfetch, rfl, ?_⟩
    rw [Cache.read_of_saved hsave, CacheRecord.asWritten_mk_coe]

/-- What is held is what was held, what was cached or all that was fetched. -/
theorem held_cases (h : Populates disk s t clock refresh outcome s' t' asked) :
    s'.held = s.held
      ∨ (∃ r, Cache.load t s.cachePath s.ttl clock.now = .ok r
          ∧ s'.held = s.holding r.repositories)
      ∨ ∃ catalog, s.Fetches t clock catalog ∧ s'.held = s.holding catalog := by
  cases h with
  | poisoned => exact .inl rfl
  | loaded => exact .inl rfl
  | cached hclean hkeep hempty hload => exact .inr (.inl ⟨_, hload, rfl⟩)
  | brokeDown => exact .inl rfl
  | failed => exact .inl rfl
  | saved hclean hask hfetch hsave =>
    exact .inr (.inr ⟨_, fetch_answer_eq_ok.mp hfetch, rfl⟩)
  | unsaved hclean hask hfetch hsave =>
    exact .inr (.inr ⟨_, fetch_answer_eq_ok.mp hfetch, rfl⟩)

/-- What is in a file was there before, or it is the record of all that was fetched, or what the
disk has taken of its draft. -/
theorem file_cases (h : Populates disk s t clock refresh outcome s' t' asked) {place : Place}
    {content : ByteArray} (hfile : t'.at? place = some (.file content)) :
    t.at? place = some (.file content)
      ∨ ∃ catalog, s.Fetches t clock catalog
          ∧ (.file content = Cache.fileOf ⟨clock.now, catalog⟩
            ∨ place = t.endOf (Cache.draftPath s.cachePath)
              ∧ Cache.leftover disk ⟨clock.now, catalog⟩ = some (.file content)) := by
  cases h with
  | poisoned => exact .inl hfile
  | loaded => exact .inl hfile
  | cached => exact .inl hfile
  | brokeDown => exact .inl hfile
  | failed => exact .inl hfile
  | @unsaved catalog _ _ hclean hask hfetch hsave =>
    rcases (Cache.spares_of_unsaved hsave).file hfile with hold | hleft
    · exact .inl hold
    · exact .inr ⟨catalog, fetch_answer_eq_ok.mp hfetch, .inr hleft⟩
  | @saved catalog _ hclean hask hfetch hsave =>
    have hafter : (treeAfter (Cache.saveOn disk s.cachePath ⟨clock.now, catalog⟩) t).at? place
        = some (.file content) := by
      simp only [treeAfter, hsave, hfile]
    rcases Cache.file_of_save hafter with hold | hnew
    · exact .inl hold
    · exact .inr ⟨catalog, fetch_answer_eq_ok.mp hfetch, hnew⟩

/-- Filling a service keeps the files of a tree in directories. -/
theorem grounded (h : Populates disk s t clock refresh outcome s' t' asked) (hground : t.Grounded) :
    t'.Grounded := by
  cases h with
  | poisoned => exact hground
  | loaded => exact hground
  | cached => exact hground
  | brokeDown => exact hground
  | failed => exact hground
  | @saved catalog _ hclean hask hfetch hsave =>
    have hafter := Cache.save_grounded hground disk s.cachePath ⟨clock.now, catalog⟩
    simpa only [treeAfter, hsave] using hafter
  | @unsaved catalog _ _ hclean hask hfetch hsave =>
    have hafter := Cache.save_grounded hground disk s.cachePath ⟨clock.now, catalog⟩
    simpa only [treeAfter, hsave] using hafter

end Populates

/-! ## The whole -/

/-- **What a filled service is left with**, by how the call ended, whether or not the disk takes
all that is written. A failure to write the cache leaves the whole fetch in memory, and where the
path leads as it was; any other failure changes nothing, a breakdown nothing but that the service is
poisoned from then on. What the providers gave is cached in whole. No part of a fetch is ever held,
and what is in a file that was not there is the record of a whole fetch or, where its draft belongs,
the beginning of it, which is no record. -/
theorem populate_outcome (disk : Disk) (s : Service) (refresh : Bool) (t : FileTree)
    (clock : Clock) :
    let report := s.populateOn disk refresh t clock
    (∀ f, report.outcome = .error (.failed f) → (∀ path fault, f ≠ .cacheWrite path fault) →
        report.service = s ∧ report.files = t)
      ∧ (report.outcome = .error .brokeDown →
          report.service.held = s.held ∧ report.files = t
            ∧ ∀ s', Steps report.service s' → s'.AnswersPoisoned)
      ∧ (∀ path fault, report.outcome = .error (.failed (.cacheWrite path fault)) →
          (∃ catalog, s.Fetches t clock catalog ∧ report.service = s.withCatalog catalog)
            ∧ (∀ e, t.lookup s.cachePath = .ok e → report.files.lookup s.cachePath = .ok e)
            ∧ (t.Grounded → ".." ∉ Path.components s.cachePath →
                ∀ e, report.files.lookup s.cachePath = .ok e → t.lookup s.cachePath = .ok e))
      ∧ (report.outcome = .ok .provider →
          ∃ catalog, s.Fetches t clock catalog ∧ report.service = s.withCatalog catalog
            ∧ Cache.read report.files s.cachePath = .ok ⟨clock.now, catalog⟩)
      ∧ (report.service.held = s.held
          ∨ (∃ r, Cache.load t s.cachePath s.ttl clock.now = .ok r
              ∧ report.service.held = s.holding r.repositories)
          ∨ ∃ catalog, s.Fetches t clock catalog ∧ report.service.held = s.holding catalog)
      ∧ ∀ place content, report.files.at? place = some (.file content) →
          t.at? place = some (.file content)
            ∨ ∃ catalog, s.Fetches t clock catalog
                ∧ (.file content = Cache.fileOf ⟨clock.now, catalog⟩
                  ∨ place = t.endOf (Cache.draftPath s.cachePath)
                    ∧ Cache.leftover disk ⟨clock.now, catalog⟩ = some (.file content)
                    ∧ ∃ failure, CacheRecord.parse content = .error failure) := by
  intro report
  have h : Populates disk s t clock refresh report.outcome report.service report.files
      report.asked := populateOn_populates disk s refresh t clock
  refine ⟨fun f houtcome hf => ?_, fun houtcome => ?_, fun path fault houtcome => ?_,
    fun houtcome => ?_, h.held_cases, fun place content hfile => ?_⟩
  · rw [houtcome] at h
    exact h.of_failed hf
  · rw [houtcome] at h
    obtain ⟨hservice, hfiles⟩ := h.of_brokeDown
    refine ⟨by rw [hservice], hfiles, fun s' hrun => answersPoisoned (hrun.isPoisoned ?_)⟩
    rw [hservice]
  · rw [houtcome] at h
    obtain ⟨catalog, hfetches, hservice, hspares⟩ := h.of_cacheWrite
    exact ⟨⟨catalog, hfetches, hservice⟩, fun e => hspares.lookup,
      fun hground hdots e => hspares.lookup_back hground hdots⟩
  · rw [houtcome] at h
    exact h.of_provider
  · rcases h.file_cases hfile with hold | ⟨catalog, hfetches, hrecord | ⟨hdraft, hleft⟩⟩
    · exact .inl hold
    · exact .inr ⟨catalog, hfetches, .inl hrecord⟩
    · exact .inr ⟨catalog, hfetches, .inr ⟨hdraft, hleft, Cache.parse_of_leftover hleft⟩⟩

/-! ## A cache that cannot be written -/

/-- A service whose provider lists one repository. -/
def sample (cachePath : String) : Service where
  config := { provider := "mock", projects := ["platform"] }
  cachePath
  registry := ProviderRegistry.empty.register "mock" fun _ =>
    .ok { name := "mock", list := fun _ => { answer := .ok [{ name := "app" }] } }

/-- A cache file, and next to it a directory in the place of its draft. -/
def sampleFiles : FileTree :=
  ((({} : FileTree).put ["a"] .directory).put ["a", "c.json"] (.file "old".toUTF8)).put
    ["a", "c.json.tmp"] .directory

theorem sampleFiles_grounded : sampleFiles.Grounded := by
  have hfolder : ({} : FileTree).resolve "a" = .ok (.named ["a"] false) := by decide +kernel
  have hfirst := grounded_empty.put .directory hfolder (by decide +kernel)
  have hfile : (({} : FileTree).put ["a"] .directory).resolve "a/c.json"
      = .ok (.named ["a", "c.json"] false) := by decide +kernel
  have hsecond := hfirst.put (.file "old".toUTF8) hfile (by decide +kernel)
  have hdraft : ((({} : FileTree).put ["a"] .directory).put ["a", "c.json"]
      (.file "old".toUTF8)).resolve "a/c.json.tmp"
      = .ok (.named ["a", "c.json.tmp"] false) := by decide +kernel
  exact hsecond.put .directory hdraft (by decide +kernel)

theorem sample_outcome {path : String} {u : FileTree} {draft : Place}
    (hfetch : ((sample path).fetch sampleFiles ⟨.epoch, .zero, {}⟩).answer
      = .ok ((∅ : Catalog).insert "app" { name := "app", project := "platform" }))
    (hensure : ensureDirectories (Cache.folder path) sampleFiles = .ok () u)
    (hdraft : u.resolve (Cache.draftPath path) = .ok (.named draft false))
    (hdir : u.at? draft = some .directory) :
    ((sample path).populate true sampleFiles ⟨.epoch, .zero, {}⟩).outcome
        = .error (.failed (.cacheWrite path .isADirectory))
      ∧ ((sample path).populate true sampleFiles ⟨.epoch, .zero, {}⟩).files = u := by
  have hsave := Cache.save_of_draft_directory hensure hdraft hdir
    ⟨Instant.epoch, (∅ : Catalog).insert "app" { name := "app", project := "platform" }⟩
  have hends : Populates .sound (sample path) sampleFiles ⟨.epoch, .zero, {}⟩ true
      (.error (.failed (.cacheWrite path .isADirectory))) _ u _ :=
    .unsaved rfl (.inl rfl) hfetch hsave
  obtain ⟨log, hreport⟩ := hends.report_eq
  rw [Service.populate, hreport]
  exact ⟨rfl, rfl⟩

theorem unwritten_cache_appears :
    let path := "a/b/../c.json"
    let report := (sample path).populate true sampleFiles ⟨.epoch, .zero, {}⟩
    sampleFiles.Grounded ∧ sampleFiles.lookup path = .error .notFound
      ∧ report.outcome = .error (.failed (.cacheWrite path .isADirectory))
      ∧ report.files.lookup path = .ok (.file "old".toUTF8) := by
  intro path report
  have hensure : ensureDirectories (Cache.folder path) sampleFiles
      = .ok () (sampleFiles.put ["a", "b"] .directory) := by
    have hfolder : Cache.folder path = "a/b/.." := by
      simp [path, Cache.folder, Path.parent?, Path.splitLast?, Path.trimEnd]
    have hparent : Path.parent? "a/b/.." = some "a/b" := by
      simp [Path.parent?, Path.splitLast?, Path.trimEnd]
    have hmissing : ensureDirectory "a/b/.." sampleFiles = .error .notFound sampleFiles := by
      have hcreate : sampleFiles.createDirectory "a/b/.." = .error .notFound := by decide +kernel
      have hthere : sampleFiles.isDirectory "a/b/.." = false := by decide +kernel
      simp only [ensureDirectory, hcreate, hthere, Bool.false_eq_true, if_false]
    have habove : ensureDirectory "a/b" sampleFiles
        = .ok () (sampleFiles.put ["a", "b"] .directory) := by
      have hcreate : sampleFiles.createDirectory "a/b"
          = .ok (sampleFiles.put ["a", "b"] .directory) := by decide +kernel
      simp only [ensureDirectory, hcreate]
    rw [hfolder, ensureDirectories_of_parent (by decide) hmissing hparent
      (ensureDirectories_of_ok (by decide) habove)]
    have hcreate : (sampleFiles.put ["a", "b"] .directory).createDirectory "a/b/.."
        = .error .alreadyExists := by decide +kernel
    have hthere : (sampleFiles.put ["a", "b"] .directory).isDirectory "a/b/.." = true := by
      decide +kernel
    simp only [ensureDirectory, hcreate, hthere, if_true]
  have hdraft : (sampleFiles.put ["a", "b"] .directory).resolve (Cache.draftPath path)
      = .ok (.named ["a", "c.json.tmp"] false) := by
    have hname : Cache.draftPath path = "a/b/../c.json.tmp" := by
      simp [path, Cache.draftPath, Path.withExtension, Path.fileName?, Path.splitName,
        Path.splitLast?, Path.trimEnd]
    rw [hname]
    decide +kernel
  obtain ⟨houtcome, hfiles⟩ := sample_outcome (by decide +kernel) hensure hdraft
    (by decide +kernel)
  refine ⟨sampleFiles_grounded, by decide +kernel, houtcome, ?_⟩
  rw [hfiles]
  decide +kernel

/-- The file at `a/c.json` stays what the path leads to, and the fetch is held. -/
theorem unwritten_cache_stays :
    let path := "a/c.json"
    let report := (sample path).populate true sampleFiles ⟨.epoch, .zero, {}⟩
    report.outcome = .error (.failed (.cacheWrite path .isADirectory))
      ∧ (∃ catalog, (sample path).Fetches sampleFiles ⟨.epoch, .zero, {}⟩ catalog
          ∧ report.service = (sample path).withCatalog catalog)
      ∧ report.files.lookup path = .ok (.file "old".toUTF8) := by
  intro path report
  have hensure : ensureDirectories (Cache.folder path) sampleFiles = .ok () sampleFiles := by
    have hfolder : Cache.folder path = "a" := by
      simp [path, Cache.folder, Path.parent?, Path.splitLast?, Path.trimEnd]
    have hcreate : sampleFiles.createDirectory "a" = .error .alreadyExists := by decide +kernel
    have hthere : sampleFiles.isDirectory "a" = true := by decide +kernel
    rw [hfolder]
    refine ensureDirectories_of_ok (by decide) ?_
    simp only [ensureDirectory, hcreate, hthere, if_true]
  have hdraft : sampleFiles.resolve (Cache.draftPath path)
      = .ok (.named ["a", "c.json.tmp"] false) := by
    have hname : Cache.draftPath path = "a/c.json.tmp" := by
      simp [path, Cache.draftPath, Path.withExtension, Path.fileName?, Path.splitName,
        Path.splitLast?, Path.trimEnd]
    rw [hname]
    decide +kernel
  obtain ⟨houtcome, -⟩ := sample_outcome (by decide +kernel) hensure hdraft (by decide +kernel)
  obtain ⟨hfetches, hkept, -⟩ :=
    (populate_outcome .sound (sample path) true sampleFiles ⟨.epoch, .zero, {}⟩).2.2.1 _ _ houtcome
  exact ⟨houtcome, hfetches, hkept _ (by decide +kernel)⟩

end RepoSelect.Service
