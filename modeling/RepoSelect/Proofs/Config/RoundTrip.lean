import RepoSelect.Proofs.Document.Record
import RepoSelect.Proofs.Duration.RoundTrip
import RepoSelect.Proofs.Yaml.Reading

/-!
# Reading a configuration that was written

A configuration is written with every setting, so what is read back from its text is the same
configuration but for its durations: they are written in whole units, or in whole milliseconds, and
read as what that text says (`Config.reread`). So a configuration comes back from its text exactly
if its durations do (`parse_print_iff`), which is not so for one with a part of a millisecond
(`parse_print_lossy`).
-/

namespace RepoSelect

open Document Yaml

/-! ## Sections -/

theorem Markers.reads (m : Markers) : Reads Markers.ofDocument m.toYaml m := by
  intro g
  simp [Markers.ofDocument, Markers.toYaml, readRecord, shape_table, fill, Markers.slots,
    readTextAs_partOfKey, Slot.spellings, readText_part, bind, Except.bind]

theorem FilterSettings.reads (f : FilterSettings) : Reads FilterSettings.ofPart f.toYaml f := by
  intro g
  have hflag : ∀ b, readFlag ((Value.bool b).part g) = .ok b := fun b => reads_flag b g
  have hmarkers : Markers.ofDocument (f.markers.toYaml.part g) = .ok f.markers := f.markers.reads g
  simp [FilterSettings.ofPart, FilterSettings.toYaml, readRecord, shape_table, fill,
    FilterSettings.slots, readTextAs_partOfKey, Slot.spellings, readText_part, hflag,
    readTexts_part, hmarkers, bind, Except.bind]

/-- A duration is read as its text says, or not at all. -/
theorem Duration.reads_or_fails (level : Nat) (d : Duration) (g : Graph) :
    (∃ e, Duration.parse d.format = .ok e
        ∧ Duration.ofPart level ((Value.text d.format).part g) = .ok e)
      ∨ ∃ fault found, Duration.parse d.format = .error fault
        ∧ Duration.ofPart level ((Value.text d.format).part g) = .error found := by
  rw [duration_ofPart]
  cases Duration.parse d.format with
  | ok e => exact .inl ⟨e, rfl, rfl⟩
  | error fault => exact .inr ⟨fault, _, rfl, rfl⟩

/-- The settings come back with the lifetime that its text says, if it says one. -/
theorem CacheSettings.reads_or_fails (c : CacheSettings) (g : Graph) :
    (∃ ttl, Duration.parse c.ttl.format = .ok ttl
        ∧ CacheSettings.ofPart (c.toYaml.part g) = .ok { c with ttl })
      ∨ ∃ fault found, Duration.parse c.ttl.format = .error fault
        ∧ CacheSettings.ofPart (c.toYaml.part g) = .error found := by
  rcases c.ttl.reads_or_fails 2 g with ⟨ttl, hparse, hread⟩ | ⟨fault, found, hparse, hread⟩ <;>
    simp [CacheSettings.ofPart, CacheSettings.toYaml, readRecord, shape_table, fill,
      CacheSettings.slots, readTextAs_partOfKey, Slot.spellings, readText_part, readPath_part,
      hparse, hread, bind, Except.bind, at_, under]

/-! ## The whole -/

namespace Config

/-- The configuration with what the texts of its durations say, if they say something. -/
def reread (c : Config) : Except DurationFault Config := do
  let fetchTimeout ← c.fetchTimeout.mapM fun d => Duration.parse d.format
  let ttl ← Duration.parse c.cache.ttl.format
  .ok { c with fetchTimeout, cache := { c.cache with ttl }, baseDir := "" }

theorem ofPart_entries (c c' : Config) (g : Graph) :
    Config.ofPart ((Value.table c.entries).part g) = .ok c' ↔ c.reread = .ok c' := by
  have hprojects : oneOrMany 1 ((Value.texts c.projects).part g) = .ok c.projects :=
    reads_oneOrMany (by decide) c.projects g
  have hoptions : readTable readText
      ((Value.table (c.providerOptions.toList.map fun e => (e.1, .text e.2))).part g)
      = .ok c.providerOptions.toList := reads_table (reads_text "a string") _ g
  have haliases : readTable (readList readText)
      ((Value.table (c.aliases.toList.map fun e => (e.1, .texts e.2))).part g)
      = .ok c.aliases.toList := reads_table (fun ss => reads_list (reads_text "a string") ss) _ g
  have hfilter : FilterSettings.ofPart (c.filter.toYaml.part g) = .ok c.filter := c.filter.reads g
  unfold reread
  cases htimeout : c.fetchTimeout with
  | none =>
    rcases c.cache.reads_or_fails g with ⟨ttl, hparse, hcache⟩ | ⟨fault, found, hparse, hcache⟩ <;>
      simp [Config.ofPart, entries, htimeout, readRecord, shape_table, fill, slots,
        readTextAs_partOfKey, Slot.spellings, readText_part, readOption_part, hprojects, hoptions,
        haliases, hfilter, hparse, hcache, NameMap.ofList_toList, bind, Except.bind, pure,
        Except.pure, at_, under]
  | some timeout =>
    rcases timeout.reads_or_fails 1 g with ⟨d, hread, hlimit⟩ | ⟨fault, found, hread, hlimit⟩ <;>
    rcases c.cache.reads_or_fails g with
      ⟨ttl, hparse, hcache⟩ | ⟨fault', found', hparse, hcache⟩ <;>
      simp [Config.ofPart, entries, htimeout, readRecord, shape_table, fill, slots,
        readTextAs_partOfKey, Slot.spellings, readText_part, readOption_part, hprojects, hoptions,
        haliases, hfilter, hread, hlimit, hparse, hcache, NameMap.ofList_toList, bind, Except.bind,
        Functor.map, Except.map, at_, under]

/-- What the text of a configuration is parsed as. -/
theorem parse_print (c c' : Config) :
    Config.parse c.print = .ok c' ↔ c.reread = .ok c' ∧ c'.check = .ok () := by
  have hdecode : Yaml.decode Config.ofPart c.print
      = Config.ofPart ((Value.table c.entries).part ⟨some (Value.table c.entries).toNode, []⟩) := by
    rw [Yaml.decode, Config.print, read_table]
    rfl
  rw [Config.parse, hdecode]
  simp only [bind_eq_ok, mapError_eq_ok, ofPart_entries]
  constructor
  · rintro ⟨_, hread, _, hcheck, ⟨⟩⟩
    exact ⟨hread, hcheck⟩
  · rintro ⟨hread, hcheck⟩
    exact ⟨c', hread, (), hcheck, rfl⟩

theorem slots_keep_baseDir : ∀ s ∈ slots, s.Keeps fun c => c.baseDir = "" := by
  simp only [slots, List.mem_cons, List.not_mem_nil, or_false, forall_eq_or_imp, forall_eq]
  refine ⟨?_, ?_, ?_, ?_, ?_, ?_, ?_, ?_⟩ <;>
  · intro p c c' hput hbase
    obtain ⟨_, -, hput⟩ := bind_eq_ok.mp hput
    cases hput
    exact hbase

/-- A configuration that was parsed has no directory of its own, and it was checked. -/
theorem parse_eq_ok {text : String} {c : Config} (h : Config.parse text = .ok c) :
    c.baseDir = "" ∧ c.check = .ok () := by
  simp only [Config.parse, bind_eq_ok, mapError_eq_ok] at h
  obtain ⟨_, hdecode, ⟨⟩, hcheck, ⟨⟩⟩ := h
  refine ⟨?_, hcheck⟩
  rw [Yaml.decode] at hdecode
  split at hdecode
  · cases hdecode
  · exact readRecord_keeps slots_keep_baseDir hdecode rfl

/-- The durations that a configuration is written with. -/
def durations (c : Config) : List Duration := c.cache.ttl :: c.fetchTimeout.toList

theorem reread_eq_self_iff {c : Config} (h : c.baseDir = "") :
    c.reread = .ok c ↔ ∀ d ∈ c.durations, Duration.parse d.format = .ok d := by
  obtain ⟨provider, projects, gitHost, fetchTimeout, options, ⟨ttl, dir, file, filename⟩, filter,
    aliases, baseDir⟩ := c
  obtain rfl : baseDir = "" := h
  cases hparse : Duration.parse ttl.format <;> cases fetchTimeout with
  | none => simp [reread, durations, hparse, bind, Except.bind, pure, Except.pure]
  | some timeout =>
    cases hread : Duration.parse timeout.format <;>
      simp [reread, durations, hparse, hread, bind, Except.bind, Functor.map, Except.map, and_comm]

/-- Nothing but the durations is read otherwise than it was written. -/
theorem eq_of_reread {c c' : Config} (h : c.reread = .ok c') :
    { c' with
      fetchTimeout := c.fetchTimeout, cache.ttl := c.cache.ttl, baseDir := c.baseDir } = c := by
  simp only [reread, bind_eq_ok] at h
  obtain ⟨_, -, _, -, ⟨⟩⟩ := h
  rfl

/-- **A configuration comes back from its text exactly if its durations do.** Durations of whole
seconds do, and short ones of whole milliseconds, but no short one with a part of a millisecond; and
nothing but the durations ever comes back otherwise. -/
theorem parse_print_iff {text : String} {c : Config} (h : Config.parse text = .ok c) :
    (Config.parse c.print = .ok c ↔ ∀ d ∈ c.durations, Duration.parse d.format = .ok d)
      ∧ ((∀ d ∈ c.durations, d.IsWholeSeconds ∨ d.IsShort ∧ d.nanos % 1000000 = 0)
          → Config.parse c.print = .ok c)
      ∧ ((∃ d ∈ c.durations, d.IsShort ∧ d.nanos % 1000000 ≠ 0) → Config.parse c.print ≠ .ok c)
      ∧ ∀ c', Config.parse c.print = .ok c' →
          { c' with fetchTimeout := c.fetchTimeout, cache.ttl := c.cache.ttl } = c := by
  obtain ⟨hbase, hcheck⟩ := parse_eq_ok h
  have hiff :
      Config.parse c.print = .ok c ↔ ∀ d ∈ c.durations, Duration.parse d.format = .ok d := by
    rw [parse_print, reread_eq_self_iff hbase]
    exact and_iff_left hcheck
  refine ⟨hiff, ?_, ?_, fun c' hback => ?_⟩
  · exact fun hwhole => hiff.mpr fun d hd => Duration.parse_format_whole (hwhole d hd)
  · rintro ⟨d, hd, hshort, hpart⟩ hback
    exact hpart ((Duration.parse_format_iff hshort).mp (hiff.mp hback d hd))
  · have hbase' : c'.baseDir = c.baseDir := (parse_eq_ok hback).1.trans hbase.symm
    have hsame := eq_of_reread ((parse_print c c').mp hback).1
    rwa [← hbase'] at hsame

def halfDayText : String :=
  "provider: static\nproject: platform\ncache: {ttl: 12h}\nfetch_timeout: 1.5s\n"

/-- A configuration with a limit on listing. -/
def halfDay : Config :=
  { provider := "static", projects := ["platform"], cache := { ttl := .ofSeconds 43200 },
    fetchTimeout := some (.ofMillis 1500) }

theorem halfDay_back :
    Config.parse halfDayText = .ok halfDay ∧ Config.parse halfDay.print = .ok halfDay := by
  have hparse : Config.parse halfDayText = .ok halfDay := ok_of_toOption (by decide +kernel)
  exact ⟨hparse, (parse_print_iff hparse).2.1 (by decide)⟩

def lossyText : String := "provider: static\nprojects: [platform]\ncache: {ttl: 1.5ms}\n"

/-- A configuration with a part of a millisecond. -/
def lossy : Config :=
  { provider := "static", projects := ["platform"], cache := { ttl := ⟨1500000⟩ } }

/-- **A lifetime of one and a half milliseconds comes back as one millisecond.** -/
theorem parse_print_lossy :
    Config.parse lossyText = .ok lossy
      ∧ Config.parse lossy.print = .ok { lossy with cache := { ttl := .ofMillis 1 } }
      ∧ Config.parse lossy.print ≠ .ok lossy := by
  have hread : lossy.reread = .ok { lossy with cache := { ttl := .ofMillis 1 } } :=
    ok_of_toOption (by decide +kernel)
  have hback := (parse_print lossy _).mpr ⟨hread, rfl⟩
  refine ⟨ok_of_toOption (by decide +kernel), hback, ?_⟩
  rw [hback, ne_eq, Except.ok.injEq]
  decide

end Config

end RepoSelect
