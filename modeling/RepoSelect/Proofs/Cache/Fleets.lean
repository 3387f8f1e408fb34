import RepoSelect.Proofs.Cache.Load
import RepoSelect.Proofs.Cache.Location
import RepoSelect.Proofs.Text.Run

/-!
# Caches of different fleets

Two configurations below one root, with one name for their files, have the same cache exactly if
the components for their hosts and for their projects are the same. The projects are joined with
`+`, and what may not stand in a component is replaced by `-`, so lists can be confused
(`fleets_confused`). They are told apart if nothing was replaced and no name has a `+` in it:

> between lists of plain names, no catalog is ever loaded by a configuration that was saved by one
> with another list (`fleets_apart`).

That is shown of any course of uses (`FileTree.after`): one use puts nothing in the file of another
list (`file_of_after`), and a run of them is an induction (`file_of_afterAll`).
-/

namespace RepoSelect

open FileTree RepoSelect.Path

/-! ## Plain names -/

namespace Cache

/-- The names keep all their characters and have no `+`, and there is not just `.` or `..`. -/
structure Plain (projects : List String) : Prop where
  kept : ∀ name ∈ projects, ∀ d ∈ name.toList, isKept d = true ∧ d ≠ '+'
  ne_dot : projects ≠ ["."]
  ne_dots : projects ≠ [".."]

theorem sanitized_of_kept {s : List Char} (h : ∀ d ∈ s, isKept d = true) : sanitized s = s := by
  refine (List.map_congr_left fun d hd => ?_).trans s.map_id
  exact if_pos (h d hd)

namespace Plain

variable {projects projects' : List String}

/-- Names without `+` can be read off from what they are joined to. -/
theorem eq_of_intercalate (h : projects ≠ []) (h' : projects' ≠ [])
    (hkept : ∀ name ∈ projects, '+' ∉ name.toList) (hkept' : ∀ name ∈ projects', '+' ∉ name.toList)
    (heq : "+".intercalate projects = "+".intercalate projects') : projects = projects' := by
  have hsplit : ∀ {l : List String}, l ≠ [] → (∀ name ∈ l, '+' ∉ name.toList) →
      ("+".intercalate l).toList.splitOn '+' = l.map String.toList := by
    intro l hne hl
    rw [String.toList_intercalate]
    exact List.splitOn_intercalate '+' (by simpa using hl) (by simpa using hne)
  have hlists := (hsplit h hkept).symm.trans (heq ▸ hsplit h' hkept')
  exact (List.map_inj_right fun _ _ => String.toList_inj.mp).mp hlists

theorem no_plus (h : Plain projects) : ∀ name ∈ projects, '+' ∉ name.toList :=
  fun name hname hplus => (h.kept name hname '+' hplus).2 rfl

/-- The component for plain names is what they are joined to. -/
theorem component_eq (h : Plain projects) (hne : projects ≠ []) (hempty : "" ∉ projects) :
    projectsComponent projects = "+".intercalate projects := by
  have hkept : ∀ d ∈ ("+".intercalate projects).toList, isKept d = true := by
    intro d hd
    rw [String.toList_intercalate] at hd
    rcases of_mem_intercalate hd with hsep | ⟨s, hs, hd⟩
    · rw [List.mem_singleton.mp hsep]
      decide
    · obtain ⟨name, hname, rfl⟩ := List.mem_map.mp hs
      exact (h.kept name hname d hd).1
  -- A text without `+` is what there is only if it is the one name.
  have hjoined : ∀ text : String, '+' ∉ text.toList → projects ≠ [text] →
      "+".intercalate projects ≠ text := by
    intro text hplus hother heq
    exact hother (eq_of_intercalate hne (List.cons_ne_nil _ _) h.no_plus (by simpa using hplus)
      (heq.trans String.intercalate_singleton.symm))
  have hnot : projects ≠ [""] := by
    rintro rfl
    exact hempty (List.mem_singleton.mpr rfl)
  unfold projectsComponent component
  rw [sanitized_of_kept hkept, String.ofList_toList]
  refine if_neg (not_or.mpr ⟨?_, not_or.mpr ⟨?_, ?_⟩⟩)
  · exact hjoined "" (by decide) hnot
  · exact hjoined "." (by decide) h.ne_dot
  · exact hjoined ".." (by decide) h.ne_dots

end Plain

/-! ## Uses of a cache -/

/-- A configuration saves a record, or removes its file. -/
structure Use where
  config : Config
  saved : Option CacheRecord

end Cache

namespace FileTree

open Cache

variable {authority? : String → Option Url.Authority} {home : Home}

/-- The tree behind one use of a cache, whether it succeeds or fails. -/
def after (authority? : String → Option Url.Authority) (home : Home) (t : FileTree) (use : Use) :
    FileTree :=
  match use.saved with
  | some r => treeAfter (save (use.config.cachePathBy authority? home) r) t
  | none => treeAfter (flush (use.config.cachePathBy authority? home)) t

/-- The tree behind some uses, one after the other. -/
def afterAll (authority? : String → Option Url.Authority) (home : Home) (t : FileTree)
    (uses : List Use) : FileTree :=
  uses.foldl (after authority? home) t

end FileTree

namespace Cache

variable {authority? : String → Option Url.Authority} {home : Home} {root filename : String}
  {c d : Config}

/-- A checked configuration that has its cache below a root, in a file with a given name. -/
structure Sited (home : Home) (root filename : String) (c : Config) : Prop where
  checked : c.check = .ok ()
  file_eq : c.cache.file = none
  root_eq : c.cacheRoot home = root
  filename_eq : c.cache.filename = filename

/-- A name for a file below a directory: relative, without a way up, and not the directory. -/
structure FileName (filename : String) : Prop where
  relative : isAbsolute filename = false
  no_dots : ".." ∉ components filename
  counts : names filename ≠ []

theorem projects_of_check (h : c.check = .ok ()) : c.projects ≠ [] ∧ "" ∉ c.projects := by
  have hfault : c.fault? = none := by
    unfold Config.check at h
    split at h
    · cases h
    · assumption
  unfold Config.fault? at hfault
  split at hfault
  · cases hfault
  · split at hfault
    · cases hfault
    · next hne =>
      split at hfault
      · cases hfault
      · next hall =>
        exact ⟨hne, fun hmem => absurd (List.find?_eq_none.mp hall "" hmem) (by decide)⟩

namespace Sited

/-- The two components that stand between the root and the name of the file. -/
def middle (authority? : String → Option Url.Authority) (c : Config) : List String :=
  [hostComponentBy authority? c.gitHost, projectsComponent c.projects]

theorem ordinary_of_mem_middle {name : String} (h : name ∈ middle authority? c) :
    Ordinary name := by
  simp only [middle, List.mem_cons, List.not_mem_nil, or_false] at h
  rcases h with rfl | rfl
  · exact ordinary_hostComponentBy authority? c.gitHost
  · exact ordinary_component _

theorem middle_ne (hc : Sited home root filename c) (hd : Sited home root filename d)
    (hplain : Plain c.projects) (hplain' : Plain d.projects) (hne : d.projects ≠ c.projects) :
    middle authority? d ≠ middle authority? c := by
  obtain ⟨hnil, hempty⟩ := projects_of_check hc.checked
  obtain ⟨hnil', hempty'⟩ := projects_of_check hd.checked
  intro heq
  have hprojects := (List.cons.inj (List.cons.inj heq).2).1
  rw [hplain'.component_eq hnil' hempty', hplain.component_eq hnil hempty] at hprojects
  exact hne (Plain.eq_of_intercalate hnil' hnil hplain'.no_plus hplain.no_plus hprojects)

theorem components_eq (h : Sited home root filename c) (hname : isAbsolute filename = false) :
    components (c.cachePathBy authority? home)
      = components root ++ (middle authority? c ++ components filename) := by
  obtain ⟨-, hfile, rfl, rfl⟩ := h
  exact Config.components_cachePathBy hfile hname

theorem isAbsolute_eq (h : Sited home root filename c) (hname : isAbsolute filename = false) :
    isAbsolute (c.cachePathBy authority? home) = isAbsolute root := by
  obtain ⟨-, hfile, rfl, rfl⟩ := h
  exact Config.isAbsolute_cachePathBy hfile hname

/-- Two configurations have one path exactly if their components are the same. -/
theorem cachePath_eq_iff (hc : Sited home root filename c) (hd : Sited home root filename d)
    (hname : isAbsolute filename = false) :
    c.cachePathBy authority? home = d.cachePathBy authority? home
      ↔ middle authority? c = middle authority? d := by
  constructor
  · intro heq
    have hcomponents := congrArg components heq
    rw [hc.components_eq hname, hd.components_eq hname, List.append_cancel_left_eq,
      List.append_cancel_right_eq] at hcomponents
    exact hcomponents
  · intro heq
    obtain ⟨hhost, hrest⟩ := List.cons.inj heq
    have hprojects := (List.cons.inj hrest).1
    obtain ⟨-, hfile, hroot, hfilename⟩ := hc
    obtain ⟨-, hfile', hroot', hfilename'⟩ := hd
    rw [Config.cachePathBy_eq hfile, Config.cachePathBy_eq hfile', Config.cacheFolder,
      Config.cacheFolder, hroot, hroot', hfilename, hfilename', hhost, hprojects]

/-- The file and its draft lie below the directory that the components name. -/
theorem below (authority? : String → Option Url.Authority) (h : Sited home root filename c)
    (hname : FileName filename) (t : FileTree) :
    t.endOf root ++ middle authority? c <+: t.endOf (c.cachePathBy authority? home)
      ∧ t.endOf root ++ middle authority? c
          <+: t.endOf (draftPath (c.cachePathBy authority? home)) := by
  have habs : isAbsolute (c.cachePathBy authority? home) = isAbsolute root :=
    h.isAbsolute_eq hname.relative
  have hpath : components (c.cachePathBy authority? home) = _ := h.components_eq hname.relative
  obtain ⟨name, hmem⟩ := List.exists_mem_of_ne_nil _ hname.counts
  obtain ⟨hmem, hcounts⟩ := List.mem_filter.mp hmem
  exact ⟨endOf_below habs hpath (fun _ => ordinary_of_mem_middle) hname.no_dots t,
    endOf_draftPath_below habs hpath (fun _ => ordinary_of_mem_middle) hname.no_dots
      ⟨name, hmem, by simpa using hcounts⟩ t⟩

end Sited

/-! ## Runs of uses -/

/-- Places below different directories of one depth are different. -/
theorem ne_of_below {here place place' : Place} {front front' : List String}
    (hlength : front.length = front'.length) (hne : front ≠ front')
    (h : here ++ front <+: place) (h' : here ++ front' <+: place') : place ≠ place' := by
  rintro rfl
  have hprefix := List.prefix_of_prefix_length_le h h' (by simp [hlength])
  have heq := hprefix.eq_of_length (by simp [hlength])
  exact hne (List.append_cancel_left heq)

theorem workingDirectory_after (authority? : String → Option Url.Authority) (home : Home)
    (t : FileTree) (use : Use) :
    (t.after authority? home use).workingDirectory = t.workingDirectory := by
  unfold after
  split
  · exact (save_alters t _ _).workingDirectory_eq
  · rcases treeAfter_flush t (use.config.cachePathBy authority? home) with heq | ⟨-, heq⟩
    · rw [heq]
    · rw [heq]
      rfl

theorem workingDirectory_afterAll (authority? : String → Option Url.Authority) (home : Home)
    (t : FileTree) (uses : List Use) :
    (t.afterAll authority? home uses).workingDirectory = t.workingDirectory := by
  induction uses generalizing t with
  | nil => rfl
  | cons use uses ih => exact (ih _).trans (workingDirectory_after authority? home t use)

section

variable (hname : FileName filename) (hc : Sited home root filename c) (hplain : Plain c.projects)

include hname hc hplain

/-- One use puts nothing in the file of a configuration with another list of projects. -/
theorem file_of_after {use : Use} {t : FileTree} {content : ByteArray}
    (hd : Sited home root filename use.config) (hplain' : Plain use.config.projects)
    (hfile : (t.after authority? home use).at? (t.endOf (c.cachePathBy authority? home))
      = some (.file content)) :
    t.at? (t.endOf (c.cachePathBy authority? home)) = some (.file content)
      ∨ use.config.projects = c.projects
        ∧ ∃ r, use.saved = some r ∧ .file content = fileOf r := by
  unfold after at hfile
  cases hsaved : use.saved with
  | none =>
    rw [hsaved] at hfile
    dsimp only at hfile
    rcases treeAfter_flush t (use.config.cachePathBy authority? home) with heq | ⟨hnil, heq⟩
    · rw [heq] at hfile
      exact .inl hfile
    · rw [heq, at?_drop _ _ hnil] at hfile
      split at hfile
      · cases hfile
      · exact .inl hfile
  | some r =>
    rw [hsaved] at hfile
    by_cases hprojects : use.config.projects = c.projects
    · rcases file_of_save hfile with hold | hrecord | ⟨-, hleft⟩
      · exact .inl hold
      · exact .inr ⟨hprojects, r, rfl, hrecord⟩
      · cases hleft
    · have hne : Sited.middle authority? use.config ≠ Sited.middle authority? c :=
        hc.middle_ne hd hplain hplain' hprojects
      have hlength : (Sited.middle authority? c).length
          = (Sited.middle authority? use.config).length := rfl
      obtain ⟨hplace, -⟩ := hc.below authority? hname t
      obtain ⟨hplace', hdraft'⟩ := hd.below authority? hname t
      rcases (save_alters t _ r).at?_eq _ (ne_of_below hlength hne.symm hplace hplace')
        (ne_of_below hlength hne.symm hplace hdraft') with heq | ⟨-, hdir, -⟩
      · exact .inl (heq ▸ hfile)
      · rw [hfile] at hdir
        cases hdir

/-- What is in the file after some uses was there before them, or was saved by a configuration with
the same list. -/
theorem file_of_afterAll {uses : List Use} {t : FileTree} {content : ByteArray}
    (huses : ∀ use ∈ uses, Sited home root filename use.config ∧ Plain use.config.projects)
    (hfile : (t.afterAll authority? home uses).at? (t.endOf (c.cachePathBy authority? home))
      = some (.file content)) :
    t.at? (t.endOf (c.cachePathBy authority? home)) = some (.file content)
      ∨ ∃ use ∈ uses, use.config.projects = c.projects
        ∧ ∃ r, use.saved = some r ∧ .file content = fileOf r := by
  induction uses generalizing t with
  | nil => exact .inl hfile
  | cons use uses ih =>
    have hend := endOf_congr (workingDirectory_after authority? home t use)
      (c.cachePathBy authority? home)
    obtain ⟨hd, hplain'⟩ := huses use (by simp)
    rw [← hend] at hfile
    rcases ih (fun other hother => huses other (by simp [hother])) hfile with hthere | hsaved
    · rw [hend] at hthere
      exact (file_of_after hname hc hplain hd hplain' hthere).imp_right
        fun hsaved => ⟨use, by simp, hsaved⟩
    · obtain ⟨other, hother, hsaved⟩ := hsaved
      exact .inr ⟨other, by simp [hother], hsaved⟩

end

/-! ## What is loaded -/

/-- The content of a file is the text of a record. -/
def Holds (content : ByteArray) (r : CacheRecord) : Prop := CacheRecord.parse content = .ok r

/-- A record is read from a file at the end of the path. -/
theorem file_of_read {t : FileTree} {path : String} {r : CacheRecord} (h : read t path = .ok r) :
    ∃ content, t.at? (t.endOf path) = some (.file content) ∧ Holds content r := by
  unfold read at h
  cases hlookup : t.lookup path with
  | error fault =>
    rw [hlookup] at h
    cases h
  | ok e =>
    obtain ⟨target, hresolve, hfinds⟩ := lookup_eq_ok.mp hlookup
    have hend : target.place = t.endOf path := place_of_resolve hresolve
    rw [hlookup] at h
    dsimp only at h
    cases e with
    | directory => cases h
    | file content =>
      cases target with
      | directory place => cases hfinds
      | named place slash =>
        refine ⟨content, hend ▸ hfinds.1, ?_⟩
        simp only [Entry.bytes] at h
        cases hparse : CacheRecord.parse content with
        | error fault =>
          rw [hparse] at h
          cases h
        | ok found =>
          rw [hparse] at h
          obtain rfl := Except.ok.inj h
          exact hparse

theorem Holds.eq_asWritten {content : ByteArray} {r r' : CacheRecord} (h : Holds content r)
    (hfile : .file content = fileOf r') : r = r'.asWritten := by
  rw [fileOf, Entry.file.injEq] at hfile
  rw [Holds, hfile, CacheRecord.parse_print, Except.ok.injEq] at h
  exact h.symm

/-- **Fleets apart.** Of two checked configurations with one root and one name for their files, both
have the same path exactly if their components for the host and the projects are the same, which
they never are for different lists of plain names. Whatever is saved and removed by configurations
with such lists, what one of them loads was in its file before, or was saved by one with the same
list. -/
theorem fleets_apart (authority? : String → Option Url.Authority) (home : Home)
    {root filename : String} (hname : isAbsolute filename = false) :
    (∀ c d, Sited home root filename c → Sited home root filename d →
        (c.cachePathBy authority? home = d.cachePathBy authority? home
          ↔ hostComponentBy authority? c.gitHost = hostComponentBy authority? d.gitHost
            ∧ projectsComponent c.projects = projectsComponent d.projects)
        ∧ (Plain c.projects → Plain d.projects → c.projects ≠ d.projects →
            c.cachePathBy authority? home ≠ d.cachePathBy authority? home))
      ∧ (".." ∉ components filename → names filename ≠ [] →
          ∀ (c : Config) (uses : List Use), Sited home root filename c → Plain c.projects →
            (∀ use ∈ uses, Sited home root filename use.config ∧ Plain use.config.projects) →
            ∀ (t : FileTree) (ttl : Duration) (now : Timestamp) (r : CacheRecord),
              load (t.afterAll authority? home uses) (c.cachePathBy authority? home) ttl now
                = .ok r →
              (∃ content, t.at? (t.endOf (c.cachePathBy authority? home)) = some (.file content)
                  ∧ Holds content r)
                ∨ ∃ use ∈ uses, use.config.projects = c.projects
                    ∧ ∃ r', use.saved = some r' ∧ r = r'.asWritten) := by
  refine ⟨fun c d hc hd => ⟨?_, fun hplain hplain' hne heq => ?_⟩,
    fun hdots hcounts c uses hc hplain huses t ttl now r hload => ?_⟩
  · rw [hc.cachePath_eq_iff hd hname]
    simp [Sited.middle]
  · exact hc.middle_ne hd hplain hplain' hne.symm ((hc.cachePath_eq_iff hd hname).mp heq).symm
  · obtain ⟨content, hfile, hholds⟩ := file_of_read (load_eq_ok.mp hload).1
    rw [endOf_congr (workingDirectory_afterAll authority? home t uses)] at hfile
    rcases file_of_afterAll ⟨hname, hdots, hcounts⟩ hc hplain huses hfile with hthere | hsaved
    · exact .inl ⟨content, hthere, hholds⟩
    · obtain ⟨use, huse, hprojects, r', hsaved, hrecord⟩ := hsaved
      exact .inr ⟨use, huse, hprojects, r', hsaved, hholds.eq_asWritten hrecord⟩

/-! ## Plain lists, and lists that are confused -/

/-- A fleet with its cache in the current directory. -/
def fleet (projects : List String) : Config where
  provider := "static"
  projects := projects
  cache := { dir := some "cache" }

theorem fleet_sited (projects : List String) (h : (fleet projects).check = .ok ()) :
    Sited {} "cache" "repositories.json" (fleet projects) :=
  ⟨h, rfl, rfl, rfl⟩

theorem plainFleets_apart :
    isAbsolute "repositories.json" = false
      ∧ (fleet ["web", "app.v2"]).cachePath {} ≠ (fleet ["blog"]).cachePath {}
      ∧ ∀ uses : List Use,
          (∀ use ∈ uses, use.config = fleet ["web", "app.v2"] ∨ use.config = fleet ["blog"]) →
          ∀ ttl now r, load (({} : FileTree).afterAll Url.authority? {} uses)
              ((fleet ["blog"]).cachePath {}) ttl now = .ok r →
            ∃ use ∈ uses, use.config.projects = ["blog"]
              ∧ ∃ r', use.saved = some r' ∧ r = r'.asWritten := by
  have hname : isAbsolute "repositories.json" = false := by decide
  have hweb := fleet_sited ["web", "app.v2"] (by decide +kernel)
  have hblog := fleet_sited ["blog"] (by decide +kernel)
  have hplain : Plain ["web", "app.v2"] := ⟨by simp [isKept], by decide, by decide⟩
  have hplain' : Plain ["blog"] := ⟨by simp [isKept], by decide, by decide⟩
  obtain ⟨hpaths, hloads⟩ := fleets_apart Url.authority? {} hname
  refine ⟨hname, (hpaths _ _ hweb hblog).2 hplain hplain' (by decide), ?_⟩
  intro uses huses ttl now r hload
  have hsited : ∀ use ∈ uses, Sited {} "cache" "repositories.json" use.config
      ∧ Plain use.config.projects := by
    intro use huse
    rcases huses use huse with heq | heq
    · rw [heq]
      exact ⟨hweb, hplain⟩
    · rw [heq]
      exact ⟨hblog, hplain'⟩
  have hordinary : Ordinary "repositories.json" := ⟨by decide, by decide, by decide, by decide⟩
  rcases hloads (by rw [hordinary.components_eq]; decide) (by rw [hordinary.names_eq]; decide)
    _ uses hblog hplain' hsited {} ttl now r hload with ⟨content, hfile, -⟩ | hsaved
  · unfold at? at hfile
    split at hfile
    · cases hfile
    · simp at hfile
  · exact hsaved

/-- The directory of the cache for `team/web` or `team-web`. -/
def webFolders : FileTree :=
  ((({} : FileTree).put ["cache"] .directory).put ["cache", "local"] .directory).put
    ["cache", "local", "team-web"] .directory

theorem webFolders_ready : Ready webFolders ((fleet ["team/web"]).cachePath {})
    ["cache", "local", "team-web", "repositories.json.tmp"]
    ["cache", "local", "team-web", "repositories.json"] := by
  have hpath : (fleet ["team/web"]).cachePath {} = "cache/local/team-web/repositories.json" := by
    decide +kernel
  have hdraft : draftPath "cache/local/team-web/repositories.json"
      = "cache/local/team-web/repositories.json.tmp" := by
    simp [draftPath, withExtension, fileName?, splitName, splitLast?, trimEnd]
  rw [hpath]
  refine ⟨?_, by decide +kernel, by decide +kernel, by decide +kernel⟩
  rw [hdraft]
  decide +kernel

/-- Checked configurations with different projects, the second of which loads what the first one
saved, as long as it is not too old. -/
theorem fleets_confused :
    Sited {} "cache" "repositories.json" (fleet ["team/web"])
      ∧ Sited {} "cache" "repositories.json" (fleet ["team-web"])
      ∧ (fleet ["team/web"]).cachePath {} = (fleet ["team-web"]).cachePath {}
      ∧ ∀ r, ∃ u, save ((fleet ["team/web"]).cachePath {}) r webFolders = .ok () u
          ∧ ∀ ttl now, ¬ttl < r.asWritten.ageAt now →
              load u ((fleet ["team-web"]).cachePath {}) ttl now = .ok r.asWritten := by
  have hpath : (fleet ["team/web"]).cachePath {} = (fleet ["team-web"]).cachePath {} := by
    decide +kernel
  refine ⟨fleet_sited _ (by decide +kernel), fleet_sited _ (by decide +kernel), hpath, fun r => ?_⟩
  have hsave := webFolders_ready.save_eq r
  have hread := read_of_saved hsave
  rw [hpath] at hread
  exact ⟨_, hsave, fun ttl now hage => load_eq_ok.mpr ⟨hread, hage⟩⟩

end Cache

end RepoSelect
