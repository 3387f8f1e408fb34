import RepoSelect.Cache.Location
import RepoSelect.Proofs.Cache.Outcome
import RepoSelect.Proofs.Path.Join

/-!
# Where a cache lies

A configuration that does not name its cache file has one below its cache root, in a directory for
the host and one for the projects. Both are ordinary components whatever the configuration says and
whatever host a URL has (`ordinary_hostComponentBy`, `ordinary_component`). The name of the file is
joined as it is written, so

> the path is the root and three ordinary components if the name is one, an absolute name is the
> whole path, and a name without `..` leaves everything outside of the root as it is
> (`cachePath_confined`),

but a name that goes up leads out of the root (`cachePath_escapes`).
-/

namespace RepoSelect

open FileTree RepoSelect.Path

namespace Cache

/-! ## Components -/

theorem isKept_of_mem_sanitized {s : List Char} {d : Char} (h : d ∈ sanitized s) :
    isKept d = true := by
  obtain ⟨b, -, rfl⟩ := List.mem_map.mp h
  split
  · assumption
  · decide

/-- Every text is made an ordinary component. -/
theorem ordinary_component (text : String) : Ordinary (component text) := by
  unfold component
  dsimp only
  split
  · exact ⟨by decide, by decide, by decide, by decide⟩
  · next hplain =>
    simp only [not_or] at hplain
    refine ⟨hplain.1, hplain.2.1, hplain.2.2, fun hslash => ?_⟩
    rw [String.toList_ofList] at hslash
    exact absurd (isKept_of_mem_sanitized hslash) (by decide)

theorem ordinary_hostComponentBy (authority? : String → Option Url.Authority)
    (host : Option String) : Ordinary (hostComponentBy authority? host) := by
  unfold hostComponentBy
  split
  · exact ⟨by decide, by decide, by decide, by decide⟩
  · split
    · exact ordinary_component _
    · exact ordinary_component _
    · exact ordinary_component _

/-! ## Removing the file -/

/-- Removing the file leaves the tree as it is, or takes away what is at the end of the path. -/
theorem treeAfter_flush (t : FileTree) (path : String) :
    treeAfter (flush path) t = t
      ∨ t.endOf path ≠ [] ∧ treeAfter (flush path) t = t.drop (t.endOf path) := by
  unfold treeAfter flush
  cases hremove : t.removeFile path with
  | error fault => cases fault <;> exact .inl rfl
  | ok u =>
    obtain ⟨place, content, hresolve, -, rfl⟩ := removeFile_eq_ok.mp hremove
    have hend : place = t.endOf path := place_of_resolve hresolve
    exact .inr ⟨hend ▸ ne_nil_of_resolve hresolve, congrArg t.drop hend⟩

/-! ## The draft below a directory -/

/-- What stands behind the last component that counts does not reach to the front. -/
theorem front_of_idle {front behind ahead dots : List String} {file : String} (hidle : Idle dots)
    (hcounts : ∃ name ∈ behind, name ≠ ".") (h : front ++ behind = ahead ++ file :: dots) :
    ∃ rest, ahead = front ++ rest ∧ rest <+: behind := by
  rcases List.append_eq_append_iff.mp h with ⟨rest, hahead, hbehind⟩ | ⟨rest, hfront, hfile⟩
  · exact ⟨rest, hahead, ⟨_, hbehind.symm⟩⟩
  · cases rest with
    | nil => exact ⟨[], by rw [hfront, List.append_nil, List.append_nil], List.nil_prefix⟩
    | cons other rest =>
      obtain ⟨-, rfl⟩ := List.cons.inj hfile
      obtain ⟨name, hname, hne⟩ := hcounts
      exact absurd (hidle name (List.mem_append_right rest hname)) hne

/-- The draft lies below the names that the path goes through, if the path goes on behind them. -/
theorem endOf_draftPath_below {root path : String} {front behind : List String}
    (habs : isAbsolute path = isAbsolute root)
    (hpath : components path = components root ++ (front ++ behind))
    (hfront : ∀ name ∈ front, Ordinary name) (hdots : ".." ∉ behind)
    (hcounts : ∃ name ∈ behind, name ≠ ".") (t : FileTree) :
    t.endOf root ++ front <+: t.endOf (draftPath path) := by
  cases hname : fileName? path with
  | none =>
    rw [draftPath_of_fileName?_eq_none hname]
    exact endOf_below habs hpath hfront hdots t
  | some file =>
    obtain ⟨ahead, dots, sibling, hidle, hahead, hsibling, -, -, hsibling'⟩ :=
      components_draftPath hname
    rw [hpath, ← List.append_assoc] at hahead
    obtain ⟨rest, rfl, hrest⟩ := front_of_idle hidle hcounts hahead
    rw [List.append_assoc, List.append_assoc] at hsibling
    refine endOf_below ((isAbsolute_draftPath path).trans habs) hsibling hfront ?_ t
    rw [List.mem_append, List.mem_singleton, not_or]
    exact ⟨fun hmem => hdots (hrest.subset hmem), hsibling'.symm⟩

/-! ## Below a directory -/

/-- The path is a directory and three ordinary components behind it. -/
def IsThreeBelow (root path : String) : Prop :=
  ∃ host projects name, Ordinary host ∧ Ordinary projects ∧ Ordinary name
    ∧ isAbsolute path = isAbsolute root ∧ names path = names root ++ [host, projects, name]

/-- The place is in a directory or somewhere below it. -/
def Inside (t : FileTree) (root : String) (place : Place) : Prop :=
  t.endOf root <+: place ∧ place ≠ t.endOf root

/-- Whatever is saved at the path or removed from it, nothing changes outside of the root, but that
directories may be made on the way to the file. -/
def StaysBelow (root path : String) : Prop :=
  ∀ (t : FileTree) (place : Place), ¬Inside t root place →
    (∀ r, (treeAfter (save path r) t).at? place = t.at? place
        ∨ t.at? place = none ∧ (treeAfter (save path r) t).at? place = some .directory
            ∧ place ∈ t.placesAlong (folder path))
      ∧ (treeAfter (flush path) t).at? place = t.at? place

theorem inside_of_below {t : FileTree} {root name : String} {place : Place}
    (h : t.endOf root ++ [name] <+: place) : Inside t root place := by
  refine ⟨(List.prefix_append _ _).trans h, ?_⟩
  rintro rfl
  have hlength := h.length_le
  rw [List.length_append, List.length_singleton] at hlength
  omega

/-- Nothing changes outside of a directory if neither the path nor its draft leads there. -/
theorem staysBelow_of_inside {root path : String} (hpath : ∀ t, Inside t root (t.endOf path))
    (hdraft : ∀ t, Inside t root (t.endOf (draftPath path))) : StaysBelow root path := by
  intro t place hout
  have hne : place ≠ t.endOf path := by
    rintro rfl
    exact hout (hpath t)
  have hne' : place ≠ t.endOf (draftPath path) := by
    rintro rfl
    exact hout (hdraft t)
  refine ⟨fun r => (save_alters t path r).at?_eq place hne hne', ?_⟩
  rcases treeAfter_flush t path with heq | ⟨hnil, heq⟩
  · rw [heq]
  · rw [heq, at?_drop _ _ hnil, if_neg hne.symm]

end Cache

/-! ## The path of a configuration -/

namespace Config

open Cache

variable {authority? : String → Option Url.Authority} {c : Config} {home : Home}

/-- The directory that the file is named in. -/
def cacheFolder (authority? : String → Option Url.Authority) (c : Config) (home : Home) : String :=
  join (join (c.cacheRoot home) (hostComponentBy authority? c.gitHost))
    (projectsComponent c.projects)

theorem cachePathBy_eq (hfile : c.cache.file = none) :
    c.cachePathBy authority? home = join (c.cacheFolder authority? home) c.cache.filename := by
  rw [cachePathBy, hfile]
  rfl

theorem components_cacheFolder : components (c.cacheFolder authority? home)
    = components (c.cacheRoot home)
        ++ [hostComponentBy authority? c.gitHost, projectsComponent c.projects] := by
  have hhost := ordinary_hostComponentBy authority? c.gitHost
  have hprojects : Ordinary (projectsComponent c.projects) := ordinary_component _
  rw [cacheFolder, components_join hprojects.isAbsolute_eq, components_join hhost.isAbsolute_eq,
    hprojects.components_eq, hhost.components_eq, List.append_assoc]
  rfl

theorem isAbsolute_cacheFolder :
    isAbsolute (c.cacheFolder authority? home) = isAbsolute (c.cacheRoot home) := by
  have hprojects : Ordinary (projectsComponent c.projects) := ordinary_component _
  rw [cacheFolder, isAbsolute_join hprojects.isAbsolute_eq,
    isAbsolute_join (ordinary_hostComponentBy authority? c.gitHost).isAbsolute_eq]

theorem components_cachePathBy (hfile : c.cache.file = none)
    (hname : isAbsolute c.cache.filename = false) : components (c.cachePathBy authority? home)
      = components (c.cacheRoot home) ++ ([hostComponentBy authority? c.gitHost]
          ++ projectsComponent c.projects :: components c.cache.filename) := by
  rw [cachePathBy_eq hfile, components_join hname, components_cacheFolder, List.append_assoc]
  rfl

theorem names_cachePathBy (hfile : c.cache.file = none)
    (hname : isAbsolute c.cache.filename = false) : names (c.cachePathBy authority? home)
      = names (c.cacheRoot home) ++ hostComponentBy authority? c.gitHost
          :: projectsComponent c.projects :: names c.cache.filename := by
  have hhost := ordinary_hostComponentBy authority? c.gitHost
  have hprojects : Ordinary (projectsComponent c.projects) := ordinary_component _
  rw [names, components_cachePathBy hfile hname, List.filter_append, names, names]
  simp [hhost.ne_dot, hprojects.ne_dot]

theorem isAbsolute_cachePathBy (hfile : c.cache.file = none)
    (hname : isAbsolute c.cache.filename = false) :
    isAbsolute (c.cachePathBy authority? home) = isAbsolute (c.cacheRoot home) := by
  rw [cachePathBy_eq hfile, isAbsolute_join hname, isAbsolute_cacheFolder]

/-- A file whose name does not go up stays below the root, and so does its draft. -/
theorem staysBelow_cachePathBy (hfile : c.cache.file = none)
    (hname : isAbsolute c.cache.filename = false) (hdots : ".." ∉ components c.cache.filename) :
    StaysBelow (c.cacheRoot home) (c.cachePathBy authority? home) := by
  have hprojects : Ordinary (projectsComponent c.projects) := ordinary_component _
  have habs : isAbsolute (c.cachePathBy authority? home) = isAbsolute (c.cacheRoot home) :=
    isAbsolute_cachePathBy hfile hname
  have hpath : components (c.cachePathBy authority? home) = _ :=
    components_cachePathBy hfile hname
  have hhost : ∀ name ∈ [hostComponentBy authority? c.gitHost], Ordinary name := by
    intro name hmem
    rw [List.mem_singleton.mp hmem]
    exact ordinary_hostComponentBy authority? c.gitHost
  have hbehind : ".." ∉ projectsComponent c.projects :: components c.cache.filename := by
    rw [List.mem_cons, not_or]
    exact ⟨hprojects.ne_dots.symm, hdots⟩
  exact staysBelow_of_inside
    (fun t => inside_of_below (endOf_below habs hpath hhost hbehind t))
    fun t => inside_of_below
      (endOf_draftPath_below habs hpath hhost hbehind ⟨_, by simp, hprojects.ne_dot⟩ t)

/-- **Where the cache lies.** Behind the root there are a component for the host, one for the
projects and what the name of the file says, which is all a path of three ordinary components
exactly if the name is one. Without `..` in it, nothing outside of the root is ever touched; an
absolute name is the path. -/
theorem cachePath_confined (authority? : String → Option Url.Authority) (c : Config) (home : Home)
    (hfile : c.cache.file = none) :
    (isAbsolute c.cache.filename = false →
        (IsThreeBelow (c.cacheRoot home) (c.cachePathBy authority? home)
          ↔ ∃ name, Ordinary name ∧ names c.cache.filename = [name])
        ∧ (".." ∉ components c.cache.filename →
            StaysBelow (c.cacheRoot home) (c.cachePathBy authority? home)))
      ∧ (isAbsolute c.cache.filename = true →
          c.cachePathBy authority? home = c.cache.filename) := by
  refine ⟨fun hname => ⟨?_, staysBelow_cachePathBy hfile hname⟩, fun hname => ?_⟩
  · have hnames : names (c.cachePathBy authority? home) = _ := names_cachePathBy hfile hname
    have habs : isAbsolute (c.cachePathBy authority? home) = isAbsolute (c.cacheRoot home) :=
      isAbsolute_cachePathBy hfile hname
    constructor
    · rintro ⟨host, projects, name, -, -, hordinary, -, hpath⟩
      rw [hnames, List.append_cancel_left_eq] at hpath
      exact ⟨name, hordinary, (List.cons.inj (List.cons.inj hpath).2).2⟩
    · rintro ⟨name, hordinary, hpath⟩
      rw [hpath] at hnames
      exact ⟨_, _, name, ordinary_hostComponentBy _ _, ordinary_component _, hordinary, habs,
        hnames⟩
  · rw [cachePathBy_eq hfile, join_of_isAbsolute hname]

/-! ## Two configurations -/

/-- A configuration whose texts look like paths, with a plain name for its file. -/
def plainlyNamed : Config where
  provider := "static"
  projects := ["..", "team/web"]
  gitHost := some "../:8443/"
  cache := { dir := some "cache" }

theorem plainlyNamed_confined :
    plainlyNamed.cache.file = none
      ∧ IsThreeBelow "cache" (plainlyNamed.cachePath {})
      ∧ StaysBelow "cache" (plainlyNamed.cachePath {}) := by
  have hordinary : Ordinary "repositories.json" := ⟨by decide, by decide, by decide, by decide⟩
  have hconfined := (cachePath_confined Url.authority? plainlyNamed {} rfl).1
    hordinary.isAbsolute_eq
  refine ⟨rfl, hconfined.1.mpr ⟨_, hordinary, hordinary.names_eq⟩, hconfined.2 ?_⟩
  have hcomponents : components plainlyNamed.cache.filename = ["repositories.json"] :=
    hordinary.components_eq
  rw [hcomponents]
  decide

/-- A configuration that names its file by a way up. -/
def upwardNamed : Config where
  provider := "mock"
  projects := ["platform"]
  cache := { dir := some "cache", filename := "../../../out.json" }

/-- A tree with the directory that the file would be in. -/
def cacheFolders : FileTree :=
  ((({} : FileTree).put ["cache"] .directory).put ["cache", "local"] .directory).put
    ["cache", "local", "platform"] .directory

theorem upwardNamed_ready : Ready cacheFolders (upwardNamed.cachePath {}) ["out.json.tmp"]
    ["out.json"] := by
  have hpath : upwardNamed.cachePath {} = "cache/local/platform/../../../out.json" := by
    decide +kernel
  have hdraft : draftPath "cache/local/platform/../../../out.json"
      = "cache/local/platform/../../../out.json.tmp" := by
    simp [draftPath, withExtension, fileName?, splitName, splitLast?, trimEnd]
  rw [hpath]
  refine ⟨?_, by decide +kernel, by decide +kernel, by decide +kernel⟩
  rw [hdraft]
  decide +kernel

/-- A checked configuration whose cache is saved outside of its root, and removed there. -/
theorem cachePath_escapes :
    upwardNamed.check = .ok () ∧ upwardNamed.cache.file = none
      ∧ ¬IsThreeBelow "cache" (upwardNamed.cachePath {})
      ∧ ¬Inside cacheFolders "cache" ["out.json"]
      ∧ cacheFolders.at? ["out.json"] = none
      ∧ ∀ r, ∃ u, save (upwardNamed.cachePath {}) r cacheFolders = .ok () u
          ∧ u.at? ["out.json"] = some (fileOf r)
          ∧ (treeAfter (flush (upwardNamed.cachePath {})) u).at? ["out.json"] = none := by
  have hnames : names (upwardNamed.cachePath {})
      = ["cache", "local", "platform", "..", "..", "..", "out.json"] := by decide +kernel
  have hroot : cacheFolders.endOf "cache" = ["cache"] := by decide +kernel
  refine ⟨by decide +kernel, rfl, ?_, ?_, by decide +kernel, fun r => ?_⟩
  · rintro ⟨host, projects, name, -, -, -, -, hpath⟩
    have hlength := congrArg List.length (hnames.symm.trans hpath)
    have hnamesRoot : names "cache" = ["cache"] := by decide +kernel
    rw [List.length_append, hnamesRoot] at hlength
    simp at hlength
  · rw [Inside, hroot]
    decide
  · have hready := upwardNamed_ready
    have hsaved := hready.saved r.print.toUTF8
    refine ⟨_, hready.save_eq r, ?_, ?_⟩
    · rw [at?_put _ _ _ hready.place_ne_nil, if_pos rfl]
    · have hremove := removeFile_eq_ok.mpr ⟨_, r.print.toUTF8, hsaved.resolve_place,
        by rw [at?_put _ _ _ hready.place_ne_nil, if_pos rfl], rfl⟩
      rw [treeAfter, flush, fileOf, hremove]
      exact (at?_drop _ _ hready.place_ne_nil).trans (if_pos rfl)

end Config

end RepoSelect
