import RepoSelect.Proofs.Filter.Lead
import RepoSelect.Proofs.Label.Build
import RepoSelect.Proofs.Service.Labels

/-!
# Completions that are read

What completion offers is to be read again, as a token for something that the service holds:

> It is, for every state in which the names are fit and for whatever has been typed, exactly if the
> markers keep the runs that completion takes off, and so if no marker is a prefix of another
> (`completions_read_iff`).

Whatever the markers are, the candidates come in increasing order, start with what has been typed,
and are the words that are held behind the run (`completions_eq`). That the markers have to keep
*every* run is seen from services that hold next to nothing (`exists_sole`): the superset and the
repository can have names that the candidate in question is not read as.
-/

namespace RepoSelect

variable {m : Markers} {ks : List MarkerKind} {name : String}

/-! ## What is held -/

namespace Holding

/-- Labels are offered behind their marker, and repositories as they are. -/
inductive Offers (h : Holding) : List MarkerKind → String → Prop
  | repository {key : String} (hkey : key ∈ h.repositories) : Offers h [] key
  | label {label : String} (hlabel : label ∈ h.labels.names) : Offers h [.label] label

/-- All names that are held can stand behind markers. -/
structure Fit (h : Holding) (m : Markers) : Prop where
  key {key : String} (hkey : key ∈ h.repositories) : m.Fit key
  label {label : String} (hlabel : label ∈ h.labels.names) : m.Fit label

/-- The token is for something that is held, skipped and forced as the run says. -/
structure Means (h : Holding) (ks : List MarkerKind) (t : Token) : Prop where
  held : if t.isLabel then t.name ∈ h.labels.names else t.name ∈ h.repositories
  isSkipped_iff : t.isSkipped = true ↔ .skip ∈ ks
  isForced_iff : t.isForced = true ↔ .force ∈ ks

variable {h : Holding} {ending : List MarkerKind}

theorem Offers.ending_mem (hoffers : h.Offers ending name) :
    ending ∈ [[], [MarkerKind.label]] := by
  cases hoffers <;> simp

theorem Fit.offered (hfit : h.Fit m) (hoffers : h.Offers ending name) : m.Fit name := by
  cases hoffers with
  | repository hkey => exact hfit.key hkey
  | label hlabel => exact hfit.label hlabel

/-- The token of what is offered behind a run means it. -/
theorem Offers.means (hoffers : h.Offers ending name) (hlabel : .label ∉ ks) :
    h.Means ks (Token.ofRun (ks ++ ending) name.toList) := by
  cases hoffers with
  | repository hkey => constructor <;> simp [Token.ofRun, hlabel, hkey]
  | label hmem => constructor <;> simp [Token.ofRun, hmem]

/-- A token that means something is the one of the run and the name if it is called so and is a
label exactly if the run ends with its marker. -/
theorem Means.eq_ofRun {t : Token} (hmeans : h.Means ks t) (hlabel : .label ∉ ks)
    (hskip : .skip ∉ ending) (hforce : .force ∉ ending) (hname : t.name = name)
    (hkind : t.isLabel = true ↔ .label ∈ ending) : t = Token.ofRun (ks ++ ending) name.toList := by
  have hisLabel : t.isLabel = (ks ++ ending).contains .label := by
    rw [Bool.eq_iff_iff, hkind, List.contains_iff_mem, List.mem_append, or_iff_right hlabel]
  have hisForced : t.isForced = (ks ++ ending).contains .force := by
    rw [Bool.eq_iff_iff, hmeans.isForced_iff, List.contains_iff_mem, List.mem_append,
      or_iff_left hforce]
  have hisSkipped : t.isSkipped = (ks ++ ending).contains .skip := by
    rw [Bool.eq_iff_iff, hmeans.isSkipped_iff, List.contains_iff_mem, List.mem_append,
      or_iff_left hskip]
  obtain ⟨_, _, _, _⟩ := t
  rw [Token.ofRun, String.ofList_toList, Token.mk.injEq]
  exact ⟨hname, hisLabel, hisForced, hisSkipped⟩

end Holding

namespace Service

variable {s : Service} {typed : String}

/-! ## What is offered -/

theorem mem_words {h : Holding} {word : String} : word ∈ Holding.words h m ↔
    ∃ ending name, h.Offers ending name ∧ word.toList = m.concat ending ++ name.toList := by
  have hlabel : m.concat [.label] = m.label.toList := List.append_nil _
  rw [Holding.words, List.mem_append, List.mem_map, Std.ExtTreeMap.mem_keys]
  constructor
  · rintro (⟨label, hmem, rfl⟩ | hkey)
    · exact ⟨_, label, .label hmem, by rw [hlabel, String.toList_append]⟩
    · exact ⟨_, word, .repository hkey, rfl⟩
  · rintro ⟨ending, name, hoffers, hword⟩
    cases hoffers with
    | repository hkey => exact .inr (String.toList_inj.mp hword ▸ hkey)
    | label hmem =>
      rw [hlabel, ← String.toList_append] at hword
      exact .inl ⟨name, hmem, (String.toList_inj.mp hword).symm⟩

/-- The candidates are the words that are held, behind the run that was taken off, as far as they
start with what has been typed. -/
theorem completions_eq (hcheck : s.markers.check = .ok ()) (hclean : s.isPoisoned = false)
    (typed : String) : ∃ candidates ks rest, s.completions typed = .ok candidates
      ∧ s.markers.Leads typed.toList ks rest ∧ candidates.Pairwise (· < ·)
      ∧ ∀ candidate, candidate ∈ candidates ↔ typed.toList <+: candidate.toList
          ∧ ∃ ending name, s.held.Offers ending name
            ∧ candidate.toList = s.markers.concat (ks ++ ending) ++ name.toList := by
  obtain ⟨ks, hleads, hlead⟩ := Markers.splitLead_leads hcheck typed.toList
  have hview : s.view = .ok s.held := if_neg (by rw [hclean]; exact Bool.false_ne_true)
  let set : NameSet := .ofList (((Holding.words s.held s.markers).filter fun w =>
    (s.markers.splitLead typed.toList).2.isPrefixOf w.toList).map
      (String.ofList (s.markers.splitLead typed.toList).1 ++ ·))
  have hcompletions : s.completions typed = .ok set.toList := by
    rw [completions, hview]
    rfl
  refine ⟨set.toList, ks, _, hcompletions, hleads, set.pairwise_lt, fun candidate => ?_⟩
  rw [Std.ExtTreeSet.mem_toList, Std.ExtTreeSet.mem_ofList, List.contains_iff_mem, List.mem_map]
  have hbehind (word : String) :
      (String.ofList (s.markers.splitLead typed.toList).1 ++ word).toList
        = s.markers.concat ks ++ word.toList := by
    rw [String.toList_append, String.toList_ofList, hlead]
  constructor
  · rintro ⟨word, hmem, rfl⟩
    obtain ⟨hmem, hstarts⟩ := List.mem_filter.mp hmem
    obtain ⟨ending, name, hoffers, hname⟩ := mem_words.mp hmem
    refine ⟨?_, ending, name, hoffers, ?_⟩
    · rw [hbehind]
      exact hleads.prefix_iff.mp (List.isPrefixOf_iff_prefix.mp hstarts)
    · rw [hbehind, hname, Markers.concat_append, List.append_assoc]
  · rintro ⟨hstarts, ending, name, hoffers, hname⟩
    rw [Markers.concat_append, List.append_assoc] at hname
    have hword : (String.ofList (s.markers.concat ending ++ name.toList)).toList
        = s.markers.concat ending ++ name.toList := String.toList_ofList
    refine ⟨_, List.mem_filter.mpr ⟨mem_words.mpr ⟨ending, name, hoffers, hword⟩, ?_⟩, ?_⟩
    · rw [hname] at hstarts
      rw [hword]
      exact List.isPrefixOf_iff_prefix.mpr (hleads.prefix_iff.mpr hstarts)
    · exact String.toList_inj.mp (by rw [hbehind, hword, hname])

/-- What is offered is read as something that is held, skipped and forced as the run in front
says. -/
def ReadsCompletions (s : Service) (typed : String) : Prop :=
  ∃ candidates ks rest, s.completions typed = .ok candidates
    ∧ s.markers.Leads typed.toList ks rest
    ∧ ∀ candidate ∈ candidates, s.held.Means ks (Token.read s.markers candidate)

theorem readsCompletions_of_keeps (hcheck : s.markers.check = .ok ()) (hkeeps : s.markers.Keeps)
    (hclean : s.isPoisoned = false) (hfit : s.held.Fit s.markers) (typed : String) :
    s.ReadsCompletions typed := by
  obtain ⟨candidates, ks, rest, hcompletions, hleads, -, hmem⟩ := completions_eq hcheck hclean typed
  refine ⟨candidates, ks, rest, hcompletions, hleads, fun candidate hcandidate => ?_⟩
  obtain ⟨-, ending, name, hoffers, hname⟩ := (hmem candidate).mp hcandidate
  have hread := hkeeps _ ks (hleads.whole hcheck) ending hoffers.ending_mem name
    (hfit.offered hoffers)
  rw [← hname, String.ofList_toList] at hread
  rw [hread]
  exact hoffers.means hleads.label_not_mem

/-! ## Services that hold one repository -/

/-- The service can be reached with these markers, answers, and holds fit names. -/
structure Stands (m : Markers) (s : Service) : Prop where
  reached : ∃ c g path s₀, start c g path = .ok s₀ ∧ Steps s₀ s ∧ c.filter.markers = m
  clean : s.isPoisoned = false
  fit : s.held.Fit m

theorem Stands.markers_eq (h : Stands m s) : s.markers = m := by
  obtain ⟨c, g, path, s₀, hstart, hrun, rfl⟩ := h.reached
  rw [markers, (followsFrom_of_start hstart hrun).1]

/-- Next to the superset a service can hold just one repository with its labels. -/
theorem exists_sole (hcheck : m.check = .ok ()) {superset key : String} {labels : List String}
    (hsuperset : m.Fit superset) (hkey : m.Fit key) (hlabels : ∀ label ∈ labels, m.Fit label) :
    ∃ s, Stands m s ∧ (∀ k, k ∈ s.held.repositories ↔ k = key)
      ∧ ∀ l, l ∈ s.held.labels.names ↔ l = superset ∨ l ∈ labels := by
  let c : Config :=
    { provider := "mock", projects := ["platform"], filter := { markers := m, superset } }
  let g := ProviderRegistry.empty.register "mock" fun _ => .error (.unsupported "mock" "lists")
  let s₀ : Service := { config := c, cachePath := "c.json", registry := g }
  let catalog : Catalog := (∅ : Catalog).insert key { name := key, labels }
  have hchecked : c.check = .ok () := by
    have htexts : hasText "mock" = true ∧ hasText "platform" = true
        ∧ hasText "repositories.json" = true := by decide
    simp [c, Config.check, Config.fault?, htexts, hsuperset.hasText, hcheck, Duration.isZero,
      Duration.ofSeconds]
  have hensure : g.ensure "mock" = .ok () := by decide +kernel
  have hstart : start c g "c.json" = .ok s₀ := start_of_check hchecked hensure
  have hkeys (k : String) : k ∈ (s₀.withCatalog catalog).held.repositories ↔ k = key := by
    show k ∈ catalog ↔ k = key
    rw [Std.ExtTreeMap.mem_insert, Std.LawfulEqCmp.compare_eq_iff_eq,
      or_iff_left Std.ExtTreeMap.not_mem_empty]
    exact eq_comm
  have hnames (l : String) : l ∈ (s₀.withCatalog catalog).held.labels.names
      ↔ l = superset ∨ l ∈ labels := by
    show l ∈ (LabelIndex.build catalog ∅ superset).names ↔ _
    rw [LabelIndex.mem_names, LabelIndex.contains_build]
    simp [catalog, Std.ExtTreeMap.getElem?_insert]
  refine ⟨s₀.withCatalog catalog,
    ⟨⟨c, g, _, s₀, hstart, .single (.replace rfl), rfl⟩, rfl, fun hk => ?_, fun hl => ?_⟩,
    hkeys, hnames⟩
  · rwa [(hkeys _).mp hk]
  · rcases (hnames _).mp hl with rfl | hl
    · exact hsuperset
    · exact hlabels _ hl

/-- What is offered behind a run that is taken off as a whole is a candidate, and so is read as
something that is held. -/
theorem ReadsCompletions.means {text : List Char} {ending : List MarkerKind}
    (hcheck : s.markers.check = .ok ()) (hclean : s.isPoisoned = false)
    (hleads : s.markers.Leads text ks []) (hreads : s.ReadsCompletions (String.ofList text))
    (hoffers : s.held.Offers ending name) : s.held.Means ks
      (Token.read s.markers (String.ofList (s.markers.concat (ks ++ ending) ++ name.toList))) := by
  obtain ⟨candidates, ks₁, rest₁, hcompletions₁, hleads₁, hmeans⟩ := hreads
  obtain ⟨candidates₂, ks₂, rest₂, hcompletions₂, hleads₂, -, hmem⟩ :=
    completions_eq hcheck hclean (String.ofList text)
  obtain rfl := Except.ok.inj (hcompletions₁.symm.trans hcompletions₂)
  rw [String.toList_ofList] at hleads₁ hleads₂ hmem
  obtain ⟨rfl, -⟩ := hleads.unique hleads₁
  obtain ⟨rfl, -⟩ := hleads₁.unique hleads₂
  refine hmeans _ ((hmem _).mpr ⟨?_, ending, name, hoffers, String.toList_ofList⟩)
  rw [String.toList_ofList, ← hleads.append_eq, List.append_nil, Markers.concat_append,
    List.append_assoc]
  exact List.prefix_append _ _

theorem keeps_of_reads (hcheck : m.check = .ok ())
    (hreads : ∀ s, Stands m s → ∀ typed, s.ReadsCompletions typed) : m.Keeps := by
  intro text ks hleads ending hending name hname
  generalize hread : Token.read m (String.ofList (m.concat (ks ++ ending) ++ name.toList)) = t
  -- The superset, and the repository if it is not the one in question, are called otherwise.
  obtain ⟨superset, hsuperset, hfit⟩ := m.exists_fit [t.name]
  obtain ⟨key, hkey, hfit'⟩ := m.exists_fit [t.name]
  rw [List.mem_singleton] at hsuperset hkey
  have hmeans {s : Service} (hstands : Stands m s) (hoffers : s.held.Offers ending name) :
      s.held.Means ks t := by
    obtain rfl := hstands.markers_eq
    rw [← hread]
    exact (hreads s hstands _).means hcheck hstands.clean hleads hoffers
  rw [List.mem_cons, List.mem_singleton] at hending
  rcases hending with rfl | rfl
  · have hnone : ∀ label ∈ ([] : List String), m.Fit label := nofun
    obtain ⟨s, hstands, hkeys, hnames⟩ := exists_sole hcheck hfit hname hnone
    have ht : s.held.Means ks t := hmeans hstands (.repository ((hkeys name).mpr rfl))
    have hheld := ht.held
    rw [hkeys, hnames, or_iff_left List.not_mem_nil] at hheld
    have hplain : ¬t.isLabel = true := by
      intro hlabel
      rw [if_pos hlabel] at hheld
      exact hsuperset hheld.symm
    rw [if_neg hplain] at hheld
    exact ht.eq_ofRun hleads.label_not_mem (by decide) (by decide) hheld
      (iff_of_false hplain (by decide))
  · have hone : ∀ label ∈ [name], m.Fit label := by
      simpa using hname
    obtain ⟨s, hstands, hkeys, hnames⟩ := exists_sole hcheck hfit hfit' hone
    have ht : s.held.Means ks t :=
      hmeans hstands (.label ((hnames name).mpr (.inr (List.mem_singleton_self name))))
    have hheld := ht.held
    rw [hkeys, hnames, or_iff_right (Ne.symm hsuperset), List.mem_singleton] at hheld
    have hlabel : t.isLabel = true := by
      by_contra hplain
      rw [if_neg hplain] at hheld
      exact hkey hheld.symm
    rw [if_pos hlabel] at hheld
    exact ht.eq_ofRun hleads.label_not_mem (by decide) (by decide) hheld
      (iff_of_true hlabel (by decide))

/-- **Completions that are read.** In all states that services with these markers can reach and in
which all names are fit, whatever is offered behind whatever has been typed is read as something
that is held, skipped and forced as the run in front says, exactly if the markers keep the runs that
completion takes off, and they do if no marker is a prefix of another. In any case the candidates
come in increasing order, and they are the words behind the run that start with what has been
typed. -/
theorem completions_read_iff (m : Markers) (hcheck : m.check = .ok ()) :
    ((∀ s, Stands m s → ∀ typed, s.ReadsCompletions typed) ↔ m.Keeps)
      ∧ (m.PrefixFree → m.Keeps)
      ∧ ∀ s : Service, s.markers = m → s.isPoisoned = false → ∀ typed,
          ∃ candidates ks rest, s.completions typed = .ok candidates
            ∧ m.Leads typed.toList ks rest ∧ candidates.Pairwise (· < ·)
            ∧ ∀ candidate, candidate ∈ candidates ↔ typed.toList <+: candidate.toList
                ∧ ∃ ending name, s.held.Offers ending name
                  ∧ candidate.toList = m.concat (ks ++ ending) ++ name.toList := by
  refine ⟨⟨keeps_of_reads hcheck, fun hkeeps s hstands typed => ?_⟩,
    Markers.keeps_of_prefixFree hcheck, fun s hmarkers hclean typed => ?_⟩
  · obtain rfl := hstands.markers_eq
    exact readsCompletions_of_keeps hcheck hkeeps hstands.clean hstands.fit typed
  · subst hmarkers
    exact completions_eq hcheck hclean typed

theorem default_completions_read :
    ({} : Markers).check = .ok () ∧ (∃ s, Stands {} s ∧ "app" ∈ s.held.repositories)
      ∧ ∀ s, Stands {} s → ∀ typed, s.ReadsCompletions typed := by
  have hcheck : ({} : Markers).check = .ok () := by rfl
  obtain ⟨hreads, hkeeps, -⟩ := completions_read_iff {} hcheck
  have hnone : ∀ label ∈ ([] : List String), Markers.Fit {} label := nofun
  obtain ⟨s, hstands, hkeys, -⟩ :=
    exists_sole hcheck (by decide : Markers.Fit {} "all") (by decide : Markers.Fit {} "app") hnone
  exact ⟨hcheck, ⟨s, hstands, (hkeys "app").mpr rfl⟩, hreads.mpr (hkeeps (by decide))⟩

/-! ## A marker that begins another -/

/-- A force marker that starts with the skip marker. -/
def nested : Markers := ⟨"~", "!", "!+"⟩

/-- A service that holds two repositories, one of which is named like the rest of the force
marker. -/
def nestedHolder : Service :=
  let s : Service :=
    { config := { provider := "mock", projects := ["platform"], filter := { markers := nested } }
      cachePath := "c.json"
      registry := ProviderRegistry.empty.register "mock" fun _ =>
        .error (.unsupported "mock" "lists") }
  s.withCatalog (((∅ : Catalog).insert "app" { name := "app" }).insert "+x" { name := "+x" })

theorem nestedHolder_stands : Stands nested nestedHolder where
  reached := ⟨_, _, "c.json", _, start_of_check (by decide +kernel) (by decide +kernel),
    .single (.replace rfl), rfl⟩
  clean := rfl
  fit := by
    have hkeys : ∀ key ∈ nestedHolder.held.repositories.keys, nested.Fit key := by decide +kernel
    have hlabels : ∀ label ∈ nestedHolder.held.labels.names, nested.Fit label := by decide +kernel
    exact ⟨fun hkey => hkeys _ (Std.ExtTreeMap.mem_keys.mpr hkey), fun hlabel => hlabels _ hlabel⟩

/-- Of the force marker that has been typed the skip marker is taken off, and what is offered is
read as a forced repository that nobody holds. -/
theorem nested_completion_misread :
    nested.check = .ok () ∧ Stands nested nestedHolder
      ∧ nestedHolder.held.repositories.keys = ["+x", "app"]
      ∧ nestedHolder.completions "!+" = .ok ["!+x"]
      ∧ Token.read nested "!+x" = { name := "x", isForced := true }
      ∧ ¬nestedHolder.ReadsCompletions "!+" := by
  have hkeys : nestedHolder.held.repositories.keys = ["+x", "app"] := by decide +kernel
  have hcompletions : nestedHolder.completions "!+" = .ok ["!+x"] := by decide +kernel
  have hread : Token.read nested "!+x" = { name := "x", isForced := true } := by decide +kernel
  refine ⟨by rfl, nestedHolder_stands, hkeys, hcompletions, hread, ?_⟩
  rintro ⟨candidates, ks, rest, hcandidates, -, hmeans⟩
  obtain rfl := Except.ok.inj (hcompletions.symm.trans hcandidates)
  have hheld := (hmeans "!+x" (List.mem_singleton_self _)).held
  rw [nestedHolder_stands.markers_eq, hread] at hheld
  have hmem : "x" ∈ nestedHolder.held.repositories.keys := Std.ExtTreeMap.mem_keys.mpr hheld
  rw [hkeys] at hmem
  exact absurd hmem (by decide)

end Service

end RepoSelect
