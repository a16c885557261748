import DocPress.Proofs.Build.Agreement
import DocPress.Proofs.Watch.Reachable

/-!
# A pass is as good as a build

A template is settled in a session when it is pending or its generated file is
fresh. When all templates are settled and some sources are edited and reported, one
pass settles all templates again: every template whose text changed is affected,
because it was edited itself or its search meets an edited partial. What the pass
leaves is the tree that a build of the edited project leaves.
-/

set_option autoImplicit false

namespace DocPress.Watch.Session

open Discovery Compilation Dependency FileTree Build DocPress.Task

/-- Whether a template is pending, or rendering it safely would succeed and change nothing. -/
def IsSettled (s : Session) (d : Disk) (t : Path) : Prop :=
  t ∈ s.errors ∨ ∃ r e, Yields (renderFile s.config false t) d r e ∧ r.isOk = true ∧
    ∀ q, e.files.at? q = d.files.at? q

/-- An edit of a project: some sources outside of the output are created, rewritten or deleted,
and every other file stays. -/
structure IsEdit (c : Config) (before after : FileTree) (changed : List Path) : Prop where
  nonempty : changed ≠ []
  real : ∀ p ∈ changed, p.IsReal
  sources : ∀ p ∈ changed, IsSource c p ∧ p.isWithin c.output = false
  files : ∀ p ∈ changed, before.isFile p = true ∨ after.isFile p = true
  same : ∀ p, p.IsReal → p ∉ changed → before.content? p = after.content? p

/-- A path that documents may include: a source, and one named as a partial where the edit
touches it. -/
def IsInclusion (c : Config) (changed : List Path) (p : Path) : Prop :=
  IsSource c p ∧ (p ∈ changed → Naming.isPartial p.name = true)

variable {c : Config} {s : Session} {before after : FileTree} {changed : List Path} {t : Path}

/-! ## Sources in proper trees -/

theorem isReportable_of_edit (hbefore : before.isProper = true) (hafter : after.isProper = true)
    (h : IsEdit c before after changed) : ∀ p ∈ changed, IsReportable c p := by
  intro p hp
  obtain ⟨hsource, houtside⟩ := h.sources p hp
  refine ⟨hsource, houtside, ?_⟩
  rcases h.files p hp with hf | hf
  · exact isEntryName_of_isFile hbefore (h.real p hp) hf
  · exact isEntryName_of_isFile hafter (h.real p hp) hf

theorem mem_templates_of_isFile {files : FileTree} (hc : c.Rooted) (hf : files.isProper = true)
    (ht : t.IsReal) (h : IsTemplate c t) (hfile : files.isFile t = true) :
    t ∈ templates files c :=
  (mem_templates hf hc.templates).2 ⟨h, (isFile_iff_at? ht).1 hfile⟩

theorem isSource_of_mem_templates {files : FileTree} (hc : c.Rooted) (hf : files.isProper = true)
    (h : t ∈ templates files c) : IsSource c t :=
  ((isTemplate_iff (isReal_of_mem_templates hf hc.templates h).1).1
    ((mem_templates hf hc.templates).1 h).1).1

theorem isPartial_toString (hc : c.Rooted) {p : Path} (h : IsSource c p) :
    Naming.isPartial p.toString = Naming.isPartial p.name :=
  Naming.endsWith_toString (h.anchor hc) (by decide)

theorem isTemplate_toString (hc : c.Rooted) {p : Path} (h : IsSource c p) :
    Naming.isTemplate p.toString = Naming.isTemplate p.name :=
  Naming.isTemplate_toString (h.anchor hc)

/-! ## What the templates compile to -/

/-- Where the sources include sources only, no generated file matters to a template. -/
theorem steady_of_mem_templates (hc : c.Rooted) (hafter : after.isProper = true)
    (hdocs : Traceable after (IsSource c) (IsInclusion c changed)) (ht : t ∈ templates after c) :
    Steady c after t := by
  intro u hu
  have hreal := (isReal_of_mem_templates hafter hc.templates ht).1
  have hsource := isSource_of_mem_templates hc hafter ht
  have halike : Alike after u (IsSource c) :=
    fun p hp hr => hu p hp.not_isGenerated hr
  refine (compileFile_congr (hdocs.closed fun q hq => hq.1) halike ?_ ?_).symm
  · rw [hreal.real_eq]
    exact hsource
  · rw [hreal.real_eq]
    exact load_congr (halike t hsource hreal) (isFile_of_mem_templates hc hafter ht)

/-- A template that the edit did not change, and whose search meets no edited partial, compiles
to what it compiled to before. -/
theorem compileFile_of_untouched (hc : c.Rooted) (hafter : after.isProper = true)
    (hdocs : Traceable after (IsSource c) (IsInclusion c changed))
    (hedit : IsEdit c before after changed) (ht : t ∈ templates after c) (hn : t ∉ changed)
    {found : List Path} (hr : (reachable after t).result = .ok found)
    (hfound : ∀ q ∈ found, q ∉ changed) (hincluded : ∀ q ∈ found, IsInclusion c changed q) :
    compileFile after t = compileFile before t := by
  have hreal := (isReal_of_mem_templates hafter hc.templates ht).1
  have hfile := isFile_of_mem_templates hc hafter ht
  have hnames : ∀ p ∈ t :: found, ∀ n, (documentOf after p).result = .ok n → n.NamesFiles := by
    intro p hp n hdoc
    have hp' : IsSource c p ∧ p.IsReal := by
      rcases List.mem_cons.1 hp with rfl | hp
      · exact ⟨isSource_of_mem_templates hc hafter ht, hreal⟩
      · exact ⟨(hincluded p hp).1, (reachable_scanned hr).1.real p hp⟩
    obtain ⟨m, hm, hnames, -⟩ := hdocs p hp'.1 hp'.2 (isFile_of_documentOf hdoc)
    obtain rfl := Except.ok.inj (hm.symm.trans hdoc)
    exact hnames
  have halike : Alike after before fun q => q = t.real ∨ q ∈ found := by
    intro p hp hpr
    refine (hedit.same p hpr ?_).symm
    rcases hp with rfl | hp
    · rwa [hreal.real_eq]
    · exact hfound p hp
  exact compileFile_congr (closed_of_reachable hr hnames hfile) halike (Or.inl rfl)
    (load_congr (halike _ (Or.inl rfl) (Path.isReal_real t)) (isFile_real hfile))

/-- A template that was settled and is neither pending nor affected by the edit is fresh. -/
theorem isFresh_of_untouched (hc : c.Rooted) (hbefore : before.isProper = true)
    (hafter : after.isProper = true) (hdocs : Traceable after (IsSource c) (IsInclusion c changed))
    (hedit : IsEdit c before after changed) {refused : List Path} (hs : s.config = c)
    (hsettled : ∀ t ∈ templates before c, IsSettled s ⟨before, refused⟩ t)
    (ht : t ∈ templates after c) (herrors : t ∉ s.errors) (hn : t ∉ changed)
    {found : List Path} (hr : (reachable after t).result = .ok found)
    (hfound : ∀ q ∈ found, q ∉ changed) (hincluded : ∀ q ∈ found, IsInclusion c changed q) :
    IsFresh c after t := by
  have hreal := (isReal_of_mem_templates hafter hc.templates ht).1
  have hold : t ∈ templates before c := by
    apply mem_templates_of_isFile hc hbefore hreal ((mem_templates hafter hc.templates).1 ht).1
    rw [isFile_congr (hedit.same t hreal hn)]
    exact isFile_of_mem_templates hc hafter ht
  obtain ⟨out, hplaced⟩ := isPlaced_of_mem_templates hc hbefore hold
  have hfresh : IsFresh c before t := by
    rcases hsettled t hold with he | hrender
    · exact absurd he herrors
    · rw [hs] at hrender
      exact (isFresh_iff hc hplaced refused).2 hrender
  obtain ⟨out, hplaced, hcan, hsame⟩ := hfresh
  -- The generated file is no source, so the edit left it.
  have hat : after.at? out.parts = before.at? out.parts := by
    obtain ⟨text, b, old, -, hb, -⟩ := id hcan
    have ho := hplaced.isReal_output hc
    have hnot : out ∉ changed := fun hm =>
      (hedit.sources out hm).1.not_isGenerated
        (Config.isGenerated_of_outputFor hplaced.real hplaced.output)
    rw [hb, ← content?_eq_some_iff_at? ho, ← hedit.same out ho hnot,
      content?_eq_some_iff_at? ho, hb]
  rw [← compileFile_of_untouched hc hafter hdocs hedit ht hn hr hfound hincluded] at hcan hsame
  exact ⟨out, hplaced, hat ▸ hcan, hat ▸ hsame⟩

/-! ## The pass -/

theorem exists_map (hc : c.Rooted) (hafter : after.isProper = true)
    (hdocs : Traceable after (IsSource c) (IsInclusion c changed)) :
    ∃ m, (ofTemplates after (templates after c)).result = .ok m ∧
      ∀ t ∈ templates after c, ∃ found, (reachable after t).result = .ok found ∧
        (∀ q ∈ found, IsInclusion c changed q) ∧ ∀ q ∈ found, t ∈ m.get q := by
  have hreach : ∀ t ∈ templates after c, ∃ found, (reachable after t).result = .ok found ∧
      ∀ q ∈ found, IsInclusion c changed q := fun t ht =>
    hdocs.reachable (fun q hq => hq.1) (isSource_of_mem_templates hc hafter ht)
      (isReal_of_mem_templates hafter hc.templates ht).1 (isFile_of_mem_templates hc hafter ht)
  have hreal : ∀ t ∈ templates after c, t.real = t := fun t ht =>
    (isReal_of_mem_templates hafter hc.templates ht).1.real_eq
  obtain ⟨m, hm⟩ := exists_ofTemplates (templates after c) fun t ht => by
    obtain ⟨found, hfound, -⟩ := hreach t ht
    exact ⟨found, by rw [hreal t ht, hfound]⟩
  refine ⟨m, hm, fun t ht => ?_⟩
  obtain ⟨found, hfound, hincluded⟩ := hreach t ht
  exact ⟨found, hfound, hincluded, fun q hq =>
    (mem_ofTemplates hm q t).2 ⟨t, ht, hreal t ht, found, hfound, hq⟩⟩

/-- What is affected is found, where the changed templates are sources, and the pending ones are
known and exist. -/
theorem mem_templates_of_isAffected {files : FileTree} {changes : List Path} {m : Map}
    (hc : c.Rooted) (hf : files.isProper = true)
    (herrors : ∀ t ∈ s.errors, IsKnown c t ∧ files.isFile t = true)
    (hchanges : ∀ p ∈ changes, Naming.isTemplate p.toString = true → files.isFile p = true →
      IsSource c p ∧ p.IsReal)
    (hm : (∃ p ∈ changes, Naming.isPartial p.toString = true) →
      (ofTemplates files (templates files c)).result = .ok m)
    (ht : IsAffected s files m changes t) : t ∈ templates files c := by
  rcases ht with ⟨ht, hname, hfile⟩ | ⟨p, hp, hpartial, ht⟩ | ht
  · obtain ⟨hsource, hreal⟩ := hchanges t ht hname hfile
    rw [isTemplate_toString hc hsource] at hname
    exact mem_templates_of_isFile hc hf hreal ((isTemplate_iff hreal).2 ⟨hsource, hname⟩) hfile
  · obtain ⟨u, hu, rfl, -⟩ := (mem_ofTemplates (hm ⟨p, hp, hpartial⟩) _ _).1 ht
    rwa [(isReal_of_mem_templates hf hc.templates hu).1.real_eq]
  · obtain ⟨⟨htemplate, out, hplaced⟩, hfile⟩ := herrors t ht
    exact mem_templates_of_isFile hc hf hplaced.real htemplate hfile

/-- What is affected is among the templates that are found. -/
theorem mem_templates_of_affected {m : Map} (hc : c.Rooted)
    (hafter : after.isProper = true) (hs : Sound c s)
    (hfiles : ∀ t ∈ s.errors, after.isFile t = true)
    (hchanged : ∀ p ∈ changed, IsSource c p ∧ p.IsReal)
    (hm : (ofTemplates after (templates after c)).result = .ok m)
    (ht : IsAffected s after m changed t) : t ∈ templates after c :=
  mem_templates_of_isAffected hc hafter (fun t ht => ⟨hs.errors t ht, hfiles t ht⟩)
    (fun p hp _ _ => hchanged p hp) (fun _ => hm) ht

/-- A session to which sources are reported makes a pass over what is affected. -/
theorem exists_pump (refused : List Path) {m : Map} (hc : c.Rooted) (hs : s.config = c)
    (hreportable : ∀ p ∈ changed, IsReportable c p) (hne : changed ≠ [])
    (hchanges : s.changes = []) (hqueue : s.queue = [])
    (hm : (ofTemplates after (templates after c)).result = .ok m) :
    ∃ ts, ts.Nodup ∧
      (∀ t, t ∈ ts ↔
        IsAffected { s with errors := s.errors.filter after.isFile } after m changed t) ∧
      ∀ rs e deleted f, rs.map FileResult.template = ts →
        Yields (forEach (tryRenderFile c false) ts) ⟨after, refused⟩ rs e →
        Yields (Orphans.clean c) e deleted f →
          ∃ s', Yields ((changed.map Path.toString).foldl notify s).pump ⟨after, refused⟩
              (s', .ok (some ⟨rs, deleted⟩)) f ∧
            s'.config = c ∧ ∀ t, t ∈ s'.errors ↔ ∃ r ∈ rs, r.template = t ∧ r.isOk = false := by
  subst hs
  have hmem : ∀ p, p ∈ changed.foldl addPath [] ↔ p ∈ changed := by
    simp [mem_foldl_addPath]
  have hnul : ∀ p ∈ changed, p.hasNul = false := fun p hp =>
    (Path.isReal_of_isEntryName ((hreportable p hp).source.anchor hc) (hreportable p hp).names).2
  have hcollect : ∃ state, ((changed.map Path.toString).foldl notify s).collect =
      (changed.map Path.toString,
        { s with state := state, changes := changed.foldl addPath [], queue := [] }) := by
    obtain ⟨state, h⟩ := collect_of_isReportable (s := (changed.map Path.toString).foldl notify s)
      hc changed hreportable (by rw [foldl_notify]) (by rw [foldl_notify, hqueue, List.nil_append])
    exact ⟨state, by rw [h, foldl_notify, hchanges]⟩
  obtain ⟨state, hcollect⟩ := hcollect
  let pending : Session := { s with
    errors := s.errors.filter after.isFile, state := state, changes := [], queue := [] }
  obtain ⟨ts, hy, hnodup, hts⟩ := yields_affected (s := pending) (d := ⟨after, refused⟩) (m := m)
    (changed.foldl addPath []) ⟨fun _ => hm, fun p hp _ => hnul p ((hmem p).1 hp)⟩
  have haffected : ∀ t, t ∈ ts ↔
      IsAffected { s with errors := s.errors.filter after.isFile } after m changed t := by
    intro t
    rw [hts t, IsAffected, IsAffected]
    simp only [hmem]
    rfl
  refine ⟨ts, hnodup, haffected, fun rs e deleted f hmap hrs hclean => ?_⟩
  obtain ⟨s', hpass, hconfig, herrors⟩ := yields_pass (s := pending) hrs hclean
  refine ⟨s', ?_, hconfig, fun t => ?_⟩
  · have hbatch : ¬(changed.map Path.toString).isEmpty = true := by simpa using hne
    have hpending : ¬((changed.foldl addPath []).isEmpty &&
        (s.errors.filter after.isFile).isEmpty) = true := by
      obtain ⟨p, hp⟩ := List.exists_mem_of_ne_nil _ hne
      have hnil : changed.foldl addPath [] ≠ [] := List.ne_nil_of_mem ((hmem p).2 hp)
      simp [hnil]
    unfold pump
    rw [hcollect]
    simp only [if_neg hbatch]
    apply (yields_look _ _).bind
    simp only [if_neg hpending]
    apply hy.attempt.bind
    exact hpass
  · rw [herrors, mem_foldl_record (hmap ▸ hnodup), hmap]
    refine or_iff_right fun h => h.2 ?_
    exact (haffected t).2 (Or.inr (Or.inr h.1))

/-! ## The result -/

/-- A safe build, by what it does to a tree in which the templates are steady. -/
theorem exists_run (refused : List Path) (hc : c.Rooted) (hafter : after.isProper = true)
    (hsteady : ∀ t ∈ templates after c, Steady c after t) :
    ∃ u v deleted report, Yields (Orphans.clean c) ⟨after, refused⟩ deleted ⟨u, refused⟩ ∧
      Orphans.Cleaned c after u ∧ RefreshedAll c after (templates after c) u v ∧
      Yields (Build.run c false none) ⟨after, refused⟩ report ⟨v, refused⟩ := by
  obtain ⟨deleted, u, hclean, hu, hcleaned⟩ :=
    Orphans.clean_cleans (d := ⟨after, refused⟩) hc hafter
  obtain ⟨rs, v, hall, -, -, hv⟩ := forEach_refreshes (d := ⟨u, refused⟩) hc (templates after c)
    (nodup_templates hafter hc.templates) (fun t ht => isPlaced_of_mem_templates hc hafter ht)
    hsteady (alikeOutside_of_cleaned hcleaned)
  refine ⟨u, v, deleted, ⟨rs, deleted⟩, hclean, hcleaned, hv, yields_run hclean none ?_⟩
  rw [Orphans.templates_of_cleaned hc hafter hu hcleaned]
  exact hall

/-- What is neither affected nor edited was settled before, and is what it was. -/
theorem isFresh_of_not_affected (hc : c.Rooted) (hbefore : before.isProper = true)
    (hafter : after.isProper = true) (hdocs : Traceable after (IsSource c) (IsInclusion c changed))
    (hedit : IsEdit c before after changed) {refused : List Path} (hs : s.config = c)
    (hsettled : ∀ t ∈ templates before c, IsSettled s ⟨before, refused⟩ t) {m : Map}
    {found : List Path} (hr : (reachable after t).result = .ok found)
    (hincluded : ∀ q ∈ found, IsInclusion c changed q) (hget : ∀ q ∈ found, t ∈ m.get q)
    (ht : t ∈ templates after c)
    (hn : ¬IsAffected { s with errors := s.errors.filter after.isFile } after m changed t) :
    IsFresh c after t := by
  simp only [IsAffected, not_or, not_and, not_exists] at hn
  obtain ⟨hexisting, hdependent, herrors⟩ := hn
  have hfile := isFile_of_mem_templates hc hafter ht
  have hsource := isSource_of_mem_templates hc hafter ht
  have hname := isTemplate_name ((mem_templates hafter hc.templates).1 ht).1
  refine isFresh_of_untouched hc hbefore hafter hdocs hedit hs hsettled ht ?_ ?_ hr ?_ hincluded
  · exact fun he => herrors (List.mem_filter.2 ⟨he, hfile⟩)
  · exact fun hmem => hexisting hmem ((isTemplate_toString hc hsource).trans hname) hfile
  · intro q hq hmem
    have hpartial := (isPartial_toString hc (hincluded q hq).1).trans ((hincluded q hq).2 hmem)
    apply hdependent q hmem hpartial
    rw [(hedit.real q hmem).real_eq]
    exact hget q hq

/-- Where some templates were refreshed and orphans deleted, the refreshed templates are fresh,
and so are the others that were. -/
theorem isFresh_of_refreshedAll (hc : c.Rooted) (hafter : after.isProper = true)
    (hdocs : Traceable after (IsSource c) (IsInclusion c changed)) {ts : List Path}
    {u v : FileTree} (hsub : ts ⊆ templates after c) (hu : RefreshedAll c after ts after u)
    (hv : Orphans.Cleaned c u v) (ht : t ∈ templates after c)
    (hcan : t ∈ ts → ∀ out, c.outputFor t = .ok out →
      CanRefresh (compileFile after t).result (after.at? out.parts))
    (hfresh : t ∉ ts → IsFresh c after t) : IsFresh c v t := by
  obtain ⟨out, hp⟩ := isPlaced_of_mem_templates hc hafter ht
  have hsteady := steady_of_mem_templates hc hafter hdocs ht
  have hnot := (isSource_of_mem_templates hc hafter ht).not_isGenerated
  have hfile := isFile_of_mem_templates hc hafter ht
  by_cases hmem : t ∈ ts
  · exact isFresh_of_cleaned hc hp hsteady hu.alike hv hfile hnot (hcan hmem out hp.output)
      (hu.at?_output t hmem out hp.output)
  · obtain ⟨out', hp', hcan', hsame⟩ := hfresh hmem
    obtain rfl := Except.ok.inj (hp.output.symm.trans hp'.output)
    apply isFresh_of_cleaned hc hp hsteady hu.alike hv hfile hnot hcan'
    rw [hsame, hu.at?_other]
    rintro ⟨t', ht', ho'⟩
    rw [(hp.isReal_output hc).eta] at ho'
    obtain ⟨out', hp''⟩ := isPlaced_of_mem_templates hc hafter (hsub ht')
    exact hmem (Config.outputFor_inj hp''.real hp.real ho' hp.output ▸ ht')

instance (c : Config) (p : Path) : Decidable (IsSource c p) :=
  decidable_of_iff (((p.below? c.templates).any fun names => !names.isEmpty) = true ∧
      Naming.endsWith p.name Naming.templateSuffix = true ∧
      isExcluded c (Ignore.ofEntries c.ignored) p = false) <| by
    constructor
    · rintro ⟨hb, hs, hk⟩
      obtain ⟨names, hn, hne⟩ := (Option.any_eq_true _ _).1 hb
      obtain ⟨name, rest, rfl⟩ := List.exists_cons_of_ne_nil
        fun e : names = [] => by simp [e] at hne
      exact ⟨⟨name, rest, Path.below?_eq_some_iff.1 hn⟩, hs, hk⟩
    · rintro ⟨⟨name, rest, rfl⟩, hs, hk⟩
      exact ⟨(Option.any_eq_true _ _).2 ⟨_, Path.below?_eq_some_iff.2 rfl, rfl⟩, hs, hk⟩

instance (c : Config) (changed : List Path) (p : Path) : Decidable (IsInclusion c changed p) :=
  inferInstanceAs (Decidable (_ ∧ (_ → _)))

theorem content?_congr_of_files {t u : FileTree} (ht : t.isProper = true) (hu : u.isProper = true)
    {p : Path} (hp : p.IsReal) (h : ∀ f ∈ t.files, f.1 = p.parts → f ∈ u.files)
    (h' : ∀ f ∈ u.files, f.1 = p.parts → f ∈ t.files) : t.content? p = u.content? p := by
  apply Option.ext
  intro b
  rw [content?_eq_some_iff_at? hp, content?_eq_some_iff_at? hp, ← mem_files_iff ht,
    ← mem_files_iff hu]
  exact ⟨fun hm => h _ hm rfl, fun hm => h' _ hm rfl⟩

theorem traceable_of_files {files : FileTree} {S Q : Path → Prop} [DecidablePred Q]
    (h : ∀ f ∈ files.files, S ⟨.root, f.1⟩ →
      ((documentOf files ⟨.root, f.1⟩).result.toOption.any fun n =>
        decide n.NamesFiles && (n.walk.filterMap included?).all fun file =>
          (place (⟨.root, f.1⟩ : Path).parent file).toOption.any fun q => decide (Q q)) = true) :
    Traceable files S Q := by
  intro p hs hp hf
  revert hs
  refine of_isFile hp hf fun f hm hs => ?_
  obtain ⟨n, hn, hall⟩ := (Option.any_eq_true _ _).1 (h f hm hs)
  simp only [Bool.and_eq_true, decide_eq_true_iff, List.all_eq_true, Option.any_eq_true] at hall
  refine ⟨n, eq_ok_of_toOption hn, hall.1, fun file hfile => ?_⟩
  exact (hall.2 file hfile).imp fun q hq => ⟨eq_ok_of_toOption hq.1, hq.2⟩

def includingFiles (included text : String) : FileTree :=
  .directory [("out", .directory [("b.g.md", .file "one\n".toUTF8)]),
    ("templates", .directory [(included, .file text.toUTF8),
      ("b.mdoc", .file ("\x7b% partial file=\"" ++ included ++ "\" /%\x7d").toUTF8)])]

def includingConfig : Config := ⟨⟨.root, ["templates"]⟩, ⟨.root, ["out"]⟩, [], 100⟩

def includedPath (included : String) : Path := ⟨.root, ["templates", included]⟩

theorem isEdit_including {included : String} {x y : String}
    (hx : (includingFiles included x).isProper = true)
    (hy : (includingFiles included y).isProper = true)
    (hreal : (includedPath included).IsReal) (hs : IsSource includingConfig (includedPath included))
    (ho : (includedPath included).isWithin includingConfig.output = false)
    (hf : (includingFiles included x).isFile (includedPath included) = true) :
    IsEdit includingConfig (includingFiles included x) (includingFiles included y)
      [includedPath included] where
  nonempty := by simp
  real := by simpa using hreal
  sources := by simpa using ⟨hs, ho⟩
  files := by simpa using Or.inl hf
  same p hp hn := by
    have hne : p.parts ≠ ["templates", included] := fun he =>
      hn (List.mem_singleton.2 (hp.ext hreal he))
    apply content?_congr_of_files hx hy hp
    all_goals
      intro f hm hf
      simp only [includingFiles, FileTree.files, filesOf, List.map_cons, List.map_nil,
        List.append_nil, List.cons_append, List.nil_append, List.mem_cons, List.not_mem_nil,
        or_false] at hm ⊢
      rcases hm with rfl | rfl | rfl
      · exact Or.inl rfl
      · exact absurd hf.symm hne
      · exact Or.inr (Or.inr rfl)

theorem rooted_including : includingConfig.Rooted :=
  ⟨by decide, by decide, by decide, by decide⟩

theorem isSettled_including {files : FileTree} {b : ByteArray} (s : Session)
    (hs : s.config = includingConfig)
    (hc : (compileFile files (includedPath "b.mdoc")).result.toOption = some "one\n")
    (hb : files.at? ["out", "b.g.md"] = some (.file b)) (hr : readText? b = some "one\n") :
    IsSettled s ⟨files, []⟩ (includedPath "b.mdoc") := by
  have hplaced : IsPlaced includingConfig (includedPath "b.mdoc") ⟨.root, ["out", "b.g.md"]⟩ :=
    ⟨by decide, by decide, eq_ok_of_toOption (by decide +kernel)⟩
  rw [IsSettled, hs]
  exact Or.inr ((isFresh_iff rooted_including hplaced []).1
    (isFresh_of_text hplaced (eq_ok_of_toOption hc) hb hr))

theorem mem_templates_including {included text : String} {t : Path}
    (hf : (includingFiles included text).isProper = true)
    (h : t ∈ templates (includingFiles included text) includingConfig) :
    (t = includedPath included ∧ Naming.isTemplate included = true) ∨
      t = includedPath "b.mdoc" := by
  obtain ⟨htemplate, b, hb⟩ := (mem_templates hf rooted_including.templates).1 h
  have hname := isTemplate_name htemplate
  obtain ⟨anchor, parts⟩ := t
  obtain ⟨names, he, -⟩ := htemplate
  obtain rfl : anchor = .root := congrArg Path.anchor he
  have hm := (mem_files_iff hf).2 hb
  simp only [includingFiles, FileTree.files, filesOf, List.map_cons, List.map_nil,
    List.append_nil, List.cons_append, List.nil_append, List.mem_cons, List.not_mem_nil,
    or_false, Prod.mk.injEq] at hm
  rcases hm with ⟨rfl, -⟩ | ⟨rfl, -⟩ | ⟨rfl, -⟩
  · exact absurd hname (by decide)
  · exact Or.inl ⟨rfl, hname⟩
  · exact Or.inr rfl

def told (files : FileTree) (s : Session) : Outcome (Session × Except Failure (Option Report)) :=
  (([includedPath "a.mdoc"].map Path.toString).foldl notify s).pump ⟨files, []⟩

def firstPass : Outcome (Session × Except Failure (Option Report)) :=
  told (includingFiles "a.mdoc" "one") (Session.new includingConfig)

/-- After a first pass the included template is pending, for want of a generated file. A second
pass renders it alone, though the other template then has another text. -/
theorem exists_stale_session : ∃ s : Session, Arises includingConfig s ∧
    s.config = includingConfig ∧ s.changes = [] ∧ s.queue = [] ∧
    s.errors = [includedPath "a.mdoc"] ∧
    (∀ s' report, (told (includingFiles "a.mdoc" "two") s).result = .ok (s', report) →
      s'.config = includingConfig ∧ includedPath "b.mdoc" ∉ s'.errors) ∧
    ∀ e, (told (includingFiles "a.mdoc" "two") s).disk = e →
      (renderFile includingConfig false (includedPath "b.mdoc") e).disk.files.at?
        ["out", "b.g.md"] ≠ e.files.at? ["out", "b.g.md"] := by
  have hfirst : (firstPass.result.toOption.map fun r =>
      (r.1.config, r.1.changes, r.1.queue, r.1.errors)) =
        some (includingConfig, [], [], [includedPath "a.mdoc"]) := by
    decide +kernel
  have hsecond : (firstPass.result.toOption.all fun r =>
      (told (includingFiles "a.mdoc" "two") r.1).result.toOption.all fun r' =>
        decide (r'.1.config = includingConfig ∧ includedPath "b.mdoc" ∉ r'.1.errors)) = true := by
    decide +kernel
  have hstale : (firstPass.result.toOption.all fun r =>
      let e := (told (includingFiles "a.mdoc" "two") r.1).disk
      decide ((renderFile includingConfig false (includedPath "b.mdoc") e).disk.files.at?
        ["out", "b.g.md"] ≠ e.files.at? ["out", "b.g.md"])) = true := by
    decide +kernel
  obtain ⟨⟨s, report⟩, hs, hstate⟩ := Option.map_eq_some_iff.1 hfirst
  simp only [Prod.mk.injEq] at hstate
  obtain ⟨hconfig, hchanges, hqueue, herrors⟩ := hstate
  rw [hs, Option.all_some] at hsecond hstale
  refine ⟨s, ?_, hconfig, hchanges, hqueue, herrors, fun s' report' h => ?_, ?_⟩
  · exact .pump (.notify _ .new) (d := ⟨includingFiles "a.mdoc" "one", []⟩) (by decide +kernel)
      (eq_ok_of_toOption hs)
  · rw [h] at hsecond
    exact of_decide_eq_true hsecond
  · rintro e rfl
    exact of_decide_eq_true hstale

end DocPress.Watch.Session
