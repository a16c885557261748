import DocPress.Proofs.Build.Batch
import DocPress.Proofs.Watch.Passes

/-!
# Sessions that arise

A session arises from a new one by reports, passes and builds, each on whatever
files there are then. In every such session the pending templates have the names
of templates that are looked for, and the pending changes lie among the sources.
-/

set_option autoImplicit false

namespace DocPress

namespace Watch.Session

open Discovery Dependency DocPress.Task

inductive Arises (c : Config) : Session → Prop
  | new : Arises c (Session.new c)
  | notify {s : Session} (path : String) : Arises c s → Arises c (s.notify path)
  | process {s s' : Session} {d : Disk} {r : Except Failure (Option Report)} :
      Arises c s → d.files.isProper = true → (s.process d).result = .ok (s', r) → Arises c s'
  | pump {s s' : Session} {d : Disk} {r : Except Failure (Option Report)} :
      Arises c s → d.files.isProper = true → (s.pump d).result = .ok (s', r) → Arises c s'
  | initialBuild {s s' : Session} {d : Disk} {report : Report} :
      Arises c s → d.files.isProper = true → (s.initialBuild d).result = .ok (s', report) →
        Arises c s'
  | start {s s' : Session} {d : Disk} {report : Report} {fresh : List Path} :
      Arises c s → d.files.isProper = true → (s.start d).result = .ok (s', report, fresh) →
        Arises c s'
  | stop {s : Session} : Arises c s → Arises c s.stop

def IsKnown (c : Config) (t : Path) : Prop := IsTemplate c t ∧ ∃ out, Build.IsPlaced c t out

structure Sound (c : Config) (s : Session) : Prop where
  config : s.config = c
  errors : ∀ t ∈ s.errors, IsKnown c t
  changes : ∀ p ∈ s.changes, p.IsReal ∧ isExcluded c (Ignore.ofEntries c.ignored) p = false

variable {c : Config} {s s' : Session} {d e : Disk}

theorem isKnown_of_mem_templates {files : FileTree} {t : Path} (hc : c.Rooted)
    (hf : files.isProper = true) (h : t ∈ templates files c) : IsKnown c t :=
  ⟨((mem_templates hf hc.templates).1 h).1, Build.isPlaced_of_mem_templates hc hf h⟩

/-! ## Collecting -/

theorem isReal_of_mem_changesIn (hc : c.Rooted) (hs : s.config = c) {paths : List String}
    {p : Path} (hp : p ∈ s.changesIn paths) :
    p.IsReal ∧ isExcluded c (Ignore.ofEntries c.ignored) p = false := by
  obtain ⟨path, hpath, rfl⟩ := List.mem_map.1 hp
  obtain ⟨hpath, hend⟩ := List.mem_filter.1 hpath
  have hq := (List.mem_filter.1 hpath).2
  unfold qualifies at hq
  simp only [Naming.not_isOutput_of_endsWith hend, Bool.false_eq_true, if_false,
    Bool.and_eq_true, Bool.not_eq_true', hs, Session.ignore] at hq
  exact ⟨isReal_of_not_isExcluded hc hq.2, hq.2⟩

theorem Sound.collect (hc : c.Rooted) (h : Sound c s) : Sound c s.collect.2 := by
  rw [collect_eq]
  refine ⟨h.config, h.errors, fun p hp => ?_⟩
  rcases mem_foldl_addPath.1 hp with hp | hp
  · exact h.changes p hp
  · exact isReal_of_mem_changesIn hc h.config hp

/-! ## Rendering -/

theorem template_of_renderFile {force : Bool} {t : Path} {r : FileResult}
    (h : Yields (Build.renderFile c force t) d r e) :
    r.template = t ∧ ∃ out, c.outputFor t = .ok out := by
  unfold Build.renderFile at h
  obtain ⟨out, d₁, ho, h⟩ := h.of_bind
  refine ⟨?_, out, ho.result⟩
  obtain ⟨present, d₂, -, h⟩ := h.of_bind
  split at h
  · obtain ⟨u, d₃, -, h⟩ := h.of_bind
    rw [(h.unique (yields_pure _ _)).1]
  · obtain ⟨text, d₃, -, h⟩ := h.of_bind
    obtain ⟨put, d₄, -, h⟩ := h.of_bind
    obtain ⟨u, d₅, -, h⟩ := h.of_bind
    rw [(h.unique (yields_pure _ _)).1]

theorem template_of_tryRenderFile {force : Bool} {t : Path} {r : FileResult}
    (h : Yields (Build.tryRenderFile c force t) d r e) :
    r.template = t ∧ ∃ out, c.outputFor t = .ok out := by
  cases Build.records_of_yields h with
  | rendered hr => exact template_of_renderFile ⟨hr, rfl⟩
  | failed _ hout => exact ⟨rfl, _, hout⟩

theorem Sound.record (h : Sound c s) {r : FileResult} (hr : IsKnown c r.template) :
    Sound c (s.record r) := by
  refine ⟨h.config, fun t ht => ?_, h.changes⟩
  rcases mem_record.1 ht with ⟨ht, -⟩ | ⟨rfl, -⟩
  · exact h.errors t ht
  · exact hr

/-- A path that is known if only it has a place for a generated file. -/
def IsCandidate (c : Config) (t : Path) : Prop := (∃ out, c.outputFor t = .ok out) → IsKnown c t

theorem Sound.renderEach {ts : List Path} {r : Except Failure (List FileResult)}
    (hts : ∀ t ∈ ts, IsCandidate c t) (h : Sound c s)
    (hy : Yields (s.renderEach ts) d (s', r) e) : Sound c s' := by
  induction ts generalizing s s' d e r with
  | nil =>
    obtain ⟨he, -⟩ := hy.unique (yields_pure _ _)
    rw [(Prod.mk.inj he).1]
    exact h
  | cons t ts ih =>
    rw [List.forall_mem_cons] at hts
    unfold Session.renderEach at hy
    obtain ⟨attempted, d₁, ha, hy⟩ := hy.of_bind
    cases attempted with
    | error f =>
      obtain ⟨he, -⟩ := hy.unique (yields_pure _ _)
      rw [(Prod.mk.inj he).1]
      exact h
    | ok result =>
      obtain ⟨⟨s₁, rest⟩, d₂, hrest, hy⟩ := hy.of_bind
      obtain ⟨he, -⟩ := hy.unique (yields_pure _ _)
      rw [(Prod.mk.inj he).1]
      have hrender : Yields (Build.tryRenderFile s.config false t) d result d₁ :=
        ⟨Except.ok.inj ha.result, ha.disk⟩
      obtain ⟨htemplate, hout⟩ := template_of_tryRenderFile hrender
      rw [h.config] at hout
      exact ih hts.2 (h.record (htemplate ▸ hts.1 hout)) hrest

/-! ## Passes -/

theorem affected_ok {changes ts : List Path} (h : Yields (s.affected changes) d ts e) :
    ∃ m, ((∃ p ∈ changes, Naming.isPartial p.toString = true) →
        (ofTemplates d.files (templates d.files s.config)).result = .ok m) ∧ ts.Nodup ∧
      ∀ t, t ∈ ts ↔ IsAffected s d.files m changes t := by
  by_cases hm : ∃ m, Scans s.config d.files changes m
  · obtain ⟨m, hm⟩ := hm
    obtain ⟨ts', hy, hnodup, hts⟩ := yields_affected changes hm
    obtain ⟨rfl, -⟩ := h.unique hy
    exact ⟨m, hm.map, hnodup, hts⟩
  · obtain ⟨-, f, hf, -⟩ := fails_affected changes hm
    exact absurd hf h.not_fails

theorem isCandidate_of_affected {m : Map} {changes : List Path} {t : Path} (hc : c.Rooted)
    (h : Sound c s) (hd : d.files.isProper = true)
    (hchanges : ∀ p ∈ changes,
      p.IsReal ∧ isExcluded c (Ignore.ofEntries c.ignored) p = false)
    (hm : (∃ p ∈ changes, Naming.isPartial p.toString = true) →
      (ofTemplates d.files (templates d.files c)).result = .ok m)
    (ht : IsAffected s d.files m changes t) : IsCandidate c t := by
  rintro ⟨out, hout⟩
  rcases ht with ⟨ht, hname, hf⟩ | ⟨p, hp, hpartial, ht⟩ | ht
  · obtain ⟨hreal, hkept⟩ := hchanges t ht
    obtain ⟨b, hb⟩ := (FileTree.isFile_iff_at? hreal).1 hf
    have hn := (Path.isReal_of_isEntryName hreal.1
      (FileTree.isEntryName_of_at? hd (by rw [hb]; simp))).2
    have hname : Naming.isTemplate t.name = true := by rwa [← Naming.isTemplate_toString hreal.1]
    obtain ⟨names, stem, hbelow, -⟩ := (Config.outputFor_iff hreal).1 hout
    obtain ⟨name, rest, hcons⟩ := List.exists_cons_of_ne_nil
      (List.append_ne_nil_of_right_ne_nil names (List.cons_ne_nil _ []))
    have hsource : IsSource c t :=
      ⟨⟨name, rest, by rw [hbelow, hcons]⟩, Naming.endsWith_of_isTemplate hname, hkept⟩
    exact ⟨(isTemplate_iff hreal).2 ⟨hsource, hname⟩, out, hreal, hn, hout⟩
  · obtain ⟨u, hu, rfl, -⟩ := (mem_ofTemplates (hm ⟨p, hp, hpartial⟩) _ _).1 ht
    have hknown := isKnown_of_mem_templates hc hd hu
    rw [(isReal_of_mem_templates hd hc.templates hu).1.real_eq]
    exact hknown
  · exact h.errors t ht

theorem Sound.pass {ts : List Path} {r : Except Failure (Option Report)}
    (hts : ∀ t ∈ ts, IsCandidate c t) (h : Sound c s)
    (hy : Yields (s.pass ts) d (s', r) e) : Sound c s' := by
  unfold Session.pass at hy
  obtain ⟨⟨s₁, results⟩, d₁, heach, hy⟩ := hy.of_bind
  obtain ⟨hconfig, herrors, hchanges⟩ := h.renderEach hts heach
  cases results with
  | error f =>
    obtain ⟨he, -⟩ := hy.unique (yields_pure _ _)
    rw [(Prod.mk.inj he).1]
    exact ⟨hconfig, herrors, hchanges⟩
  | ok results =>
    obtain ⟨cleaned, d₂, -, hy⟩ := hy.of_bind
    cases cleaned with
    | error f =>
      obtain ⟨he, -⟩ := hy.unique (yields_pure _ _)
      rw [(Prod.mk.inj he).1]
      exact ⟨hconfig, herrors, hchanges⟩
    | ok deleted =>
      obtain ⟨u, d₃, -, hy⟩ := hy.of_bind
      obtain ⟨he, -⟩ := hy.unique (yields_pure _ _)
      rw [(Prod.mk.inj he).1]
      exact ⟨hconfig, herrors, hchanges⟩

theorem Sound.process (hc : c.Rooted) (hd : d.files.isProper = true)
    {r : Except Failure (Option Report)} (h : Sound c s) (hy : Yields s.process d (s', r) e) :
    Sound c s' := by
  unfold Session.process at hy
  obtain ⟨errors, d₁, hlook, hy⟩ := hy.of_bind
  obtain ⟨rfl, rfl⟩ := hlook.unique (yields_look _ _)
  have herrors : ∀ t ∈ s.errors.filter d₁.files.isFile, IsKnown c t :=
    fun t ht => h.errors t (List.mem_filter.1 ht).1
  dsimp only at hy
  split at hy
  · obtain ⟨he, -⟩ := hy.unique (yields_pure _ _)
    rw [(Prod.mk.inj he).1]
    exact ⟨h.config, herrors, h.changes⟩
  · obtain ⟨attempted, d₂, ha, hy⟩ := hy.of_bind
    have hsound : Sound c { s with errors := s.errors.filter d₁.files.isFile, changes := [] } :=
      ⟨h.config, herrors, by simp⟩
    cases attempted with
    | error f =>
      obtain ⟨he, -⟩ := hy.unique (yields_pure _ _)
      rw [(Prod.mk.inj he).1]
      exact ⟨h.config, herrors, by simp⟩
    | ok ts =>
      obtain ⟨m, hm, -, hts⟩ := affected_ok ⟨Except.ok.inj ha.result, ha.disk⟩
      rw [h.config] at hm
      refine hsound.pass (fun t ht => ?_) hy
      exact isCandidate_of_affected hc hsound hd h.changes hm ((hts t).1 ht)

theorem Sound.pump (hc : c.Rooted) (hd : d.files.isProper = true)
    {r : Except Failure (Option Report)} (h : Sound c s) (hy : Yields s.pump d (s', r) e) :
    Sound c s' := by
  unfold Session.pump at hy
  have hcollect := h.collect hc
  split at hy
  rename_i batch t heq
  rw [heq] at hcollect
  split at hy
  · obtain ⟨he, -⟩ := hy.unique (yields_pure _ _)
    rw [(Prod.mk.inj he).1]
    exact hcollect
  · exact hcollect.process hc hd hy

/-! ## Builds -/

/-- A build comes back, with one result for each template that is found after it has deleted
orphans. -/
theorem exists_build (force : Bool) (hc : c.Rooted) (hd : d.files.isProper = true) :
    ∃ report e files, Yields (Build.run c force none) d report e ∧ files.isProper = true ∧
      report.results.map FileResult.template = templates files c := by
  obtain ⟨deleted, u, hclean, hu, -⟩ := Orphans.clean_cleans (d := d) hc hd
  obtain ⟨rs, v, hall, hmap, -, -⟩ := Build.renderAll_spec (d := ⟨u, d.refused⟩) force hc
    (templates u c) (nodup_templates hu hc.templates)
    fun t ht => Build.isPlaced_of_mem_templates hc hu ht
  exact ⟨_, _, u, Build.yields_run hclean none hall, hu, hmap⟩

theorem templates_of_run (hc : c.Rooted) (hd : d.files.isProper = true) {force : Bool}
    {report : Report} (h : Yields (Build.run c force none) d report e) :
    ∃ files : FileTree, files.isProper = true ∧
      report.results.map FileResult.template = templates files c := by
  obtain ⟨report', e', files, hrun, hf, hmap⟩ := exists_build force hc hd
  obtain ⟨rfl, -⟩ := h.unique hrun
  exact ⟨files, hf, hmap⟩

theorem template_of_run (hc : c.Rooted) (hd : d.files.isProper = true) {force : Bool}
    {report : Report} (h : Yields (Build.run c force none) d report e) :
    ∀ r ∈ report.results, IsKnown c r.template := by
  obtain ⟨files, hf, hmap⟩ := templates_of_run hc hd h
  intro r hr
  exact isKnown_of_mem_templates hc hf (hmap ▸ List.mem_map.2 ⟨r, hr, rfl⟩)

theorem errors_of_initialBuild {report : Report} (hy : Yields s.initialBuild d (s', report) e) :
    Yields (Build.run s.config false none) d report e ∧
      s' = { s with
        errors := (report.failed.map FileResult.template).foldl addPath s.errors } := by
  unfold Session.initialBuild at hy
  obtain ⟨built, d₁, hrun, hrest⟩ := hy.of_bind
  obtain ⟨u, d₂, hnote, hend⟩ := hrest.of_bind
  obtain ⟨-, rfl⟩ := hnote.unique (yields_noteIf _ _ _)
  obtain ⟨he, rfl⟩ := hend.unique (yields_pure _ _)
  obtain ⟨rfl, rfl⟩ := Prod.mk.inj he
  exact ⟨hrun, rfl⟩

theorem Sound.initialBuild (hc : c.Rooted) (hd : d.files.isProper = true) {report : Report}
    (h : Sound c s) (hy : Yields s.initialBuild d (s', report) e) : Sound c s' := by
  obtain ⟨hrun, rfl⟩ := errors_of_initialBuild hy
  rw [h.config] at hrun
  refine ⟨h.config, fun t ht => ?_, h.changes⟩
  rcases mem_foldl_addPath.1 ht with ht | ht
  · exact h.errors t ht
  · obtain ⟨r, hr, rfl⟩ := List.mem_map.1 ht
    exact template_of_run hc hd hrun r (List.mem_filter.1 hr).1

/-- A start is an initial build; what it adds is told by the directories observed. -/
theorem initialBuild_of_start {report : Report} {fresh : List Path}
    (hy : Yields s.start d (s', report, fresh) e) :
    ∃ s₁ e₁, Yields s.initialBuild d (s₁, report) e₁ ∧
      s' = { s₁ with observed := some (s₁.roots ++ fresh) } := by
  unfold Session.start at hy
  obtain ⟨u, d₁, hnote, hrest⟩ := hy.of_bind
  obtain ⟨-, rfl⟩ := hnote.unique (yields_note _ _)
  obtain ⟨⟨s₁, built⟩, d₂, hbuild, hrest⟩ := hrest.of_bind
  obtain ⟨wanted, d₃, -, hrest⟩ := hrest.of_bind
  obtain ⟨u', d₄, -, hrest⟩ := hrest.of_bind
  obtain ⟨he, -⟩ := hrest.unique (yields_pure _ _)
  simp only [Prod.mk.injEq] at he
  obtain ⟨rfl, rfl, rfl⟩ := he
  exact ⟨s₁, d₂, hbuild, rfl⟩

theorem exists_wantedRoots (c : Config) (d : Disk) :
    ∃ roots, Yields (wantedRoots c) d roots d := by
  unfold wantedRoots
  by_cases hwithin : c.output.isWithin c.templates = true
  · rw [if_pos hwithin]
    exact ⟨_, yields_pure _ d⟩
  · rw [if_neg hwithin]
    have hlook := yields_look (·.isDirectory c.output) d
    cases hdir : d.files.isDirectory c.output with
    | true =>
      rw [hdir] at hlook
      exact ⟨_, hlook.bind (yields_pure _ d)⟩
    | false =>
      rw [hdir] at hlook
      exact ⟨_, hlook.bind ((yields_note _ d).bind (yields_pure [c.templates] d))⟩

theorem exists_initialBuild (hc : c.Rooted) (hd : d.files.isProper = true) (hs : s.config = c) :
    ∃ s' report e, Yields s.initialBuild d (s', report) e := by
  obtain ⟨report, e, -, hrun, -⟩ := exists_build false hc hd
  rw [← hs] at hrun
  exact ⟨_, report, e, hrun.bind ((yields_noteIf _ _ _).bind (yields_pure _ e))⟩

theorem exists_start (hc : c.Rooted) (hd : d.files.isProper = true) (hs : s.config = c) :
    ∃ s' report fresh e, Yields s.start d (s', report, fresh) e := by
  obtain ⟨s', report, e, hbuild⟩ := exists_initialBuild hc hd hs
  obtain ⟨roots, hroots⟩ := exists_wantedRoots s'.config e
  exact ⟨_, report, _, e, (yields_note _ d).bind
    (hbuild.bind (hroots.bind ((yields_note _ e).bind (yields_pure _ e))))⟩

theorem Sound.start (hc : c.Rooted) (hd : d.files.isProper = true) {report : Report}
    {fresh : List Path} (h : Sound c s) (hy : Yields s.start d (s', report, fresh) e) :
    Sound c s' := by
  obtain ⟨s₁, e₁, hbuild, rfl⟩ := initialBuild_of_start hy
  obtain ⟨hconfig, herrors, hchanges⟩ := h.initialBuild hc hd hbuild
  exact ⟨hconfig, herrors, hchanges⟩

theorem sound_of_arises (hc : c.Rooted) (h : Arises c s) : Sound c s := by
  induction h with
  | new => exact ⟨rfl, by simp [Session.new], by simp [Session.new]⟩
  | notify path _ ih => exact ⟨ih.config, ih.errors, ih.changes⟩
  | process _ hd hr ih => exact ih.process hc hd ⟨hr, rfl⟩
  | pump _ hd hr ih => exact ih.pump hc hd ⟨hr, rfl⟩
  | initialBuild _ hd hr ih => exact ih.initialBuild hc hd ⟨hr, rfl⟩
  | start _ hd hr ih => exact ih.start hc hd ⟨hr, rfl⟩
  | stop _ ih => exact ⟨ih.config, ih.errors, ih.changes⟩

end Watch.Session

end DocPress
