import DocPress.Proofs.Watch.Incremental

/-!
# What stops a pass

A pass takes the pending changes before it looks for the templates they concern. Rendering is
guarded, so a document that cannot be read costs its own template only; looking for dependents
is not. A pass fails if and only if a partial is among the changes and the search for what
depends on it fails; the changes are lost then. Otherwise every changed template has a result.
-/

set_option autoImplicit false

namespace DocPress.Watch.Session

open Discovery Dependency FileTree Build DocPress.Task

variable {c : Config} {s : Session} {d : Disk} {files : FileTree}

/-- A changed template that exists is a source, unless it is the templates directory itself. -/
theorem isSource_of_change (hdir : files.isFile c.templates = false) {p : Path}
    (hp : p.IsReal) (hkept : isExcluded c (Ignore.ofEntries c.ignored) p = false)
    (hname : Naming.isTemplate p.toString = true) (hf : files.isFile p = true) :
    IsSource c p := by
  have hsuffix : Naming.endsWith p.name Naming.templateSuffix = true := by
    rw [← Naming.endsWith_toString hp.1 (by decide)]
    exact Naming.endsWith_of_isTemplate hname
  obtain ⟨names, hnames⟩ := exists_of_not_isExcluded hp hkept
  cases names with
  | nil =>
    rw [hnames, Path.append_relative, List.append_nil, hdir] at hf
    cases hf
  | cons name rest => exact ⟨⟨name, rest, hnames⟩, hsuffix, hkept⟩

/-! ## How a pass ends -/

theorem exists_pass (hc : c.Rooted) (hs : s.config = c) (hf : d.files.isProper = true)
    {ts : List Path} (hts : ∀ t ∈ ts, t ∈ templates d.files c) :
    ∃ s' report e, Yields (s.pass ts) d (s', .ok (some report)) e ∧
      report.results.map FileResult.template = ts := by
  subst hs
  obtain ⟨rs, u, hrs, hmap, hu⟩ :=
    forEach_tryRenderFile (d := d) hc ts fun t ht => isPlaced_of_mem_templates hc hf (hts t ht)
  obtain ⟨deleted, v, hclean, -, -⟩ :=
    Orphans.clean_cleans (d := ⟨u, d.refused⟩) hc (hu hf)
  obtain ⟨s', hy, -, -⟩ := yields_pass hrs hclean
  exact ⟨s', ⟨rs, deleted⟩, _, hy, hmap⟩

def current (s : Session) (files : FileTree) : Session :=
  { s with errors := s.errors.filter files.isFile }

def taken (s : Session) (files : FileTree) : Session := { s.current files with changes := [] }

def HasWork (s : Session) (files : FileTree) : Prop :=
  s.changes ≠ [] ∨ (s.current files).errors ≠ []

theorem yields_process_of_rests (h : ¬s.HasWork d.files) :
    Yields s.process d ({ s.current d.files with state := .idle }, .ok none) d := by
  obtain ⟨hchanges, herrors⟩ := not_or.1 h
  rw [not_not, current] at herrors
  unfold process
  apply (yields_look _ d).bind
  simp only [Bool.and_eq_true, List.isEmpty_iff]
  rw [if_pos ⟨not_not.1 hchanges, herrors⟩]
  exact yields_pure _ d

theorem yields_process_of_hasWork {attempted : Except Failure (List Path)}
    {r : Session × Except Failure (Option Report)} {e : Disk} (hwork : s.HasWork d.files)
    (h : Yields ((s.taken d.files).affected s.changes).attempt d attempted d)
    (hrest : Yields (match attempted with
      | .error f => pure ({ s.taken d.files with state := .idle }, .error f)
      | .ok ts => (s.taken d.files).pass ts) d r e) : Yields s.process d r e := by
  unfold process
  apply (yields_look _ d).bind
  rw [HasWork, current] at hwork
  simp only [Bool.and_eq_true, List.isEmpty_iff]
  rw [if_neg fun hno => hwork.elim (absurd hno.1) (absurd hno.2)]
  exact h.bind hrest

inductive Ends (c : Config) (s : Session) (d : Disk) :
    Session → Except Failure (Option Report) → Disk → Prop
  | rests {s' : Session} (hwork : ¬s.HasWork d.files) (hkept : s'.changes = s.changes) :
      Ends c s d s' (.ok none) d
  | reports {s' : Session} {e : Disk} {m : Map} {report : Report} (hwork : s.HasWork d.files)
      (hm : Scans c d.files s.changes m)
      (hresults : ∀ t, t ∈ report.results.map FileResult.template ↔
        IsAffected (s.current d.files) d.files m s.changes t) :
      Ends c s d s' (.ok (some report)) e
  | fails {s' : Session} {f : Failure} (hwork : s.HasWork d.files)
      (hm : ¬∃ m, Scans c d.files s.changes m) (hlost : s'.changes = []) :
      Ends c s d s' (.error f) d

theorem Sound.current (hs : Sound c s) (t : Path) (ht : t ∈ (s.current files).errors) :
    IsKnown c t ∧ files.isFile t = true :=
  ⟨hs.errors t (List.mem_filter.1 ht).1, (List.mem_filter.1 ht).2⟩

/-- A pass over what is pending ends in one of these ways. -/
theorem exists_process (hc : c.Rooted) (hs : Sound c s) (hf : d.files.isProper = true)
    (hdir : d.files.isFile c.templates = false) :
    ∃ s' r e, Yields s.process d (s', r) e ∧ Ends c s d s' r e := by
  by_cases hwork : s.HasWork d.files
  · by_cases hm : ∃ m, Scans c d.files s.changes m
    · obtain ⟨m, hm⟩ := hm
      obtain ⟨ts, hy, -, hts⟩ := yields_affected (s := s.taken d.files) (d := d) (m := m)
        s.changes (by rw [← hs.config] at hm; exact hm)
      have hfound : ∀ t ∈ ts, t ∈ templates d.files c := by
        intro t ht
        refine mem_templates_of_isAffected (s := s.taken d.files) hc hf hs.current ?_ hm.map
          ((hts t).1 ht)
        intro p hp hname hfile
        obtain ⟨hreal, hkept⟩ := hs.changes p hp
        exact ⟨isSource_of_change hdir hreal hkept hname hfile, hreal⟩
      obtain ⟨s', report, e, hpass, hmap⟩ := exists_pass (s := s.taken d.files) hc hs.config hf
        hfound
      exact ⟨s', _, e, yields_process_of_hasWork hwork hy.attempt hpass,
        .reports hwork hm fun t => by rw [hmap]; exact hts t⟩
    · obtain ⟨-, f, hfails, -⟩ := fails_affected (s := s.taken d.files) (d := d) s.changes
        (by rw [← hs.config] at hm; exact hm)
      exact ⟨_, _, d, yields_process_of_hasWork hwork hfails.attempt (yields_pure _ d),
        .fails hwork hm rfl⟩
  · exact ⟨_, _, d, yields_process_of_rests hwork, .rests hwork rfl⟩

theorem pump_eq (s : Session) : s.pump =
    if s.collect.1.isEmpty then pure (s.collect.2, .ok none) else s.collect.2.process := rfl

theorem yields_pump_of_rejected (h : s.collect.1 = []) (d : Disk) :
    Yields s.pump d (s.collect.2, .ok none) d := by
  rw [pump_eq, h]
  exact yields_pure _ d

/-- A pump that accepts a path makes a pass, and ends as that does. -/
theorem exists_pump_of_accepted (hc : c.Rooted) (hs : Arises c s) (hf : d.files.isProper = true)
    (hdir : d.files.isFile c.templates = false) (h : s.collect.1 ≠ []) :
    ∃ s' r e, Yields s.pump d (s', r) e ∧ Ends c s.collect.2 d s' r e := by
  rw [pump_eq, if_neg (by simpa using h)]
  exact exists_process hc ((sound_of_arises hc hs).collect hc) hf hdir

/-- A pump always comes back to its caller or fails in one way: something is to be rendered, a
partial is among the changes it has taken, and the search for what depends on it fails. Then the
changes are lost; else those that exist and are templates have a result, or none was taken. -/
theorem pump_survives (c : Config) (s : Session) (files : FileTree) (refused : List Path)
    (hc : c.Rooted) (hs : Arises c s) (hf : files.isProper = true)
    (hdir : files.isFile c.templates = false) :
    ∃ s' r e, Yields s.pump ⟨files, refused⟩ (s', r) e ∧
      (r = .ok none ↔ s.collect.1 = [] ∨ ¬s.collect.2.HasWork files) ∧
      ((∃ f, r = .error f) ↔ s.collect.1 ≠ [] ∧ s.collect.2.HasWork files ∧
        ¬∃ m, Scans c files s.collect.2.changes m) ∧
      (r = .ok none → s'.changes = s.collect.2.changes) ∧
      (∀ report, r = .ok (some report) → ∀ p ∈ s.collect.2.changes,
        Naming.isTemplate p.toString = true → files.isFile p = true →
          ∃ result ∈ report.results, result.template = p) ∧
      (∀ f, r = .error f → s'.changes = [] ∧ e = ⟨files, refused⟩) := by
  by_cases hbatch : s.collect.1 = []
  · exact ⟨_, _, _, yields_pump_of_rejected hbatch ⟨files, refused⟩,
      iff_of_true rfl (.inl hbatch), iff_of_false nofun fun h => h.1 hbatch, fun _ => rfl, nofun,
      nofun⟩
  · obtain ⟨s', r, e, hy, hends⟩ :=
      exists_pump_of_accepted (d := ⟨files, refused⟩) hc hs hf hdir hbatch
    refine ⟨s', r, e, hy, ?_⟩
    cases hends with
    | rests hwork hkept =>
      exact ⟨iff_of_true rfl (.inr hwork), iff_of_false nofun fun h => hwork h.2.1,
        fun _ => hkept, nofun, nofun⟩
    | reports hwork hm hresults =>
      refine ⟨iff_of_false nofun (not_or.2 ⟨hbatch, not_not.2 hwork⟩),
        iff_of_false nofun fun h => h.2.2 ⟨_, hm⟩, nofun, ?_, nofun⟩
      intro report hr p hp hname hfile
      obtain rfl := Option.some.inj (Except.ok.inj hr)
      exact List.mem_map.1 ((hresults p).2 (.inl ⟨hp, hname, hfile⟩))
    | fails hwork hm hlost =>
      exact ⟨iff_of_false nofun (not_or.2 ⟨hbatch, not_not.2 hwork⟩),
        iff_of_true ⟨_, rfl⟩ ⟨hbatch, hwork, hm⟩, nofun, nofun, fun _ _ => ⟨hlost, rfl⟩⟩

/-! ## A partial that is no text -/

def brokenFiles : FileTree :=
  .directory [("out", .directory [("a.g.md", .file "one\n".toUTF8)]),
    ("templates", .directory [
      ("a.mdoc", .file "\x7b% partial file=\"p.p.mdoc\" /%\x7d".toUTF8),
      ("p.p.mdoc", .file ⟨#[255]⟩)])]

def toldBoth : Session :=
  ((Session.new includingConfig).notify (includedPath "a.mdoc").toString).notify
    (includedPath "p.p.mdoc").toString

theorem changes_toldBoth :
    toldBoth.collect.2.changes = [includedPath "a.mdoc", includedPath "p.p.mdoc"] := by
  decide +kernel

theorem hasWork_toldBoth (files : FileTree) : toldBoth.collect.2.HasWork files :=
  .inl (by simp [changes_toldBoth])

theorem arises_toldBoth : Arises includingConfig toldBoth := .notify _ (.notify _ .new)

theorem not_scans_brokenFiles (m : Map) :
    ¬Scans includingConfig brokenFiles toldBoth.collect.2.changes m := by
  intro hm
  have hnone : (ofTemplates brokenFiles (templates brokenFiles includingConfig)).result.toOption =
      none := by decide +kernel
  rw [changes_toldBoth] at hm
  rw [hm.map ⟨includedPath "p.p.mdoc", by simp, by decide⟩] at hnone
  cases hnone

theorem pump_survives_of_broken_partial :
    ∃ s' f, Yields toldBoth.pump ⟨brokenFiles, []⟩ (s', .error f) ⟨brokenFiles, []⟩ ∧
      s'.changes = [] := by
  obtain ⟨s', r, e, hy, -, herror, -, -, hlost⟩ := pump_survives includingConfig toldBoth
    brokenFiles [] rooted_including arises_toldBoth (by decide +kernel) (by decide +kernel)
  obtain ⟨f, rfl⟩ := herror.2 ⟨by decide +kernel, hasWork_toldBoth _,
    fun ⟨m, hm⟩ => not_scans_brokenFiles m hm⟩
  obtain ⟨hchanges, rfl⟩ := hlost f rfl
  exact ⟨s', f, hy, hchanges⟩

/-- It is not so that every pump comes back with a result for each changed template. -/
theorem pump_loses_changes :
    ¬ ∀ (c : Config) (s : Session) (files : FileTree) (refused : List Path), c.Rooted →
      Arises c s → files.isProper = true → files.isFile c.templates = false →
      ∃ s' r e, Yields s.pump ⟨files, refused⟩ (s', .ok r) e ∧
        ∀ report, r = some report → ∀ p ∈ s.collect.2.changes,
          Naming.isTemplate p.toString = true → files.isFile p = true →
            ∃ result ∈ report.results, result.template = p := by
  intro h
  obtain ⟨s', r, e, hy, -⟩ := h includingConfig toldBoth brokenFiles [] rooted_including
    arises_toldBoth (by decide +kernel) (by decide +kernel)
  obtain ⟨s'', r', e', hy', hends⟩ := exists_pump_of_accepted (d := ⟨brokenFiles, []⟩)
    rooted_including arises_toldBoth (by decide +kernel) (by decide +kernel) (by decide +kernel)
  obtain ⟨he, -⟩ := hy.unique hy'
  obtain rfl := (Prod.mk.inj he).2
  cases hends with
  | rests hwork => exact hwork (hasWork_toldBoth _)
  | reports _ hm => exact not_scans_brokenFiles _ hm

end DocPress.Watch.Session
