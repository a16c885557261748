import DocPress.Proofs.Build.Frame
import DocPress.Proofs.Orphans.Repetition
import DocPress.Proofs.Watch.Burst

/-!
# A session does not feed itself

A report about a generated file makes a session that has pending templates try them again. After
a call that reports, none of them can be rendered in the tree that the call leaves: neither its
own writes nor the deletion of orphans matter to them. So trying again writes nothing, and
deletes only what the system refused to delete before.
-/

set_option autoImplicit false

namespace DocPress.Watch.Session

open Discovery Dependency FileTree Build DocPress.Task

variable {c : Config} {s s' : Session} {d e u : Disk} {t : Path} {ts deleted : List Path}
  {rs : List FileResult}

/-! ## What a call renders -/

theorem isFile_of_isAffected {files : FileTree} {m : Map} {changes : List Path} (hc : c.Rooted)
    (hf : files.isProper = true) (herrors : ∀ t ∈ s.errors, files.isFile t = true)
    (hm : (∃ p ∈ changes, Naming.isPartial p.toString = true) →
      (ofTemplates files (templates files c)).result = .ok m)
    (ht : IsAffected s files m changes t) : files.isFile t = true := by
  rcases ht with ⟨-, -, hfile⟩ | ⟨p, hp, hpartial, ht⟩ | ht
  · exact hfile
  · obtain ⟨v, hv, rfl, -⟩ := (mem_ofTemplates (hm ⟨p, hp, hpartial⟩) _ _).1 ht
    rw [(isReal_of_mem_templates hf hc.templates hv).1.real_eq]
    exact isFile_of_mem_templates hc hf hv
  · exact herrors t ht

/-- What a call that reports has rendered was found, each template once, the pending ones among
them. -/
theorem templates_of_rendered (hc : c.Rooted) (hs : Sound c s) (hd : d.files.isProper = true)
    (haffected : Yields ((s.taken d.files).affected s.changes) d ts d)
    (hrendered : Yields (forEach (tryRenderFile c false) ts) d rs u) :
    ts.Nodup ∧ (∀ t ∈ ts, t ∈ templates d.files c) ∧ ∀ t ∈ (s.taken d.files).errors, t ∈ ts := by
  obtain ⟨m, hm, hnodup, hts⟩ := affected_ok haffected
  rw [show (s.taken d.files).config = c from hs.config] at hm
  refine ⟨hnodup, fun t ht => ?_, fun t ht => (hts t).2 (.inr (.inr ht))⟩
  have haffected := (hts t).1 ht
  have hout := (templates_of_forEach hrendered).2 t ht
  have htaken : Sound c (s.taken d.files) :=
    ⟨hs.config, fun t ht => hs.errors t (List.mem_filter.1 ht).1, by simp [taken]⟩
  obtain ⟨htemplate, out, hplaced⟩ :=
    isCandidate_of_affected hc htaken hd hs.changes hm haffected hout
  exact mem_templates_of_isFile hc hd hplaced.real htemplate
    (isFile_of_isAffected hc hd (fun t ht => (List.mem_filter.1 ht).2) hm haffected)

/-! ## Pending templates that cannot be rendered -/

/-- Whether a template exists that cannot be rendered. -/
def IsStuck (c : Config) (files : FileTree) (t : Path) : Prop :=
  files.isFile t = true ∧ ∃ out, IsPlaced c t out ∧
    ¬CanRefresh (compileFile files t).result (files.at? out.parts)

/-- What cannot be rendered cannot be after other templates were and orphans deleted. -/
theorem IsStuck.of_refreshed {base u v : FileTree} (hsteady : Steady c base t)
    (hnot : ¬IsGenerated c t) (hmem : t ∈ ts) (hu : RefreshedAll c base ts base u)
    (hv : Orphans.Cleaned c u v) (h : IsStuck c base t) : IsStuck c v t := by
  obtain ⟨hfile, out, hout, hcannot⟩ := h
  have halike : AlikeOutside c base v := hu.alike.trans (alikeOutside_of_cleaned hv)
  refine ⟨by rwa [← isFile_congr (halike t hnot hout.real)], out, hout, ?_⟩
  rw [hsteady v halike]
  rcases hv out.parts with he | ⟨hn, -⟩
  · rwa [he, hu.at?_output t hmem out hout.output, map_refresh_of_not hcannot]
  · rintro ⟨_, _, _, _, hb, -⟩
    rw [hn] at hb
    cases hb

/-- After a call that reports, no pending template can be rendered in the tree that it leaves. -/
theorem isStuck_of_reports (hc : c.Rooted) (hs : Sound c s) (hd : d.files.isProper = true)
    (hclosed : Compilation.Closed d.files fun p => ¬IsGenerated c p)
    (haffected : Yields ((s.taken d.files).affected s.changes) d ts d)
    (hrendered : Yields (forEach (tryRenderFile c false) ts) d rs u)
    (hclean : Yields (Orphans.clean c) u deleted e) :
    u.files.isProper = true ∧ u.refused = d.refused ∧
      ∀ t ∈ (rs.foldl record (s.taken d.files)).errors, IsStuck c e.files t := by
  obtain ⟨hnodup, hfound, hpending⟩ := templates_of_rendered hc hs hd haffected hrendered
  have hplaced : ∀ t ∈ ts, ∃ out, IsPlaced c t out :=
    fun t ht => isPlaced_of_mem_templates hc hd (hfound t ht)
  have hsteady : ∀ t ∈ ts, Steady c d.files t :=
    fun t ht => steady_of_closed hc hd hclosed (hfound t ht)
  obtain ⟨rs', u', hy, hmap, htells, hu⟩ :=
    forEach_refreshes (d := d) hc ts hnodup hplaced hsteady fun _ _ _ => rfl
  obtain ⟨rfl, rfl⟩ := hrendered.unique hy
  obtain ⟨_, v, hy', -, hcleaned⟩ :=
    Orphans.clean_cleans (d := ⟨u', d.refused⟩) hc (hu.proper hd)
  obtain ⟨-, rfl⟩ := hclean.unique hy'
  refine ⟨hu.proper hd, rfl, fun t ht => ?_⟩
  rcases (mem_foldl_record (hmap ▸ hnodup)).1 ht with ⟨ht, hno⟩ | ⟨r, hr, rfl, hfailed⟩
  · exact absurd (hpending t ht) (hmap ▸ hno)
  · have hmem : r.template ∈ ts := hmap ▸ List.mem_map_of_mem hr
    obtain ⟨out, hout⟩ := hplaced _ hmem
    have hcannot : ¬CanRefresh (compileFile d.files r.template).result
        (d.files.at? out.parts) := by
      rw [← htells r hr out hout.output]
      exact Option.ne_none_iff_isSome.2 (Option.isNone_eq_false_iff.1 hfailed)
    exact IsStuck.of_refreshed (hsteady _ hmem)
      (not_isGenerated_of_isTemplate ((mem_templates hd hc.templates).1 (hfound _ hmem)).1) hmem
      hu hcleaned ⟨isFile_of_mem_templates hc hd (hfound _ hmem), out, hout, hcannot⟩

/-! ## Trying again -/

theorem foldl_record_of_failed (h : ∀ r ∈ rs, r.isOk = false ∧ r.template ∈ s.errors) :
    rs.foldl record s = s := by
  induction rs with
  | nil => rfl
  | cons r rs ih =>
    rw [List.forall_mem_cons] at h
    have hrecord : s.record r = s := by
      rw [record, h.1.1, if_neg (by simp), addPath, if_pos (by simpa using h.1.2)]
    rw [List.foldl_cons, hrecord, ih h.2]

/-- A call that only tries stuck templates again: it yields nothing, or reports that all of them
failed and what it deleted. -/
inductive Retries (c : Config) (s : Session) (d : Disk) :
    Session → Except Failure (Option Report) → Disk → Prop
  | rests {s' : Session} (herrors : s'.errors = s.errors) : Retries c s d s' (.ok none) d
  | reports {s' : Session} {report : Report} {e : Disk} (herrors : s'.errors = s.errors)
      (hfailed : ∀ r ∈ report.results, r.isOk = false)
      (hclean : Yields (Orphans.clean c) d report.deleted e) :
      Retries c s d s' (.ok (some report)) e

theorem exists_process_of_stuck (hc : c.Rooted) (hs : s.config = c) (hchanges : s.changes = [])
    (hd : d.files.isProper = true) (hstuck : ∀ t ∈ s.errors, IsStuck c d.files t) :
    ∃ s' r e, Yields s.process d (s', r) e ∧ Retries c s d s' r e := by
  subst hs
  have hcurrent : s.errors.filter d.files.isFile = s.errors :=
    List.filter_eq_self.2 fun t ht => (hstuck t ht).1
  by_cases hwork : s.HasWork d.files
  · obtain ⟨ts, haffected, -, hts⟩ := yields_affected (s := s.taken d.files) (d := d) (m := [])
      s.changes ⟨by simp [hchanges], by simp [hchanges]⟩
    have hpending : ∀ t ∈ ts, t ∈ s.errors := by
      intro t ht
      rcases (hts t).1 ht with ⟨hno, -⟩ | ⟨p, hno, -⟩ | ht
      · rw [hchanges] at hno
        cases hno
      · rw [hchanges] at hno
        cases hno
      · exact (List.mem_filter.1 ht).1
    obtain ⟨rs, hrendered, hmap, hfailed⟩ :=
      forEach_of_not (d := d) hc ts fun t ht => (hstuck t (hpending t ht)).2
    obtain ⟨deleted, v, hclean, -, -⟩ := Orphans.clean_cleans (d := d) hc hd
    obtain ⟨s', hpass, -, herrors⟩ := yields_pass (s := s.taken d.files) hrendered hclean
    refine ⟨s', _, _, yields_process_of_hasWork hwork haffected.attempt hpass,
      .reports ?_ hfailed hclean⟩
    rw [herrors, foldl_record_of_failed]
    · exact hcurrent
    · intro r hr
      refine ⟨hfailed r hr, ?_⟩
      rw [show (s.taken d.files).errors = s.errors from hcurrent]
      exact hpending _ (hmap ▸ List.mem_map_of_mem hr)
  · exact ⟨_, _, d, yields_process_of_rests hwork, .rests hcurrent⟩

theorem Retries.of_errors {s₁ : Session} {r : Except Failure (Option Report)}
    (h : Retries c s₁ d s' r e) (herrors : s₁.errors = s.errors) : Retries c s d s' r e := by
  cases h with
  | rests h => exact .rests (h.trans herrors)
  | reports h hfailed hclean => exact .reports (h.trans herrors) hfailed hclean

/-- A pump that takes no path of a template or a partial makes no other call. -/
theorem exists_pump_of_stuck (hc : c.Rooted) (hs : s.config = c) (hchanges : s.changes = [])
    (hd : d.files.isProper = true) (hstuck : ∀ t ∈ s.errors, IsStuck c d.files t)
    (hqueue : ∀ p ∈ s.queue, s.qualifies p = true →
      Naming.endsWith p Naming.templateSuffix = false) :
    ∃ s' r e, Yields s.pump d (s', r) e ∧ Retries c s d s' r e := by
  by_cases hbatch : s.collect.1 = []
  · exact ⟨_, _, d, yields_pump_of_rejected hbatch d, .rests (collect_errors s)⟩
  · have hnone : s.changesIn s.queue = [] := by
      simp only [changesIn, List.map_eq_nil_iff, List.filter_eq_nil_iff, List.mem_filter]
      rintro p ⟨hp, hq⟩
      simp [hqueue p hp hq]
    have hconfig : s.collect.2.config = c := by
      rw [collect_eq]
      exact hs
    have hunchanged : s.collect.2.changes = [] := by
      rw [collect_eq]
      show (s.changesIn s.queue).foldl addPath s.changes = []
      rw [hnone, hchanges]
      rfl
    obtain ⟨s', r, e, hy, hretries⟩ := exists_process_of_stuck hc hconfig hunchanged hd
      (by rwa [collect_errors])
    refine ⟨s', r, e, ?_, hretries.of_errors (collect_errors s)⟩
    rwa [pump_eq, if_neg (by simpa using hbatch)]

/-! ## Generated files as reports -/

def deletedBy : Except Failure (Option Report) → List Path
  | .ok (some report) => report.deleted
  | _ => []

/-- What a call can leave as it is: it comes back, the same templates are pending, none was
rendered, and every place holds what it held, but for files of one kind that were deleted, with
directories that held them. -/
structure LeavesAllBut (c : Config) (kind : Path → Prop) (s : Session) (d : Disk) (s' : Session)
    (r : Except Failure (Option Report)) (e : Disk) : Prop where
  returns : ∃ report, r = .ok report
  errors : s'.errors = s.errors
  failed : ∀ report, r = .ok (some report) → ∀ x ∈ report.results, x.isOk = false
  emptied : Orphans.Emptied c.output (deletedBy r) d.files e.files
  deleted : ∀ p ∈ deletedBy r, kind p

theorem LeavesAllBut.same {kind : Path → Prop} {r : Except Failure (Option Report)}
    (h : LeavesAllBut c kind s d s' r e) (hno : ∀ p, ¬kind p) (q : List String) :
    e.files.at? q = d.files.at? q := by
  have hnone : deletedBy r = [] :=
    List.eq_nil_iff_forall_not_mem.2 fun p hp => hno p (h.deleted p hp)
  have hemptied := h.emptied q
  rw [hnone] at hemptied
  rcases hemptied with he | ⟨-, ⟨p, hp, -⟩ | ⟨-, -, -, p, hp, -⟩⟩
  · exact he
  · cases hp
  · cases hp

theorem Retries.leavesAllBut {r : Except Failure (Option Report)} {refused : List Path}
    (hc : c.Rooted) (hu : u.files.isProper = true) (hclean : Yields (Orphans.clean c) u deleted e)
    {e' : Disk} (h : Retries c s ⟨e.files, refused⟩ s' r e') :
    LeavesAllBut c (fun p => p ∈ u.refused ∧ p ∉ refused) s ⟨e.files, refused⟩ s' r e' := by
  cases h with
  | rests herrors =>
    exact ⟨⟨none, rfl⟩, herrors, nofun, .refl c.output [] _, nofun⟩
  | reports herrors hfailed hagain =>
    obtain ⟨_, v, hy, hv, -⟩ := Orphans.clean_cleans (d := u) hc hu
    obtain ⟨-, rfl⟩ := hclean.unique hy
    refine ⟨⟨_, rfl⟩, herrors, fun report' he => ?_,
      (Orphans.clean_emptied hc hv hagain).1, Orphans.clean_again hc hu hclean hagain⟩
    obtain rfl := Option.some.inj (Except.ok.inj he)
    exact hfailed

/-- Whether a path is that of a file which a report tells of as generated or deleted. -/
def IsTouched (report : Report) (path : String) : Prop :=
  ∃ p, (p ∈ report.deleted ∨ ∃ r ∈ report.results, r.output = p) ∧ p.toString = path

theorem isOutput_of_isGenerated {p : Path} (hc : c.Rooted) (h : IsGenerated c p) :
    Naming.isOutput p.toString = true := by
  have hanchor : p.anchor = .root := by
    obtain ⟨names, rfl, -⟩ := id h
    exact hc.output.1
  rw [← isOutput_name h]
  exact Naming.endsWith_toString hanchor (by decide)

theorem isGenerated_of_touched (hc : c.Rooted) (hs : Sound c s) (hd : d.files.isProper = true)
    (haffected : Yields ((s.taken d.files).affected s.changes) d ts d)
    (hrendered : Yields (forEach (tryRenderFile c false) ts) d rs u)
    (hu : u.files.isProper = true) (hclean : Yields (Orphans.clean c) u deleted e) :
    ∀ p, (p ∈ deleted ∨ ∃ r ∈ rs, r.output = p) → IsGenerated c p := by
  rintro p (hp | ⟨r, hr, rfl⟩)
  · exact ((Orphans.clean_emptied hc hu hclean).2 p hp).1.1
  · obtain ⟨-, hfound, -⟩ := templates_of_rendered hc hs hd haffected hrendered
    obtain ⟨hmap, houts⟩ := templates_of_forEach hrendered
    obtain ⟨rs', u', hy, -, houtputs, -⟩ := forEach_grows (d := d) false hc ts houts
    obtain ⟨rfl, -⟩ := hrendered.unique hy
    have hmem : r.template ∈ ts := hmap ▸ List.mem_map_of_mem hr
    exact Config.isGenerated_of_outputFor
      (isReal_of_mem_templates hd hc.templates (hfound _ hmem)).1 (houtputs r hr)

/-- What a call that reports leaves: no pending change, pending templates that cannot be rendered,
and a tree without orphans but for those that the system refused to delete. -/
theorem exists_of_report {report : Report} (hc : c.Rooted) (hs : Sound c s)
    (hd : d.files.isProper = true)
    (hclosed : Compilation.Closed d.files fun p => ¬IsGenerated c p)
    (hy : Yields s.process d (s', .ok (some report)) e) :
    s'.config = c ∧ s'.changes = [] ∧ (∀ t ∈ s'.errors, IsStuck c e.files t) ∧
      (∀ p, IsTouched report p → Naming.isOutput p = true) ∧
      ∃ u, u.files.isProper = true ∧ u.refused = d.refused ∧
        Yields (Orphans.clean c) u report.deleted e := by
  cases goes_of_yields hy with
  | @reports ts deleted rs u e hwork haffected hended hrendered hclean =>
    rw [hs.config] at hrendered hclean
    obtain ⟨hu, hrefused, hstuck⟩ :=
      isStuck_of_reports hc hs hd hclosed haffected hrendered hclean
    have htouched := isGenerated_of_touched hc hs hd haffected hrendered hu hclean
    obtain ⟨errors, hrecorded⟩ := foldl_record_eq (s.taken d.files) rs
    refine ⟨?_, ?_, hstuck, ?_, u, hu, hrefused, hclean⟩
    · rw [hrecorded]
      exact hs.config
    · rw [hrecorded]
      rfl
    · rintro _ ⟨p, hp, rfl⟩
      exact isOutput_of_isGenerated hc (htouched p hp)

/-- A session does not feed itself. After a call that reports, a further call, and a pump that is
told of files that were generated or deleted, write nothing, delete only what the system refused
to delete before, and leave the same templates pending; a pump does so if no path of a template
or a partial that matters waits. -/
theorem touched_files_feed_no_pass (c : Config) (s s' : Session) (d e : Disk) (report : Report)
    (refused : List Path) (hc : c.Rooted) (hs : Arises c s) (hd : d.files.isProper = true)
    (hclosed : Compilation.Closed d.files fun p => ¬IsGenerated c p)
    (hy : Yields s.process d (s', .ok (some report)) e) :
    (∃ s'' r e', Yields s'.process ⟨e.files, refused⟩ (s'', r) e' ∧
        LeavesAllBut c (fun p => p ∈ d.refused ∧ p ∉ refused) s' ⟨e.files, refused⟩ s'' r e') ∧
      ∀ told : List String, (∀ p ∈ told, IsTouched report p) →
        (∀ p ∈ s'.queue, s'.qualifies p = true →
          Naming.endsWith p Naming.templateSuffix = false) →
        ∃ s'' r e', Yields (told.foldl notify s').pump ⟨e.files, refused⟩ (s'', r) e' ∧
          LeavesAllBut c (fun p => p ∈ d.refused ∧ p ∉ refused) s' ⟨e.files, refused⟩ s'' r e' := by
  obtain ⟨hconfig, hchanges, hstuck, htouched, u, hu, hrefused, hclean⟩ :=
    exists_of_report hc (sound_of_arises hc hs) hd hclosed hy
  obtain ⟨_, v, hy', hv, -⟩ := Orphans.clean_cleans (d := u) hc hu
  obtain ⟨-, rfl⟩ := hclean.unique hy'
  rw [← hrefused]
  constructor
  · obtain ⟨s'', r, e', hagain, hretries⟩ :=
      exists_process_of_stuck (d := ⟨v, refused⟩) hc hconfig hchanges hv hstuck
    exact ⟨s'', r, e', hagain, hretries.leavesAllBut hc hu hclean⟩
  · intro told htold hqueue
    have hwaiting : ∀ p ∈ s'.queue ++ told, s'.qualifies p = true →
        Naming.endsWith p Naming.templateSuffix = false := by
      intro p hp hq
      rcases List.mem_append.1 hp with hp | hp
      · exact hqueue p hp hq
      · rw [Bool.eq_false_iff]
        intro hend
        have hout := htouched p (htold p hp)
        rw [Naming.not_isOutput_of_endsWith hend] at hout
        cases hout
    rw [foldl_notify]
    obtain ⟨s'', r, e', hagain, hretries⟩ :=
      exists_pump_of_stuck (s := { s' with queue := s'.queue ++ told }) (d := ⟨v, refused⟩) hc
        hconfig hchanges hv hstuck hwaiting
    have hsame : Retries c s' ⟨v, refused⟩ s'' r e' := hretries.of_errors rfl
    exact ⟨s'', r, e', hagain, hsame.leavesAllBut hc hu hclean⟩

/-! ## A template that still waits -/

def strayFiles : FileTree :=
  .directory [("out", .directory [("gone.g.md", .file "x".toUTF8)]),
    ("templates", .directory [("a.mdoc", .file "one".toUTF8), ("b.mdoc", .file "two".toUTF8)])]

/-- A first pump finds one of the templates pending, and the system refuses to delete the stray
file. Then some paths are reported before a call is made. -/
def afterFirst (waiting : List String) : Option Session :=
  (((Session.new includingConfig).notify "/templates/a.mdoc").pump
    ⟨strayFiles, [⟨.root, ["out", "gone.g.md"]⟩]⟩).result.toOption.map
      fun r => waiting.foldl notify r.1

theorem arises_afterFirst {waiting : List String} (h : afterFirst waiting = some s) :
    Arises includingConfig s := by
  obtain ⟨⟨s₁, r⟩, hs, rfl⟩ := Option.map_eq_some_iff.1 h
  have harises : Arises includingConfig s₁ :=
    .pump (.notify _ .new) (d := ⟨strayFiles, _⟩) (by decide +kernel) (eq_ok_of_toOption hs)
  clear h hs
  induction waiting generalizing s₁ with
  | nil => exact harises
  | cons path waiting ih => exact ih _ (.notify path harises)

/-- The call that follows reports; what is tested of it holds. -/
theorem exists_second (waiting : List String) (test : Session → Report → Disk → Bool)
    (h : ((afterFirst waiting).any fun s =>
      (s.process ⟨strayFiles, []⟩).result.toOption.any fun r => r.2.toOption.any fun report =>
        report.any fun report => test r.1 report (s.process ⟨strayFiles, []⟩).disk) = true) :
    ∃ s s' report e, Arises includingConfig s ∧
      Yields s.process ⟨strayFiles, []⟩ (s', .ok (some report)) e ∧ test s' report e = true := by
  obtain ⟨s, hs, h⟩ := (Option.any_eq_true _ _).1 h
  obtain ⟨⟨s', r⟩, hr, h⟩ := (Option.any_eq_true _ _).1 h
  obtain ⟨reported, hr', h⟩ := (Option.any_eq_true _ _).1 h
  obtain ⟨report, rfl, h⟩ := (Option.any_eq_true _ _).1 h
  obtain rfl := eq_ok_of_toOption hr'
  exact ⟨s, s', report, _, arises_afterFirst hs, ⟨eq_ok_of_toOption hr, rfl⟩, h⟩

theorem closed_strayFiles :
    Compilation.Closed strayFiles fun p => ¬IsGenerated includingConfig p := by
  refine Compilation.closed_of_files fun f hf => forall_ok_of_all ?_
  revert f
  decide +kernel

theorem isTouched_of_deleted {report : Report}
    (h : decide (report.deleted = [⟨.root, ["out", "gone.g.md"]⟩]) = true) :
    ∀ p ∈ ["/out/gone.g.md"], IsTouched report p := by
  intro p hp
  obtain rfl := List.mem_singleton.1 hp
  exact ⟨⟨.root, ["out", "gone.g.md"]⟩, .inl (by simp [of_decide_eq_true h]), by decide⟩

/-- The report of the deletion makes the session try the pending template again, for nothing. -/
theorem touched_files_feed_no_pass_of_deleted :
    ∃ s s' report e, Arises includingConfig s ∧
      Yields s.process ⟨strayFiles, []⟩ (s', .ok (some report)) e ∧ s'.errors ≠ [] ∧
      IsTouched report "/out/gone.g.md" ∧
      ∃ s'' r e', Yields (["/out/gone.g.md"].foldl notify s').pump ⟨e.files, []⟩ (s'', r) e' ∧
        s''.errors = s'.errors ∧ ∀ q, e'.files.at? q = e.files.at? q := by
  obtain ⟨s, s', report, e, harises, hy, htest⟩ := exists_second []
    (fun s' report _ => decide (report.deleted = [⟨.root, ["out", "gone.g.md"]⟩]) &&
      (decide (s'.errors ≠ []) && decide (s'.queue = []))) (by decide +kernel)
  simp only [Bool.and_eq_true] at htest
  obtain ⟨hdeleted, herrors, hqueue⟩ := htest
  have htouched := isTouched_of_deleted hdeleted
  obtain ⟨-, hpump⟩ := touched_files_feed_no_pass includingConfig s s' ⟨strayFiles, []⟩ e report []
    rooted_including harises (by decide +kernel) closed_strayFiles hy
  obtain ⟨s'', r, e', hy', hleaves⟩ :=
    hpump ["/out/gone.g.md"] htouched (by simp [of_decide_eq_true hqueue])
  exact ⟨s, s', report, e, harises, hy, of_decide_eq_true herrors,
    htouched _ (List.mem_singleton_self _), s'', r, e', hy', hleaves.errors,
    hleaves.same fun p hp => List.not_mem_nil hp.1⟩

/-- A template that was reported before the call still waits after it. The next pump takes it with
the report of a deletion, and it becomes pending. -/
theorem waiting_template_feeds_pass :
    ¬ ∀ (c : Config) (s s' : Session) (d e : Disk) (report : Report) (refused : List Path),
      c.Rooted → Arises c s → d.files.isProper = true →
      Compilation.Closed d.files (fun p => ¬IsGenerated c p) →
      Yields s.process d (s', .ok (some report)) e →
      ∀ told : List String, (∀ p ∈ told, IsTouched report p) →
        ∃ s'' r e', Yields (told.foldl notify s').pump ⟨e.files, refused⟩ (s'', r) e' ∧
          LeavesAllBut c (fun p => p ∈ d.refused ∧ p ∉ refused) s' ⟨e.files, refused⟩ s'' r e' := by
  intro h
  obtain ⟨s, s', report, e, harises, hy, htest⟩ := exists_second ["/templates/b.mdoc"]
    (fun s' report e =>
      decide (report.deleted = [⟨.root, ["out", "gone.g.md"]⟩]) &&
        ((["/out/gone.g.md"].foldl notify s').pump ⟨e.files, []⟩).result.toOption.all
          fun r : Session × _ => decide (r.1.errors ≠ s'.errors)) (by decide +kernel)
  rw [Bool.and_eq_true] at htest
  obtain ⟨hdeleted, herrors⟩ := htest
  obtain ⟨s'', r, e', hy', hleaves⟩ := h includingConfig s s' ⟨strayFiles, []⟩ e report []
    rooted_including harises (by decide +kernel) closed_strayFiles hy ["/out/gone.g.md"]
    (isTouched_of_deleted hdeleted)
  rw [hy'.result] at herrors
  exact of_decide_eq_true herrors hleaves.errors

end DocPress.Watch.Session
