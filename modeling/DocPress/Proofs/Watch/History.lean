import DocPress.Proofs.Watch.Calls

/-!
# The pending templates of a session

A history tells when calls began, with the files as they were then, and what became of each
template that was rendered. The pending templates are told from it alone: those whose last
rendering failed and that were files whenever a call began since. A call that reports has
rendered all of them that are still there.
-/

set_option autoImplicit false

namespace DocPress.Watch.Session

open Discovery Dependency DocPress.Task

inductive Moment where
  | began (files : FileTree)
  | rendered (result : FileResult)

def Moment.Spares (t : Path) : Moment → Prop
  | .began files => files.isFile t = true
  | .rendered r => r.template ≠ t

/-- Whether the last rendering of a template failed, and it was a file whenever a call began
since. -/
def StillFailing (history : List Moment) (t : Path) : Prop :=
  ∃ before r after, history = before ++ .rendered r :: after ∧ r.template = t ∧ r.isOk = false ∧
    ∀ m ∈ after, m.Spares t

variable {c : Config} {s s' : Session} {d e : Disk} {h : List Moment} {t : Path}

theorem stillFailing_concat {m : Moment} : StillFailing (h ++ [m]) t ↔
    (StillFailing h t ∧ m.Spares t) ∨ ∃ r, m = .rendered r ∧ r.template = t ∧ r.isOk = false := by
  constructor
  · rintro ⟨before, r, after, heq, ht, hr, hafter⟩
    rcases List.eq_nil_or_concat after with rfl | ⟨after, last, rfl⟩
    · obtain ⟨-, hm⟩ := List.append_inj' heq rfl
      exact .inr ⟨r, List.head_eq_of_cons_eq hm, ht, hr⟩
    · rw [List.concat_eq_append] at heq hafter
      rw [← List.cons_append, ← List.append_assoc] at heq
      obtain ⟨rfl, hm⟩ := List.append_inj' heq rfl
      obtain rfl := List.head_eq_of_cons_eq hm
      exact .inl ⟨⟨before, r, after, rfl, ht, hr, fun m hm => hafter m (List.mem_append_left _ hm)⟩,
        hafter m (by simp)⟩
  · rintro (⟨⟨before, r, after, rfl, ht, hr, hafter⟩, hm⟩ | ⟨r, rfl, ht, hr⟩)
    · refine ⟨before, r, after ++ [m], by simp, ht, hr, fun m' hm' => ?_⟩
      rcases List.mem_append.1 hm' with hm' | hm'
      · exact hafter m' hm'
      · rwa [List.mem_singleton.1 hm']
    · exact ⟨h, r, [], rfl, ht, hr, by simp⟩

/-! ## What a call adds to the history -/

instance (s : Session) (files : FileTree) : Decidable (s.HasWork files) :=
  inferInstanceAs (Decidable (_ ∨ _))

/-- The results of a call, also of one that stops before it reports. -/
def rendered (s : Session) (d : Disk) : List FileResult :=
  if s.HasWork d.files then
    match ((s.taken d.files).affected s.changes d).result with
    | .error _ => []
    | .ok ts => ended s.config ts d
  else []

def moments (s : Session) (d : Disk) : List Moment :=
  .began d.files :: (s.rendered d).map .rendered

def pumpMoments (s : Session) (d : Disk) : List Moment :=
  if s.collect.1.isEmpty then [] else s.collect.2.moments d

/-- The sessions that begin with a start, with their histories: afterwards they are told of
paths, and calls are made, each on whatever files there are then. -/
inductive Lives (c : Config) : List Moment → Session → Prop
  | start {s : Session} {d : Disk} {report : Report} {fresh : List Path} :
      d.files.isProper = true → ((Session.new c).start d).result = .ok (s, report, fresh) →
        Lives c (report.results.map .rendered) s
  | notify {h : List Moment} {s : Session} (path : String) : Lives c h s → Lives c h (s.notify path)
  | process {h : List Moment} {s s' : Session} {d : Disk} {r : Except Failure (Option Report)} :
      Lives c h s → d.files.isProper = true → (s.process d).result = .ok (s', r) →
        Lives c (h ++ s.moments d) s'
  | pump {h : List Moment} {s s' : Session} {d : Disk} {r : Except Failure (Option Report)} :
      Lives c h s → d.files.isProper = true → (s.pump d).result = .ok (s', r) →
        Lives c (h ++ s.pumpMoments d) s'

/-- A start comes back, and so does a call, whatever has happened before and whatever files there
are. -/
theorem exists_lives (hc : c.Rooted) (hd : d.files.isProper = true) :
    (∃ s report fresh e, Yields (Session.new c).start d (s, report, fresh) e ∧
      Lives c (report.results.map .rendered) s) ∧
    ∀ h s, Lives c h s →
      (∃ s' r e, Yields s.process d (s', r) e ∧ Lives c (h ++ s.moments d) s') ∧
        ∃ s' r e, Yields s.pump d (s', r) e ∧ Lives c (h ++ s.pumpMoments d) s' := by
  constructor
  · obtain ⟨s, report, fresh, e, hy⟩ := exists_start hc hd (s := Session.new c) rfl
    exact ⟨s, report, fresh, e, hy, .start hd hy.result⟩
  · intro h s hl
    obtain ⟨s', r, e, hy, -⟩ := exists_goes s d
    obtain ⟨s₁, r₁, e₁, hy₁⟩ := pump_returns s d
    exact ⟨⟨s', r, e, hy, .process hl hd hy.result⟩, s₁, r₁, e₁, hy₁, .pump hl hd hy₁.result⟩

theorem arises_of_lives (hl : Lives c h s) : Arises c s := by
  induction hl with
  | start hd hr => exact .start .new hd hr
  | notify path _ ih => exact .notify path ih
  | process _ hd hr ih => exact .process ih hd hr
  | pump _ hd hr ih => exact .pump ih hd hr

variable {r : Except Failure (Option Report)}

theorem rendered_of_rests (hwork : ¬s.HasWork d.files) : s.rendered d = [] := by
  rw [rendered, if_neg hwork]

theorem rendered_of_fails {f : Failure} (h : Fails ((s.taken d.files).affected s.changes) d f) :
    s.rendered d = [] := by
  rw [rendered, h.result]
  split <;> rfl

theorem rendered_of_yields {ts : List Path} (hwork : s.HasWork d.files)
    (h : Yields ((s.taken d.files).affected s.changes) d ts d) :
    s.rendered d = ended s.config ts d := by
  rw [rendered, if_pos hwork, h.result]

theorem Goes.errors (h : Goes s d s' r e) :
    s'.errors = ((s.rendered d).foldl record (s.taken d.files)).errors := by
  cases h with
  | rests hwork => rw [rendered_of_rests hwork]; rfl
  | lost _ haffected => rw [rendered_of_fails haffected]; rfl
  | stops hwork haffected => rw [rendered_of_yields hwork haffected]
  | reports hwork haffected hended => rw [rendered_of_yields hwork haffected, hended]

theorem Goes.results {report : Report} (h : Goes s d s' (.ok (some report)) e) :
    report.results = s.rendered d := by
  cases h with
  | reports hwork haffected hended => rw [rendered_of_yields hwork haffected, hended]

/-! ## Pending and still failing -/

/-- The pending templates of a session are those that still fail by its history. -/
def Agrees (h : List Moment) (s : Session) : Prop := ∀ t, t ∈ s.errors ↔ StillFailing h t

theorem Agrees.record (hs : Agrees h s) (r : FileResult) :
    Agrees (h ++ [.rendered r]) (s.record r) := by
  intro t
  rw [mem_record, stillFailing_concat, hs t]
  simp only [Moment.rendered.injEq, exists_eq_left', Moment.Spares, ne_comm, eq_comm]

theorem Agrees.foldl_record (hs : Agrees h s) (rs : List FileResult) :
    Agrees (h ++ rs.map .rendered) (rs.foldl Session.record s) := by
  induction rs generalizing h s with
  | nil => rwa [List.map_nil, List.append_nil]
  | cons r rs ih =>
    rw [List.map_cons, List.append_cons, List.foldl_cons]
    exact ih (hs.record r)

theorem Agrees.taken (hs : Agrees h s) (files : FileTree) :
    Agrees (h ++ [.began files]) (s.taken files) := by
  intro t
  rw [stillFailing_concat, ← hs t]
  simp [Session.taken, Session.current, Moment.Spares]

theorem Agrees.process (hs : Agrees h s) (hy : Yields s.process d (s', r) e) :
    Agrees (h ++ s.moments d) s' := by
  intro t
  rw [(goes_of_yields hy).errors, moments, List.append_cons]
  exact (hs.taken d.files).foldl_record _ t

theorem Agrees.collect (hs : Agrees h s) : Agrees h s.collect.2 := by
  intro t
  rw [collect_errors]
  exact hs t

theorem Agrees.pump (hs : Agrees h s) (hy : Yields s.pump d (s', r) e) :
    Agrees (h ++ s.pumpMoments d) s' := by
  rw [pumpMoments]
  rcases pump_cases hy with ⟨hbatch, rfl, -, -⟩ | ⟨hbatch, hy⟩
  · rw [hbatch, List.isEmpty_nil, if_pos rfl, List.append_nil]
    exact hs.collect
  · rw [if_neg (by simpa using hbatch)]
    exact hs.collect.process hy

/-- The results of a start are for different templates, so the failed ones are pending. -/
theorem agrees_of_start (hc : c.Rooted) (hd : d.files.isProper = true) {report : Report}
    {fresh : List Path} (hy : Yields (Session.new c).start d (s, report, fresh) e) :
    Agrees (report.results.map .rendered) s := by
  obtain ⟨s₁, e₁, hbuild, rfl⟩ := initialBuild_of_start hy
  obtain ⟨hrun, rfl⟩ := errors_of_initialBuild hbuild
  obtain ⟨files, hf, hmap⟩ := templates_of_run hc hd hrun
  have hnodup : (report.results.map FileResult.template).Nodup := by
    rw [hmap]
    exact nodup_templates hf hc.templates
  have hnew : Agrees [] (Session.new c) := by
    intro t
    refine iff_of_false List.not_mem_nil ?_
    rintro ⟨before, r, after, heq, -⟩
    exact List.append_ne_nil_of_right_ne_nil before (List.cons_ne_nil _ after) heq.symm
  intro t
  have hrecorded := hnew.foldl_record report.results t
  rw [List.nil_append] at hrecorded
  rw [← hrecorded, mem_foldl_record hnodup, mem_foldl_addPath]
  simp [Session.new, Report.failed, and_left_comm, and_comm]

theorem agrees_of_lives (hc : c.Rooted) (hl : Lives c h s) : Agrees h s := by
  induction hl with
  | start hd hr => exact agrees_of_start hc hd ⟨hr, rfl⟩
  | notify path _ ih => exact ih
  | process _ _ hr ih => exact ih.process ⟨hr, rfl⟩
  | pump _ _ hr ih => exact ih.pump ⟨hr, rfl⟩

/-! ## Calls that report -/

/-- A call that reports has rendered every pending template that is a file. -/
theorem exists_result_of_pending {report : Report}
    (hy : Yields s.process d (s', .ok (some report)) e) (ht : t ∈ s.errors)
    (hf : d.files.isFile t = true) : ∃ r ∈ report.results, r.template = t := by
  cases goes_of_yields hy with
  | @reports ts deleted rs u e hwork haffected hended hrendered hclean =>
    obtain ⟨m, -, -, hts⟩ := affected_ok haffected
    have hmem : t ∈ ts := (hts t).2 (.inr (.inr (List.mem_filter.2 ⟨ht, hf⟩)))
    rw [← (templates_of_forEach hrendered).1] at hmem
    exact List.mem_map.1 hmem

theorem rendered_of_error {f : Failure} (hc : c.Rooted) (hs : Sound c s)
    (hd : d.files.isProper = true) (hdir : d.files.isFile c.templates = false)
    (hy : Yields s.process d (s', .error f) e) : s.rendered d = [] := by
  obtain ⟨s₁, r₁, e₁, hy₁, hends⟩ := exists_process hc hs hd hdir
  obtain ⟨he, -⟩ := hy.unique hy₁
  obtain ⟨-, rfl⟩ := Prod.mk.inj he
  cases hends with
  | fails hwork hm =>
    obtain ⟨-, f, hf, -⟩ := fails_affected (s := s.taken d.files) (d := d) s.changes
      (by rw [← hs.config] at hm; exact hm)
    exact rendered_of_fails hf

/-- Whatever happens to a session after its start, the pending templates are those that still
fail by its history, and a call that reports has a result for each of them that is a file. A
rendering without a result can only be one of the templates directory itself. -/
theorem pending_iff_stillFailing (c : Config) (h : List Moment) (s : Session) (hc : c.Rooted)
    (hl : Lives c h s) :
    (∀ t, t ∈ s.errors ↔ StillFailing h t) ∧
      (∀ d s' report e, Yields s.process d (s', .ok (some report)) e →
        report.results = s.rendered d ∧
          ∀ t ∈ s.errors, d.files.isFile t = true → ∃ r ∈ report.results, r.template = t) ∧
      (∀ d s' report e, Yields s.pump d (s', .ok (some report)) e →
        report.results = s.collect.2.rendered d ∧
          ∀ t ∈ s.errors, d.files.isFile t = true → ∃ r ∈ report.results, r.template = t) ∧
      ∀ d s' f e, d.files.isProper = true → d.files.isFile c.templates = false →
        (Yields s.process d (s', .error f) e → s.rendered d = []) ∧
          (Yields s.pump d (s', .error f) e → s.collect.2.rendered d = []) := by
  have hsound := sound_of_arises hc (arises_of_lives hl)
  refine ⟨agrees_of_lives hc hl, fun d s' report e hy => ?_, fun d s' report e hy => ?_,
    fun d s' f e hd hdir => ⟨rendered_of_error hc hsound hd hdir, fun hy => ?_⟩⟩
  · exact ⟨(goes_of_yields hy).results, fun t => exists_result_of_pending hy⟩
  · obtain ⟨-, -, hr, -⟩ | ⟨-, hy⟩ := pump_cases hy
    · cases hr
    refine ⟨(goes_of_yields hy).results, fun t ht => exists_result_of_pending hy ?_⟩
    rwa [collect_errors]
  · obtain ⟨-, -, hr, -⟩ | ⟨-, hy⟩ := pump_cases hy
    · cases hr
    exact rendered_of_error hc (hsound.collect hc) hd hdir hy

def soleFiles : FileTree :=
  .directory [("templates", .directory [("a.mdoc", .file "one".toUTF8)])]

/-- A template without a generated file is pending after the start; the next call renders it. -/
theorem pending_iff_stillFailing_of_missing :
    ∃ h s, Lives includingConfig h s ∧ StillFailing h (includedPath "a.mdoc") ∧
      ∃ s' report e, Yields s.process ⟨soleFiles, []⟩
          (s', .ok (some report)) e ∧
        ∃ r ∈ report.results, r.template = includedPath "a.mdoc" := by
  have hstart : (((Session.new includingConfig).start
      ⟨soleFiles, []⟩).result.toOption.any fun r =>
        decide (includedPath "a.mdoc" ∈ r.1.errors) &&
          (r.1.process ⟨soleFiles, []⟩).result.toOption.any fun p =>
            p.2.toOption.any Option.isSome) = true := by
    decide +kernel
  obtain ⟨⟨s, report, fresh⟩, hs, hpending⟩ := (Option.any_eq_true _ _).1 hstart
  simp only [Bool.and_eq_true, decide_eq_true_iff] at hpending
  obtain ⟨hpending, hprocess⟩ := hpending
  obtain ⟨⟨s', r⟩, hr, hreport⟩ := (Option.any_eq_true _ _).1 hprocess
  obtain ⟨reported, hr', hreport⟩ := (Option.any_eq_true _ _).1 hreport
  obtain ⟨report', rfl⟩ := Option.isSome_iff_exists.1 hreport
  obtain rfl : r = .ok (some report') := eq_ok_of_toOption hr'
  have hlives : Lives includingConfig _ s :=
    .start (d := ⟨soleFiles, []⟩) (by decide +kernel) (eq_ok_of_toOption hs)
  obtain ⟨hiff, hcall, -⟩ := pending_iff_stillFailing includingConfig _ s rooted_including hlives
  have hy : Yields s.process ⟨soleFiles, []⟩ (s', .ok (some report')) _ :=
    ⟨eq_ok_of_toOption hr, rfl⟩
  exact ⟨_, s, hlives, (hiff _).1 hpending, s', report', _, hy,
    (hcall _ s' report' _ hy).2 _ hpending (by decide +kernel)⟩

end DocPress.Watch.Session
