import DocPress.Proofs.Watch.Survival

/-!
# What a call does

Looking for what is affected changes no file. Rendering records every result as it comes, also
those before a template that stops the others. A call rests, or finds no list of templates, or
stops while it renders, or reports; which of these it does is told by the session and the disk.
-/

set_option autoImplicit false

namespace DocPress

namespace Task

variable {α β : Type}

theorem yields_attempt (x : Task α) (d : Disk) : Yields x.attempt d (x d).result (x d).disk :=
  ⟨rfl, rfl⟩

end Task

namespace Watch.Session

open Dependency DocPress.Task

variable {s s' : Session} {d e : Disk} {r : Except Failure (Option Report)}

/-- Whether there are templates to render is all that looking for them tells: no file changes. -/
theorem affected_cases (s : Session) (changes : List Path) (d : Disk) :
    (∃ ts, Yields (s.affected changes) d ts d) ∨ ∃ f, Fails (s.affected changes) d f := by
  by_cases hm : ∃ m, Scans s.config d.files changes m
  · obtain ⟨m, hm⟩ := hm
    obtain ⟨ts, hy, -⟩ := yields_affected changes hm
    exact .inl ⟨ts, hy⟩
  · obtain ⟨-, f, hf, -⟩ := fails_affected changes hm
    exact .inr ⟨f, hf⟩

/-! ## Rendering -/

/-- The results of templates that are rendered one after the other, until one has none. -/
def ended (c : Config) : List Path → Disk → List FileResult
  | [], _ => []
  | t :: ts, d =>
    match (Build.tryRenderFile c false t d).result with
    | .error _ => []
    | .ok r => r :: ended c ts (Build.tryRenderFile c false t d).disk

/-- Rendering yields the session with all results recorded, also when it stops early. -/
theorem exists_renderEach (s : Session) (ts : List Path) (d : Disk) :
    ∃ r e, Yields (s.renderEach ts) d ((ended s.config ts d).foldl record s, r) e ∧
      ∀ rs, r = .ok rs → rs = ended s.config ts d ∧
        Yields (forEach (Build.tryRenderFile s.config false) ts) d rs e := by
  induction ts generalizing s d with
  | nil =>
    refine ⟨.ok [], d, yields_pure _ d, fun rs hrs => ?_⟩
    obtain rfl := Except.ok.inj hrs
    exact ⟨rfl, yields_pure [] d⟩
  | cons t ts ih =>
    rw [ended]
    have hattempt := yields_attempt (Build.tryRenderFile s.config false t) d
    cases hresult : (Build.tryRenderFile s.config false t d).result with
    | error f =>
      rw [hresult] at hattempt
      exact ⟨.error f, _, hattempt.bind (yields_pure _ _), fun rs hrs => by cases hrs⟩
    | ok result =>
      rw [hresult] at hattempt
      obtain ⟨r, e, hy, hok⟩ := ih (s.record result) (Build.tryRenderFile s.config false t d).disk
      refine ⟨r.map (result :: ·), e, hattempt.bind (hy.bind (yields_pure _ _)), fun rs hrs => ?_⟩
      cases r with
      | error f => cases hrs
      | ok more =>
        obtain ⟨rfl, hmore⟩ := hok more rfl
        obtain rfl := Except.ok.inj hrs
        have hfirst : Yields (Build.tryRenderFile s.config false t) d result _ := ⟨hresult, rfl⟩
        exact ⟨rfl, hfirst.forEach_cons hmore⟩

/-- Each template that has a result has a place for its generated file. -/
theorem templates_of_forEach {c : Config} {force : Bool} {ts : List Path} {rs : List FileResult}
    (h : Yields (forEach (Build.tryRenderFile c force) ts) d rs e) :
    rs.map FileResult.template = ts ∧ ∀ t ∈ ts, ∃ out, c.outputFor t = .ok out := by
  induction ts generalizing d rs with
  | nil =>
    obtain ⟨rfl, -⟩ := h.unique (yields_pure [] d)
    exact ⟨rfl, by simp⟩
  | cons t ts ih =>
    obtain ⟨r, more, u, rfl, hr, hmore⟩ := h.of_forEach_cons
    obtain ⟨htemplate, hout⟩ := template_of_tryRenderFile hr
    obtain ⟨hmap, houts⟩ := ih hmore
    exact ⟨by rw [List.map_cons, htemplate, hmap], List.forall_mem_cons.2 ⟨hout, houts⟩⟩

/-! ## Calls -/

/-- How a call goes: what becomes of the session, what it yields, and the disk it leaves. -/
inductive Goes (s : Session) (d : Disk) :
    Session → Except Failure (Option Report) → Disk → Prop
  | rests (hwork : ¬s.HasWork d.files) :
      Goes s d { s.current d.files with state := .idle } (.ok none) d
  | lost {f : Failure} (hwork : s.HasWork d.files)
      (haffected : Fails ((s.taken d.files).affected s.changes) d f) :
      Goes s d { s.taken d.files with state := .idle } (.error f) d
  | stops {ts : List Path} {f : Failure} {e : Disk} (hwork : s.HasWork d.files)
      (haffected : Yields ((s.taken d.files).affected s.changes) d ts d) :
      Goes s d { (ended s.config ts d).foldl record (s.taken d.files) with state := .idle }
        (.error f) e
  | reports {ts deleted : List Path} {rs : List FileResult} {u e : Disk}
      (hwork : s.HasWork d.files)
      (haffected : Yields ((s.taken d.files).affected s.changes) d ts d)
      (hended : rs = ended s.config ts d)
      (hrendered : Yields (forEach (Build.tryRenderFile s.config false) ts) d rs u)
      (hclean : Yields (Orphans.clean s.config) u deleted e) :
      Goes s d
        { rs.foldl record (s.taken d.files) with state := .idle, passes := s.passes + 1 }
        (.ok (some ⟨rs, deleted⟩)) e

/-- A pass over templates stops, or has recorded the results that it reports. -/
theorem exists_pass_of_any (s : Session) (ts : List Path) (d : Disk) :
    ∃ s' r e, Yields (s.pass ts) d (s', r) e ∧
      ((∃ f, r = .error f ∧ s' = { (ended s.config ts d).foldl record s with state := .idle }) ∨
        ∃ rs deleted u, r = .ok (some ⟨rs, deleted⟩) ∧
          s' = { rs.foldl record s with state := .idle, passes := s.passes + 1 } ∧
          rs = ended s.config ts d ∧
          Yields (forEach (Build.tryRenderFile s.config false) ts) d rs u ∧
          Yields (Orphans.clean s.config) u deleted e) := by
  obtain ⟨r, u, heach, hok⟩ := exists_renderEach s ts d
  cases r with
  | error f => exact ⟨_, _, u, heach.bind (yields_pure _ u), .inl ⟨f, rfl, rfl⟩⟩
  | ok rs =>
    obtain ⟨rfl, hrendered⟩ := hok rs rfl
    obtain ⟨errors, hrecorded⟩ := foldl_record_eq s (ended s.config ts d)
    rw [hrecorded] at heach ⊢
    have hattempt := yields_attempt (Orphans.clean s.config) u
    cases hclean : (Orphans.clean s.config u).result with
    | error f =>
      rw [hclean] at hattempt
      exact ⟨_, _, _, heach.bind (hattempt.bind (yields_pure _ _)), .inl ⟨f, rfl, rfl⟩⟩
    | ok deleted =>
      rw [hclean] at hattempt
      exact ⟨_, _, _, heach.bind (hattempt.bind ((yields_noteIf _ _ _).bind (yields_pure _ _))),
        .inr ⟨_, deleted, u, rfl, by rw [hrecorded], rfl, hrendered, hclean, rfl⟩⟩

theorem exists_goes (s : Session) (d : Disk) :
    ∃ s' r e, Yields s.process d (s', r) e ∧ Goes s d s' r e := by
  by_cases hwork : s.HasWork d.files
  · rcases affected_cases (s.taken d.files) s.changes d with ⟨ts, hts⟩ | ⟨f, hf⟩
    · obtain ⟨s', r, e, hy, hpass⟩ := exists_pass_of_any (s.taken d.files) ts d
      refine ⟨s', r, e, yields_process_of_hasWork hwork hts.attempt hy, ?_⟩
      rcases hpass with ⟨f, rfl, rfl⟩ | ⟨rs, deleted, u, rfl, rfl, hended, hrendered, hclean⟩
      · exact .stops hwork hts
      · exact .reports hwork hts hended hrendered hclean
    · exact ⟨_, _, d, yields_process_of_hasWork hwork hf.attempt (yields_pure _ d), .lost hwork hf⟩
  · exact ⟨_, _, d, yields_process_of_rests hwork, .rests hwork⟩

theorem goes_of_yields (h : Yields s.process d (s', r) e) : Goes s d s' r e := by
  obtain ⟨s₁, r₁, e₁, hy, hgoes⟩ := exists_goes s d
  obtain ⟨he, rfl⟩ := h.unique hy
  obtain ⟨rfl, rfl⟩ := Prod.mk.inj he
  exact hgoes

theorem pump_returns (s : Session) (d : Disk) : ∃ s' r e, Yields s.pump d (s', r) e := by
  by_cases hbatch : s.collect.1 = []
  · exact ⟨_, _, d, yields_pump_of_rejected hbatch d⟩
  · obtain ⟨s', r, e, hy, -⟩ := exists_goes s.collect.2 d
    rw [pump_eq, if_neg (by simpa using hbatch)]
    exact ⟨s', r, e, hy⟩

/-- A pump that accepts no path yields nothing; else it goes as a call does. -/
theorem pump_cases (h : Yields s.pump d (s', r) e) :
    (s.collect.1 = [] ∧ s' = s.collect.2 ∧ r = .ok none ∧ e = d) ∨
      (s.collect.1 ≠ [] ∧ Yields s.collect.2.process d (s', r) e) := by
  by_cases hbatch : s.collect.1 = []
  · obtain ⟨he, rfl⟩ := h.unique (yields_pump_of_rejected hbatch d)
    obtain ⟨rfl, rfl⟩ := Prod.mk.inj he
    exact .inl ⟨hbatch, rfl, rfl, rfl⟩
  · rw [pump_eq, if_neg (by simpa using hbatch)] at h
    exact .inr ⟨hbatch, h⟩

end Watch.Session

end DocPress
