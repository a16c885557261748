import DocPress.Proofs.Build.Safe
import DocPress.Proofs.Dependency.Map
import DocPress.Proofs.Watch.Collecting

/-!
# Passes

A pass renders the changed templates, the templates that depend on changed
partials, and the pending ones, each once. Recording the results leaves exactly
the templates pending that failed.
-/

set_option autoImplicit false

namespace DocPress.Watch.Session

open Discovery Dependency DocPress.Task

theorem mem_sort {ps : List Path} {p : Path} : p ∈ Path.sort ps ↔ p ∈ ps :=
  (List.mergeSort_perm ps _).mem_iff

variable {c : Config} {s : Session} {d e : Disk}

/-! ## What is affected -/

theorem yields_dependentsOf (c : Config) (m : Map) {p : Path} (hn : p.hasNul = false) (d : Disk) :
    Yields (dependentsOf c m p) d (Path.sort (m.get p.real)) d := by
  rw [dependentsOf, if_neg (by simp [hn])]
  exact (yields_noteIf _ _ d).bind (yields_pure _ d)

theorem fails_dependentsOf (c : Config) (m : Map) {p : Path} (hn : p.hasNul = true) (d : Disk) :
    Fails (dependentsOf c m p) d .nulInPath := by
  rw [dependentsOf, if_pos hn]
  exact fails_fail _ d

theorem yields_forEach_dependentsOf (c : Config) (m : Map) {ps : List Path}
    (hn : ∀ p ∈ ps, p.hasNul = false) (d : Disk) :
    Yields (forEach (dependentsOf c m) ps) d (ps.map fun p => Path.sort (m.get p.real)) d := by
  induction ps with
  | nil => exact yields_pure [] d
  | cons p ps ih =>
    rw [List.forall_mem_cons] at hn
    exact (yields_dependentsOf c m hn.1 d).forEach_cons (ih hn.2)

theorem fails_forEach_dependentsOf (c : Config) (m : Map) {ps : List Path}
    (hn : ∃ p ∈ ps, p.hasNul = true) (d : Disk) :
    Fails (forEach (dependentsOf c m) ps) d .nulInPath := by
  induction ps with
  | nil => simp at hn
  | cons p ps ih =>
    cases hp : p.hasNul with
    | true => exact (fails_dependentsOf c m hp d).bind _
    | false =>
      rw [List.exists_mem_cons_iff, hp] at hn
      exact (yields_dependentsOf c m hp d).bind_fails ((ih (hn.resolve_left nofun)).bind _)

theorem yields_affectedByPartials {m : Map} (ps : List Path)
    (hm : ps ≠ [] → (ofTemplates d.files (templates d.files c)).result = .ok m)
    (hn : ∀ p ∈ ps, p.hasNul = false) :
    ∃ found, Yields (affectedByPartials c ps) d found d ∧
      ∀ t, t ∈ found ↔ ∃ p ∈ ps, t ∈ m.get p.real := by
  unfold affectedByPartials
  cases ps with
  | nil => exact ⟨[], yields_pure [] d, by simp⟩
  | cons p ps =>
    refine ⟨((p :: ps).map fun p => Path.sort (m.get p.real)).flatten, ?_, fun t => ?_⟩
    · rw [if_neg (by simp)]
      apply (yields_readOnly (hm (by simp))).bind
      exact (yields_forEach_dependentsOf c m hn d).bind (yields_pure _ d)
    · simp only [List.mem_flatten, List.mem_map, exists_exists_and_eq_and, mem_sort]

theorem fails_affectedByPartials_of_error {ps : List Path} (hne : ps ≠ []) {f : Failure}
    (hm : (ofTemplates d.files (templates d.files c)).result = .error f) :
    Fails (affectedByPartials c ps) d f := by
  rw [affectedByPartials, if_neg (by simpa using hne)]
  exact Fails.bind (fails_readOnly hm) _

theorem fails_affectedByPartials_of_nul {m : Map} {ps : List Path}
    (hm : (ofTemplates d.files (templates d.files c)).result = .ok m)
    (hn : ∃ p ∈ ps, p.hasNul = true) : Fails (affectedByPartials c ps) d .nulInPath := by
  obtain ⟨p, hp, -⟩ := id hn
  rw [affectedByPartials, if_neg (by simpa using List.ne_nil_of_mem hp)]
  exact (yields_readOnly hm).bind_fails ((fails_forEach_dependentsOf c m hn d).bind _)

def IsAffected (s : Session) (files : FileTree) (m : Map) (changes : List Path) (t : Path) : Prop :=
  (t ∈ changes ∧ Naming.isTemplate t.toString = true ∧ files.isFile t = true) ∨
    (∃ p ∈ changes, Naming.isPartial p.toString = true ∧ t ∈ m.get p.real) ∨ t ∈ s.errors

/-- What the templates that some changes concern are told from: if partials are among the
changes, the map of dependencies, and no path that the system would not take. -/
structure Scans (c : Config) (files : FileTree) (changes : List Path) (m : Map) : Prop where
  map : (∃ p ∈ changes, Naming.isPartial p.toString = true) →
    (ofTemplates files (templates files c)).result = .ok m
  noNul : ∀ p ∈ changes, Naming.isPartial p.toString = true → p.hasNul = false

theorem mem_partials_sort {changes : List Path} {p : Path} :
    p ∈ (Path.sort changes).filter (Naming.isPartial ·.toString) ↔
      p ∈ changes ∧ Naming.isPartial p.toString = true := by
  rw [List.mem_filter, mem_sort]

/-- The templates to render after some changes, each once. -/
theorem yields_affected {m : Map} (changes : List Path)
    (hm : Scans s.config d.files changes m) :
    ∃ found, Yields (s.affected changes) d found d ∧ found.Nodup ∧
      ∀ t, t ∈ found ↔ IsAffected s d.files m changes t := by
  obtain ⟨dependents, hy, hdependents⟩ := yields_affectedByPartials
    ((Path.sort changes).filter (Naming.isPartial ·.toString))
    (fun hne => by
      obtain ⟨p, hp⟩ := List.exists_mem_of_ne_nil _ hne
      exact hm.map ⟨p, mem_partials_sort.1 hp⟩)
    fun p hp => hm.noNul p (mem_partials_sort.1 hp).1 (mem_partials_sort.1 hp).2
  refine ⟨_, (yields_look _ d).bind (hy.bind (yields_pure _ d)),
    nodup_foldl_addPath List.nodup_nil _, fun t => ?_⟩
  rw [mem_foldl_addPath, List.mem_append, List.mem_append, List.mem_filter, mem_sort, mem_sort,
    hdependents]
  simp only [mem_partials_sort, List.not_mem_nil, false_or, Bool.and_eq_true, IsAffected,
    and_assoc, or_assoc]

theorem fails_affected (changes : List Path) (h : ¬∃ m, Scans s.config d.files changes m) :
    (∃ p ∈ changes, Naming.isPartial p.toString = true) ∧ ∃ f, Fails (s.affected changes) d f ∧
      ((ofTemplates d.files (templates d.files s.config)).result = .error f ∨
        f = .nulInPath ∧
          ∃ p ∈ changes, Naming.isPartial p.toString = true ∧ p.hasNul = true) := by
  have hpartial : ∃ p ∈ changes, Naming.isPartial p.toString = true := by
    by_contra hno
    exact h ⟨[], fun hp => absurd hp hno, fun p hp hn => absurd ⟨p, hp, hn⟩ hno⟩
  refine ⟨hpartial, ?_⟩
  cases hm : (ofTemplates d.files (templates d.files s.config)).result with
  | error f =>
    obtain ⟨p, hp⟩ := hpartial
    exact ⟨f, (yields_look _ d).bind_fails ((fails_affectedByPartials_of_error
      (List.ne_nil_of_mem (mem_partials_sort.2 hp)) hm).bind _), .inl rfl⟩
  | ok m =>
    have hnul : ∃ p ∈ changes, Naming.isPartial p.toString = true ∧ p.hasNul = true := by
      by_contra hno
      refine h ⟨m, fun _ => hm, fun p hp hn => ?_⟩
      cases hp' : p.hasNul with
      | false => rfl
      | true => exact absurd ⟨p, hp, hn, hp'⟩ hno
    obtain ⟨p, hp, hn, hp'⟩ := id hnul
    exact ⟨.nulInPath, (yields_look _ d).bind_fails ((fails_affectedByPartials_of_nul hm
      ⟨p, mem_partials_sort.2 ⟨hp, hn⟩, hp'⟩).bind _), .inr ⟨rfl, hnul⟩⟩

/-! ## Recording -/

theorem mem_record {r : FileResult} {t : Path} : t ∈ (s.record r).errors ↔
    (t ∈ s.errors ∧ t ≠ r.template) ∨ (t = r.template ∧ r.isOk = false) := by
  unfold record
  cases hr : r.isOk with
  | true => simp
  | false =>
    simp only [Bool.false_eq_true, if_false, mem_addPath, and_true]
    by_cases ht : t = r.template
    · simp [ht]
    · simp [ht]

theorem foldl_record_eq (s : Session) (rs : List FileResult) :
    ∃ errors, rs.foldl record s = { s with errors := errors } := by
  induction rs generalizing s with
  | nil => exact ⟨s.errors, rfl⟩
  | cons r rs ih =>
    obtain ⟨errors, he⟩ := ih (s.record r)
    exact ⟨errors, by rw [List.foldl_cons, he]; rfl⟩

/-- After results for different templates, those are pending that failed, and the pending ones
for which there is no result. -/
theorem mem_foldl_record {rs : List FileResult} (hn : (rs.map FileResult.template).Nodup)
    {t : Path} : t ∈ (rs.foldl record s).errors ↔
      (t ∈ s.errors ∧ t ∉ rs.map FileResult.template) ∨
        ∃ r ∈ rs, r.template = t ∧ r.isOk = false := by
  induction rs generalizing s with
  | nil => simp
  | cons r rs ih =>
    rw [List.map_cons, List.nodup_cons] at hn
    rw [List.foldl_cons, ih hn.2, mem_record, List.map_cons, List.mem_cons]
    constructor
    · rintro (⟨⟨he, hne⟩ | ⟨rfl, hr⟩, hm⟩ | ⟨q, hq, hrest⟩)
      · exact Or.inl ⟨he, not_or.2 ⟨hne, hm⟩⟩
      · exact Or.inr ⟨r, List.mem_cons_self .., rfl, hr⟩
      · exact Or.inr ⟨q, List.mem_cons_of_mem _ hq, hrest⟩
    · rintro (⟨he, hm⟩ | ⟨q, hq, rfl, hok⟩)
      · rw [not_or] at hm
        exact Or.inl ⟨Or.inl ⟨he, hm.1⟩, hm.2⟩
      · rcases List.mem_cons.1 hq with rfl | hq
        · exact Or.inl ⟨Or.inr ⟨rfl, hok⟩, hn.1⟩
        · exact Or.inr ⟨q, hq, rfl, hok⟩

/-! ## Rendering -/

theorem yields_renderEach {ts : List Path} {rs : List FileResult}
    (h : Yields (forEach (Build.tryRenderFile s.config false) ts) d rs e) :
    Yields (s.renderEach ts) d (rs.foldl record s, .ok rs) e := by
  induction ts generalizing s d rs with
  | nil =>
    obtain ⟨rfl, rfl⟩ := h.unique (yields_pure [] d)
    exact yields_pure _ _
  | cons t ts ih =>
    obtain ⟨r, rs', u, rfl, hr, hrs⟩ := h.of_forEach_cons
    exact hr.attempt.bind ((ih (s := s.record r) hrs).bind (yields_pure _ _))

theorem yields_pass {ts : List Path} {rs : List FileResult} {f : Disk} {deleted : List Path}
    (h : Yields (forEach (Build.tryRenderFile s.config false) ts) d rs e)
    (hclean : Yields (Orphans.clean s.config) e deleted f) :
    ∃ s', Yields (s.pass ts) d (s', .ok (some ⟨rs, deleted⟩)) f ∧ s'.config = s.config ∧
      s'.errors = (rs.foldl record s).errors := by
  obtain ⟨errors, he⟩ := foldl_record_eq s rs
  have heach := yields_renderEach h
  rw [he] at heach ⊢
  refine ⟨{ s with errors := errors, state := .idle, passes := s.passes + 1 }, ?_, rfl, rfl⟩
  exact heach.bind (hclean.attempt.bind ((yields_noteIf _ _ _).bind (yields_pure _ _)))

end DocPress.Watch.Session
