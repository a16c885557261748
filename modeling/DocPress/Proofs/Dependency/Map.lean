import DocPress.Proofs.FileTree.View
import DocPress.Proofs.Tracking

/-!
# The dependency map

Where every document that can be met can be read, the search for partials never
fails, and the map that is made from it gives for each path exactly the templates
that the search found it for.
-/

set_option autoImplicit false

namespace DocPress.Dependency

open FileTree Compilation Relation

/-! ## Searches that cannot fail -/

theorem exists_partials {directory : Path} {n : Node}
    (h : ∀ file ∈ n.walk.filterMap included?, ∃ p, place directory file = .ok p) :
    ∃ ps, partials directory n = .ok ps :=
  ⟨_, partials_eq_ok_iff.2
    ⟨fun file hfile => (place_eq_ok_iff.1 (h file hfile).choose_spec).1, rfl⟩⟩

theorem partialsOf_of_unreadable {files : FileTree} {p : Path} {f : Failure}
    (h : files.load p = .error f) (hf : f.isSystem = true) :
    (partialsOf files p).result = .ok [] := by
  simp only [partialsOf, h, hf, if_true]
  rfl

theorem partialsOf_of_document {files : FileTree} {p : Path} {n : Node} {qs : List Path}
    (hn : (documentOf files p).result = .ok n) (hq : partials p.parent n = .ok qs) :
    (partialsOf files p).result = .ok qs := by
  obtain ⟨source, hl⟩ := exists_load_of_documentOf hn
  rw [documentOf_of_load hl] at hn
  simp only [partialsOf, hl, Reporting.bind_of_ok _ hn]
  exact hq

/-- The files of a set can be read, and name the partials that they include, all of a second set. -/
def Traceable (files : FileTree) (S Q : Path → Prop) : Prop :=
  ∀ p, S p → p.IsReal → files.isFile p = true → ∃ n, (documentOf files p).result = .ok n ∧
    n.NamesFiles ∧ ∀ file ∈ n.walk.filterMap included?, ∃ q, place p.parent file = .ok q ∧ Q q

variable {files : FileTree} {S Q : Path → Prop}

theorem Traceable.partialsOf (h : Traceable files S Q) {p : Path} (hs : S p) (hp : p.IsReal)
    (hf : files.isFile p = true) :
    ∃ qs, (partialsOf files p).result = .ok qs ∧ ∀ q ∈ qs, Q q := by
  obtain ⟨n, hn, -, hincluded⟩ := h p hs hp hf
  obtain ⟨qs, hq⟩ := exists_partials fun file hfile => (hincluded file hfile).imp fun _ h => h.1
  refine ⟨qs, partialsOf_of_document hn hq, fun q hm => ?_⟩
  obtain ⟨file, hfile, rfl⟩ := (mem_partials hq q).1 hm
  obtain ⟨q, hplace, hq⟩ := hincluded file hfile
  rwa [← (place_eq_ok_iff.1 hplace).2]

/-- References lead from a file of a traceable set only to paths of the second set. -/
theorem Traceable.reached (h : Traceable files S Q) (hsub : ∀ q, Q q → S q) {t q : Path} (hs : S t)
    (ht : t.IsReal) (hway : TransGen (Refers files) t q) : Q q := by
  have hstep : ∀ p q, S p → p.IsReal → Refers files p q → Q q := by
    intro p q hs hp hpq
    obtain ⟨qs, hqs, hall⟩ := h.partialsOf hs hp hpq.isFile
    obtain ⟨qs', hqs', hq⟩ := hpq
    obtain rfl := Except.ok.inj (hqs.symm.trans hqs')
    exact hall q hq
  induction hway with
  | single hpq => exact hstep _ _ hs ht hpq
  | tail hway hpq ih => exact hstep _ _ (hsub _ ih) (isReal_of_transGen hway) hpq

theorem Traceable.reachable (h : Traceable files S Q) (hsub : ∀ q, Q q → S q) {t : Path} (hs : S t)
    (ht : t.IsReal) (hf : files.isFile t = true) :
    ∃ found, (reachable files t).result = .ok found ∧ ∀ q ∈ found, Q q := by
  have hscans : ∀ p, p = t ∨ TransGen (Refers files) t p ∧ files.isFile p = true →
      ∃ qs, (Dependency.partialsOf files p).result = .ok qs := by
    rintro p (rfl | ⟨hp, hfile⟩)
    · exact (h.partialsOf hs ht hf).imp fun _ hqs => hqs.1
    · have hp' := hsub p (h.reached hsub hs ht hp)
      exact (h.partialsOf hp' (isReal_of_transGen hp) hfile).imp fun _ hqs => hqs.1
  obtain ⟨found, hfound⟩ := exists_reachable hscans
  exact ⟨found, hfound, fun q hq => h.reached hsub hs ht ((mem_reachable hfound q).1 hq)⟩

theorem Traceable.closed (h : Traceable files S Q) (hsub : ∀ q, Q q → S q) : Closed files S := by
  intro p n hs hp hn s hl
  obtain ⟨m, hm, hnames, hincluded⟩ := h p hs hp (isFile_of_documentOf hn)
  obtain rfl := Except.ok.inj (hm.symm.trans hn)
  obtain ⟨file, hfile, rfl⟩ := included_of_lookups m hnames hl
  obtain ⟨q, hplace, hq⟩ := hincluded file hfile
  rw [← (place_eq_ok_iff.1 hplace).2]
  exact hsub q hq

/-! ## The map -/

namespace Map

theorem get_add (m : Map) (p t q : Path) :
    (m.add p t).get q = if q = p then addPath (m.get p) t else m.get q := by
  induction m with
  | nil =>
    rw [add, get, lookup_cons_eq]
    split <;> rfl
  | cons e m ih =>
    obtain ⟨r, ts⟩ := e
    unfold get at ih ⊢
    rw [add]
    by_cases hr : r = p
    · subst hr
      rw [if_pos rfl, lookup_cons_eq, lookup_cons_eq, lookup_cons_eq, if_pos rfl]
      split <;> rfl
    · have hpr : p ≠ r := fun e => hr e.symm
      simp only [if_neg hr, lookup_cons_eq, if_neg hpr]
      by_cases hq : q = r
      · simp only [if_pos hq, if_neg fun e => hr (hq.symm.trans e)]
      · simp only [if_neg hq, ih]

theorem mem_get_add {m : Map} {p t q u : Path} :
    u ∈ (m.add p t).get q ↔ u ∈ m.get q ∨ q = p ∧ u = t := by
  rw [get_add]
  by_cases hq : q = p
  · subst hq
    simp [mem_addPath]
  · simp [hq]

theorem mem_get_foldl_add {m : Map} {ps : List Path} {t q u : Path} :
    u ∈ (ps.foldl (fun m p => m.add p t) m).get q ↔ u ∈ m.get q ∨ q ∈ ps ∧ u = t := by
  induction ps generalizing m with
  | nil => simp
  | cons p ps ih =>
    rw [List.foldl_cons, ih, mem_get_add, List.mem_cons]
    tauto

/-- Each key is there once, and holds some values, each of them once. -/
structure IsTidy (m : Map) : Prop where
  keys : (m.map Prod.fst).Nodup
  values : ∀ p, (m.get p).Nodup
  mem_keys : ∀ p, p ∈ m.map Prod.fst ↔ ∃ t, t ∈ m.get p

theorem keys_add (m : Map) (p t : Path) :
    (m.add p t).map Prod.fst = addPath (m.map Prod.fst) p := by
  induction m with
  | nil => rfl
  | cons e m ih =>
    obtain ⟨r, ts⟩ := e
    rw [add]
    by_cases hr : r = p
    · subst hr
      simp [addPath]
    · rw [if_neg hr, List.map_cons, ih]
      by_cases hm : p ∈ m.map Prod.fst <;> simp [addPath, hm, Ne.symm hr]

theorem isTidy_nil : IsTidy [] where
  keys := List.nodup_nil
  values _ := List.nodup_nil
  mem_keys _ := by simp [get]

theorem IsTidy.add {m : Map} (h : m.IsTidy) (p t : Path) : (m.add p t).IsTidy where
  keys := keys_add m p t ▸ nodup_addPath h.keys p
  values q := by
    rw [get_add]
    split
    · exact nodup_addPath (h.values p) t
    · exact h.values q
  mem_keys q := by
    simp only [keys_add, mem_addPath, h.mem_keys, mem_get_add, exists_or, exists_and_left,
      exists_eq, and_true]

theorem IsTidy.foldl_add {m : Map} (h : m.IsTidy) (ps : List Path) (t : Path) :
    (ps.foldl (fun m p => m.add p t) m).IsTidy := by
  induction ps generalizing m with
  | nil => exact h
  | cons p ps ih => exact ih (h.add p t)

end Map

theorem addTemplate_ok {m m' : Map} {t : Path} (h : (addTemplate files m t).result = .ok m') :
    ∃ found, (reachable files t.real).result = .ok found ∧
      m' = found.foldl (fun m p => m.add p t.real) m := by
  unfold addTemplate at h
  dsimp only at h
  cases hr : (reachable files t.real).result with
  | error f =>
    rw [Reporting.bind_of_error _ hr] at h
    cases h
  | ok found =>
    rw [Reporting.bind_of_ok _ hr] at h
    exact ⟨found, rfl, (Except.ok.inj h).symm⟩

theorem foldlM_addTemplate_cons {t : Path} {ts : List Path} {start m : Map}
    (h : ((t :: ts).foldlM (addTemplate files) start).result = .ok m) :
    ∃ found, (reachable files t.real).result = .ok found ∧
      (ts.foldlM (addTemplate files) (found.foldl (fun m p => m.add p t.real) start)).result =
        .ok m := by
  rw [List.foldlM_cons] at h
  cases ha : (addTemplate files start t).result with
  | error f =>
    rw [Reporting.bind_of_error _ ha] at h
    cases h
  | ok next =>
    rw [Reporting.bind_of_ok _ ha] at h
    obtain ⟨found, hfound, rfl⟩ := addTemplate_ok ha
    exact ⟨found, hfound, h⟩

/-- The map gives for each path the templates that it was found for. -/
theorem mem_ofTemplates {ts : List Path} {m : Map} (h : (ofTemplates files ts).result = .ok m)
    (q u : Path) : u ∈ m.get q ↔ ∃ t ∈ ts, t.real = u ∧
      ∃ found, (reachable files u).result = .ok found ∧ q ∈ found := by
  suffices hm : ∀ start : Map, (ts.foldlM (addTemplate files) start).result = .ok m →
      (u ∈ m.get q ↔ u ∈ start.get q ∨ ∃ t ∈ ts, t.real = u ∧
        ∃ found, (reachable files u).result = .ok found ∧ q ∈ found) by
    rw [hm [] h]
    simp [Map.get]
  clear h
  induction ts with
  | nil =>
    intro start h
    obtain rfl : start = m := Except.ok.inj h
    simp
  | cons t ts ih =>
    intro start h
    obtain ⟨found, hfound, h⟩ := foldlM_addTemplate_cons h
    rw [ih _ h, Map.mem_get_foldl_add, List.exists_mem_cons_iff, or_assoc]
    refine or_congr_right (or_congr_left ?_)
    constructor
    · rintro ⟨hq, rfl⟩
      exact ⟨rfl, found, hfound, hq⟩
    · rintro ⟨rfl, found', hfound', hq⟩
      obtain rfl := Except.ok.inj (hfound.symm.trans hfound')
      exact ⟨hq, rfl⟩

theorem isTidy_ofTemplates {ts : List Path} {m : Map} (h : (ofTemplates files ts).result = .ok m) :
    m.IsTidy := by
  suffices hm : ∀ start : Map, start.IsTidy →
      (ts.foldlM (addTemplate files) start).result = .ok m → m.IsTidy from hm [] Map.isTidy_nil h
  clear h
  induction ts with
  | nil =>
    intro start hs h
    obtain rfl : start = m := Except.ok.inj h
    exact hs
  | cons t ts ih =>
    intro start hs h
    obtain ⟨found, -, h⟩ := foldlM_addTemplate_cons h
    exact ih _ (hs.foldl_add found t.real) h

theorem exists_ofTemplates (ts : List Path)
    (hr : ∀ t ∈ ts, ∃ found, (reachable files t.real).result = .ok found) :
    ∃ m, (ofTemplates files ts).result = .ok m := by
  suffices h : ∀ m : Map, ∃ m', (ts.foldlM (addTemplate files) m).result = .ok m' from h []
  induction ts with
  | nil => exact fun m => ⟨m, rfl⟩
  | cons t ts ih =>
    rw [List.forall_mem_cons] at hr
    intro m
    obtain ⟨found, hfound⟩ := hr.1
    have ha : (addTemplate files m t).result =
        .ok (found.foldl (fun m p => m.add p t.real) m) := by
      unfold addTemplate
      dsimp only
      rw [Reporting.bind_of_ok _ hfound]
      rfl
    obtain ⟨m', hm'⟩ := ih hr.2 (found.foldl (fun m p => m.add p t.real) m)
    refine ⟨m', ?_⟩
    rw [List.foldlM_cons, Reporting.bind_of_ok _ ha]
    exact hm'

/-! ## Dependents -/

theorem mem_foldl_dependents {m : Map} {ps found : List Path} {t : Path} :
    t ∈ ps.foldl (fun found p => (m.get p.real).foldl addPath found) found ↔
      t ∈ found ∨ ∃ p ∈ ps, t ∈ m.get p.real := by
  induction ps generalizing found with
  | nil => simp
  | cons p ps ih => rw [List.foldl_cons, ih, mem_foldl_addPath, List.exists_mem_cons_iff, or_assoc]

theorem nodup_foldl_dependents {m : Map} {ps found : List Path} (h : found.Nodup) :
    (ps.foldl (fun found p => (m.get p.real).foldl addPath found) found).Nodup := by
  induction ps generalizing found with
  | nil => exact h
  | cons p ps ih => exact ih (nodup_foldl_addPath h _)

/-- The dependents of some paths are the templates that the map gives for any of them. -/
theorem exists_dependents (m : Map) {ps : List Path} (hn : ∀ p ∈ ps, p.hasNul = false) :
    ∃ found, dependents m ps = .ok found ∧ found.Nodup ∧
      ∀ t, t ∈ found ↔ ∃ p ∈ ps, t ∈ m.get p.real := by
  have hany : ps.any Path.hasNul = false := by simpa [List.any_eq_false] using hn
  refine ⟨_, by rw [dependents, hany]; rfl, nodup_foldl_dependents List.nodup_nil, fun t => ?_⟩
  rw [mem_foldl_dependents]
  simp

end DocPress.Dependency
