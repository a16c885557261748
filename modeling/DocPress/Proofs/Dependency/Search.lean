import Mathlib.Logic.Relation
import DocPress.Proofs.Dependency

/-!
# Searching for partials

A search goes on from the files it has met to the paths that these refer to. One step reads the
next file and takes up what it refers to, in an order that is left open. A step uses up a file
that is still to be read or met, so every run of steps ends; what each step keeps gives at the
end that the paths found are those that one or more references lead to from the first file.
-/

set_option autoImplicit false

namespace DocPress.Dependency

open FileTree Compilation Relation

variable {files : FileTree} {t p q : Path}

/-! ## References -/

/-- A file includes a path, as far as the search can tell. -/
def Refers (files : FileTree) (p q : Path) : Prop :=
  ∃ qs, (partialsOf files p).result = .ok qs ∧ q ∈ qs

theorem Refers.isReal (h : Refers files p q) : q.IsReal := by
  obtain ⟨qs, hqs, hq⟩ := h
  exact isReal_of_partialsOf hqs hq

theorem Refers.isFile (h : Refers files p q) : files.isFile p = true := by
  obtain ⟨qs, hqs, hq⟩ := h
  rcases partialsOf_ok hqs with ⟨rfl, -⟩ | ⟨n, hn, -⟩
  · cases hq
  · exact isFile_of_documentOf hn

theorem isReal_of_transGen (h : TransGen (Refers files) t q) : q.IsReal := by
  obtain ⟨p, -, hpq⟩ := TransGen.tail'_iff.1 h
  exact hpq.isReal

def Scanned (files : FileTree) (found : List Path) (p : Path) : Prop :=
  ∃ qs, (partialsOf files p).result = .ok qs ∧ ∀ q ∈ qs, q ∈ found

theorem Scanned.mono {found found' : List Path} (h : Scanned files found p)
    (hsub : found ⊆ found') : Scanned files found' p := by
  obtain ⟨qs, hqs, hall⟩ := h
  exact ⟨qs, hqs, fun q hq => hsub (hall q hq)⟩

theorem Scanned.mem {found : List Path} (h : Scanned files found p) (hq : Refers files p q) :
    q ∈ found := by
  obtain ⟨qs, hqs, hall⟩ := h
  obtain ⟨qs', hqs', hm⟩ := hq
  obtain rfl := Except.ok.inj (hqs.symm.trans hqs')
  exact hall q hm

structure Seen (seen : List Path) : Prop where
  nodup : seen.Nodup
  real : ∀ p ∈ seen, p.IsReal

theorem Seen.append_fresh {seen qs : List Path} (h : Seen seen) (hq : Seen qs) :
    Seen (seen ++ qs.filter fun q => !seen.contains q) where
  nodup := by
    rw [List.nodup_append]
    refine ⟨h.nodup, hq.nodup.filter _, ?_⟩
    intro a ha b hb e
    have hb := (List.mem_filter.1 hb).2
    rw [← e] at hb
    simp [ha] at hb
  real := by
    intro q hm
    rcases List.mem_append.1 hm with hm | hm
    · exact h.real q hm
    · exact hq.real q (List.mem_filter.1 hm).1

theorem Seen.files_le {seen : List Path} (h : Seen seen) (files : FileTree) :
    (seen.filter files.isFile).length ≤ files.files.length := by
  refine Chain.length_le (S := fun _ => True) ⟨h.nodup.filter _, fun _ _ => trivial, ?_, ?_⟩
  · exact fun p hp => h.real p (List.mem_filter.1 hp).1
  · exact fun p hp => (List.mem_filter.1 hp).2

/-! ## Steps -/

/-- The paths found so far, and the files still to be read, the next one first. -/
structure Search where
  found : List Path
  pending : List Path

namespace Search

def start (t : Path) : Search := ⟨[], [t]⟩

/-- Take up some paths: those not found before are, and the files among them are to be read. -/
def meet (files : FileTree) (s : Search) (ps : List Path) : Search :=
  let fresh := ps.filter fun p => !s.found.contains p
  ⟨s.found ++ fresh, (fresh.filter files.isFile).reverse ++ s.pending⟩

def work (files : FileTree) (s : Search) : Nat :=
  s.pending.length + (files.files.length - (s.found.filter files.isFile).length)

/-- The next file is read, and what it refers to is taken up in some order. -/
inductive Step (files : FileTree) : Search → Search → Prop
  | scan {found pending : List Path} {p : Path} {qs order : List Path} :
      (partialsOf files p).result = .ok qs → order.Perm qs →
      Step files ⟨found, p :: pending⟩ (meet files ⟨found, pending⟩ order)

/-- A path that has to be read at some time: the first one, or a file that was found. -/
def IsSource (files : FileTree) (t : Path) (s : Search) (p : Path) : Prop :=
  p = t ∨ p ∈ s.found ∧ files.isFile p = true

structure Holds (files : FileTree) (t : Path) (s : Search) : Prop where
  seen : Seen s.found
  reached : ∀ p ∈ s.found, TransGen (Refers files) t p
  waiting : ∀ p ∈ s.pending, IsSource files t s p
  scanned : ∀ p, IsSource files t s p → p ∈ s.pending ∨ Scanned files s.found p

variable {s s' : Search}

theorem mem_meet_found {ps : List Path} : q ∈ (s.meet files ps).found ↔ q ∈ s.found ∨ q ∈ ps := by
  simp only [meet, List.mem_append, List.mem_filter, Bool.not_eq_true', List.contains_eq_mem,
    decide_eq_false_iff_not]
  tauto

theorem mem_meet_pending {ps : List Path} :
    q ∈ (s.meet files ps).pending ↔
      q ∈ ps ∧ files.isFile q = true ∧ q ∉ s.found ∨ q ∈ s.pending := by
  simp [meet]

theorem IsSource.reached (hs : Holds files t s) (h : IsSource files t s p) :
    ReflTransGen (Refers files) t p := by
  rcases h with rfl | ⟨hp, -⟩
  · exact .refl
  · exact (hs.reached p hp).to_reflTransGen

theorem Holds.start (files : FileTree) (t : Path) : Holds files t (start t) where
  seen := ⟨List.nodup_nil, by simp [Search.start]⟩
  reached := by simp [Search.start]
  waiting := by simp [Search.start, IsSource]
  scanned := by simp [Search.start, IsSource]

theorem Holds.step (h : Holds files t s) (hs : Step files s s') : Holds files t s' := by
  obtain @⟨found, pending, p, qs, order, hqs, horder⟩ := hs
  have hmem (q : Path) : q ∈ order ↔ q ∈ qs := horder.mem_iff
  have hsub : found ⊆ (meet files ⟨found, pending⟩ order).found :=
    fun q hq => mem_meet_found.2 (.inl hq)
  have hp : ReflTransGen (Refers files) t p := (h.waiting p (List.mem_cons_self ..)).reached h
  have hscanned : Scanned files (meet files ⟨found, pending⟩ order).found p :=
    ⟨qs, hqs, fun q hq => mem_meet_found.2 (.inr ((hmem q).2 hq))⟩
  refine ⟨h.seen.append_fresh ⟨?_, ?_⟩, ?_, ?_, ?_⟩
  · exact horder.nodup_iff.2 (nodup_of_partialsOf hqs)
  · exact fun q hq => isReal_of_partialsOf hqs ((hmem q).1 hq)
  · intro q hq
    rcases mem_meet_found.1 hq with hq | hq
    · exact h.reached q hq
    · exact .tail' hp ⟨qs, hqs, (hmem q).1 hq⟩
  · intro q hq
    rcases mem_meet_pending.1 hq with ⟨hq, hf, -⟩ | hq
    · exact .inr ⟨mem_meet_found.2 (.inr hq), hf⟩
    · exact (h.waiting q (List.mem_cons_of_mem _ hq)).imp_right fun hq => ⟨hsub hq.1, hq.2⟩
  · -- A source is new, and then pending, or it was one before: the file just read or another.
    intro q hq
    by_cases hold : IsSource files t ⟨found, p :: pending⟩ q
    · rcases h.scanned q hold with hq | hq
      · rcases List.mem_cons.1 hq with rfl | hq
        · exact .inr hscanned
        · exact .inl (mem_meet_pending.2 (.inr hq))
      · exact .inr (hq.mono hsub)
    · obtain ⟨hne, hno⟩ := not_or.1 hold
      obtain ⟨hq, hf⟩ := hq.resolve_left hne
      have hnew : q ∉ found := fun hm => hno ⟨hm, hf⟩
      exact .inl (mem_meet_pending.2 (.inl
        ⟨(mem_meet_found.1 hq).resolve_left hnew, hf, hnew⟩))

theorem Holds.run (h : Holds files t s) (hs : ReflTransGen (Step files) s s') :
    Holds files t s' := by
  induction hs with
  | refl => exact h
  | tail _ hstep ih => exact ih.step hstep

theorem Holds.mem_found (h : Holds files t s) (hs : s.pending = []) (q : Path) :
    q ∈ s.found ↔ TransGen (Refers files) t q := by
  have hscanned : ∀ p, IsSource files t s p → Scanned files s.found p := fun p hp =>
    (h.scanned p hp).resolve_left (by simp [hs])
  refine ⟨h.reached q, fun hq => ?_⟩
  induction hq with
  | single hp => exact (hscanned _ (.inl rfl)).mem hp
  | tail _ hr ih => exact (hscanned _ (.inr ⟨ih, hr.isFile⟩)).mem hr

/-! ## Every run ends -/

theorem Holds.work_step (h : Holds files t s) (hs : Step files s s') :
    s.work files = s'.work files + 1 := by
  have hle := (h.step hs).seen.files_le files
  obtain @⟨found, pending, p, qs, order, hqs, horder⟩ := hs
  simp only [work, meet, List.filter_append, List.length_append, List.length_reverse,
    List.length_cons] at hle ⊢
  omega

theorem Holds.acc (h : Holds files t s) : Acc (fun s' s => Step files s s') s := by
  induction hw : s.work files using Nat.strongRecOn generalizing s with
  | _ n ih =>
    refine ⟨_, fun s' hs => ?_⟩
    have hwork := h.work_step hs
    exact ih _ (by omega) (h.step hs) rfl

/-! ## The search with a bound is a run -/

theorem search_of_step {fuel : Nat} {qs : List Path}
    (h : (partialsOf files p).result = .ok qs) :
    (search files (fuel + 1) s.found (p :: s.pending)).result =
      (search files fuel (s.meet files qs).found (s.meet files qs).pending).result := by
  rw [search, Reporting.bind_of_ok _ h]
  rfl

theorem run_of_search {fuel : Nat} {found : List Path} (h : Holds files t s)
    (hfuel : s.work files ≤ fuel)
    (hs : (search files fuel s.found s.pending).result = .ok found) :
    ReflTransGen (Step files) s ⟨found, []⟩ := by
  induction fuel generalizing s with
  | zero =>
    obtain ⟨seen, pending⟩ := s
    obtain rfl : pending = [] := List.length_eq_zero_iff.1 (by simp only [work] at hfuel; omega)
    obtain rfl : seen = found := Except.ok.inj hs
    exact .refl
  | succ fuel ih =>
    obtain ⟨seen, pending⟩ := s
    cases pending with
    | nil =>
      obtain rfl : seen = found := Except.ok.inj hs
      exact .refl
    | cons p pending =>
      cases hqs : (partialsOf files p).result with
      | error f =>
        rw [search, Reporting.bind_of_error _ hqs] at hs
        cases hs
      | ok qs =>
        have hstep : Step files ⟨seen, p :: pending⟩ (meet files ⟨seen, pending⟩ qs) :=
          .scan hqs (.refl qs)
        have hwork := h.work_step hstep
        exact .head hstep (ih (h.step hstep) (by omega)
          ((search_of_step (s := ⟨seen, pending⟩) hqs).symm.trans hs))

theorem exists_search (fuel : Nat)
    (hgo : ∀ s', ReflTransGen (Step files) s s' → s'.pending ≠ [] → ∃ s'', Step files s' s'') :
    ∃ found, (search files fuel s.found s.pending).result = .ok found := by
  induction fuel generalizing s with
  | zero => exact ⟨s.found, rfl⟩
  | succ fuel ih =>
    obtain ⟨seen, pending⟩ := s
    cases pending with
    | nil => exact ⟨seen, rfl⟩
    | cons p pending =>
      obtain ⟨-, @⟨_, _, _, qs, _, hqs, -⟩⟩ := hgo _ .refl (List.cons_ne_nil _ _)
      have hstep : Step files ⟨seen, p :: pending⟩ (meet files ⟨seen, pending⟩ qs) :=
        .scan hqs (.refl qs)
      obtain ⟨found, hfound⟩ := ih fun s' hs' => hgo s' (.head hstep hs')
      exact ⟨found, (search_of_step (s := ⟨seen, pending⟩) hqs).trans hfound⟩

end Search

/-! ## The partials of a template -/

theorem run_of_reachable {found : List Path} (h : (reachable files t).result = .ok found) :
    ReflTransGen (Search.Step files) (.start t) ⟨found, []⟩ :=
  Search.run_of_search (.start files t) (by simp [Search.work, Search.start]; omega) h

/-- The partials of a template and of all files among them are found. -/
theorem reachable_scanned {found : List Path} (h : (reachable files t).result = .ok found) :
    Seen found ∧ Scanned files found t ∧
      ∀ q ∈ found, files.isFile q = true → Scanned files found q := by
  have hend := (Search.Holds.start files t).run (run_of_reachable h)
  have hscanned : ∀ p, Search.IsSource files t ⟨found, []⟩ p → Scanned files found p := fun p hp =>
    (hend.scanned p hp).resolve_left List.not_mem_nil
  exact ⟨hend.seen, hscanned t (.inl rfl), fun q hq hf => hscanned q (.inr ⟨hq, hf⟩)⟩

theorem mem_reachable {found : List Path} (h : (reachable files t).result = .ok found) (q : Path) :
    q ∈ found ↔ TransGen (Refers files) t q :=
  ((Search.Holds.start files t).run (run_of_reachable h)).mem_found rfl q

/-- A search can go on as long as it meets no document that cannot be scanned. -/
theorem exists_step {s : Search} (hrun : ReflTransGen (Search.Step files) (.start t) s)
    (hs : s.pending ≠ [])
    (h : ∀ p, p = t ∨ TransGen (Refers files) t p ∧ files.isFile p = true →
      ∃ qs, (partialsOf files p).result = .ok qs) : ∃ s', Search.Step files s s' := by
  have hholds := (Search.Holds.start files t).run hrun
  obtain ⟨found, pending⟩ := s
  cases pending with
  | nil => exact absurd rfl hs
  | cons p pending =>
    have hsource := hholds.waiting p (List.mem_cons_self ..)
    obtain ⟨qs, hqs⟩ := h p (hsource.imp_right fun hp => ⟨hholds.reached p hp.1, hp.2⟩)
    exact ⟨_, .scan hqs (.refl qs)⟩

theorem exists_reachable
    (h : ∀ p, p = t ∨ TransGen (Refers files) t p ∧ files.isFile p = true →
      ∃ qs, (partialsOf files p).result = .ok qs) :
    ∃ found, (reachable files t).result = .ok found :=
  Search.exists_search (s := .start t) _ fun _ hrun hs => exists_step hrun hs h

end DocPress.Dependency
