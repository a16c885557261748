import DocPress.Proofs.FileTree.Proper

/-!
# What tasks yield

A task that succeeds yields a value and leaves a disk behind; what it logs is
left aside. Tasks in sequence pass the disk on. Each of the changes to files is
told by what stands at each place afterwards.
-/

set_option autoImplicit false

namespace DocPress.Task

variable {α β : Type}

/-- A task, started on a disk, succeeds with a value and leaves another disk. -/
structure Yields (x : Task α) (d : Disk) (a : α) (e : Disk) : Prop where
  result : (x d).result = .ok a
  disk : (x d).disk = e

variable {x : Task α} {f : α → Task β} {d e g : Disk} {a a' : α} {b : β}

theorem Yields.bind (hx : Yields x d a e) (hf : Yields (f a) e b g) : Yields (x >>= f) d b g := by
  obtain ⟨hr, rfl⟩ := hx
  obtain ⟨hr', hd'⟩ := hf
  constructor
  · rw [bind_of_ok hr]
    exact hr'
  · rw [bind_of_ok hr]
    exact hd'

theorem Yields.of_bind (h : Yields (x >>= f) d b g) :
    ∃ a e, Yields x d a e ∧ Yields (f a) e b g := by
  obtain ⟨hr, hd⟩ := h
  cases hx : (x d).result with
  | error failure =>
    rw [bind_of_error hx] at hr
    cases hr
  | ok a =>
    rw [bind_of_ok hx] at hr hd
    exact ⟨a, (x d).disk, ⟨hx, rfl⟩, hr, hd⟩

theorem Yields.bind_result (hx : Yields x d a e) : ((x >>= f) d).result = (f a e).result := by
  rw [bind_of_ok hx.result, hx.disk]

theorem Yields.bind_disk (hx : Yields x d a e) : ((x >>= f) d).disk = (f a e).disk := by
  rw [bind_of_ok hx.result, hx.disk]

theorem Yields.unique (h : Yields x d a e) (h' : Yields x d a' g) : a = a' ∧ e = g :=
  ⟨Except.ok.inj (h.result.symm.trans h'.result), h.disk.symm.trans h'.disk⟩

theorem yields_pure (a : α) (d : Disk) : Yields (pure a) d a d := ⟨rfl, rfl⟩

theorem yields_look (f : FileTree → α) (d : Disk) : Yields (look f) d (f d.files) d := ⟨rfl, rfl⟩

theorem yields_note (n : Notice) (d : Disk) : Yields (note n) d () d := ⟨rfl, rfl⟩

theorem yields_noteIf (condition : Bool) (n : Notice) (d : Disk) :
    Yields (noteIf condition n) d () d := by
  cases condition
  · exact yields_pure () d
  · exact yields_note n d

theorem yields_ofExcept (a : α) (d : Disk) : Yields (ofExcept (.ok a)) d a d := ⟨rfl, rfl⟩

theorem yields_readOnly {f : FileTree → Reporting α} (h : (f d.files).result = .ok a) :
    Yields (readOnly f) d a d := ⟨h, rfl⟩

structure Fails (x : Task α) (d : Disk) (f : Failure) : Prop where
  result : (x d).result = .error f
  disk : (x d).disk = d

theorem Fails.bind {failure : Failure} (h : Fails x d failure) (f : α → Task β) :
    Fails (x >>= f) d failure := by
  constructor
  · rw [bind_of_error h.result]
  · rw [bind_of_error h.result]
    exact h.disk

theorem Yields.bind_fails {failure : Failure} (hx : Yields x d a d) (hf : Fails (f a) d failure) :
    Fails (x >>= f) d failure := by
  obtain ⟨hr, hd⟩ := hx
  obtain ⟨hr', hd'⟩ := hf
  constructor
  · rw [bind_of_ok hr, hd]
    exact hr'
  · rw [bind_of_ok hr, hd]
    exact hd'

theorem Yields.not_fails {failure : Failure} (hx : Yields x d a e) : ¬Fails x d failure :=
  fun h => nomatch hx.result.symm.trans h.result

theorem fails_fail (failure : Failure) (d : Disk) : Fails (fail failure : Task α) d failure :=
  ⟨rfl, rfl⟩

theorem fails_ofExcept (failure : Failure) (d : Disk) :
    Fails (ofExcept (.error failure) : Task α) d failure := ⟨rfl, rfl⟩

theorem fails_readOnly {f : FileTree → Reporting α} {failure : Failure}
    (h : (f d.files).result = .error failure) : Fails (readOnly f) d failure := ⟨h, rfl⟩

theorem Yields.attempt (h : Yields x d a e) : Yields x.attempt d (.ok a) e :=
  ⟨by rw [Task.attempt, h.result], h.disk⟩

theorem Fails.attempt {failure : Failure} (h : Fails x d failure) :
    Yields x.attempt d (.error failure) d :=
  ⟨by rw [Task.attempt, h.result], h.disk⟩

/-! ## One item after the other -/

section

variable {as as' : List α} {bs : List β} {failure : Failure}

theorem Yields.forEach_cons (ha : Yields (f a) d b e) (has : Yields (forEach f as) e bs g) :
    Yields (forEach f (a :: as)) d (b :: bs) g :=
  ha.bind (has.bind (yields_pure _ g))

theorem Yields.of_forEach_cons (h : Yields (forEach f (a :: as)) d bs g) :
    ∃ b bs' e, bs = b :: bs' ∧ Yields (f a) d b e ∧ Yields (forEach f as) e bs' g := by
  obtain ⟨b, e, hb, hrest⟩ := h.of_bind
  obtain ⟨bs', e', hbs, hpure⟩ := hrest.of_bind
  obtain ⟨rfl, rfl⟩ := hpure.unique (yields_pure _ _)
  exact ⟨b, bs', e, rfl, hb, hbs⟩

theorem Yields.of_forEach_append (h : Yields (forEach f (as ++ as')) d bs g) :
    ∃ bs₁ bs₂ e, bs = bs₁ ++ bs₂ ∧ Yields (forEach f as) d bs₁ e ∧
      Yields (forEach f as') e bs₂ g := by
  induction as generalizing d bs with
  | nil => exact ⟨[], bs, d, rfl, yields_pure [] d, h⟩
  | cons a as ih =>
    obtain ⟨b, bs, e, rfl, hb, hbs⟩ := Yields.of_forEach_cons h
    obtain ⟨bs₁, bs₂, e', rfl, hbs₁, hbs₂⟩ := ih hbs
    exact ⟨b :: bs₁, bs₂, e', rfl, hb.forEach_cons hbs₁, hbs₂⟩

theorem Yields.length_forEach (h : Yields (forEach f as) d bs e) : bs.length = as.length := by
  induction as generalizing d bs with
  | nil =>
    obtain ⟨rfl, -⟩ := h.unique (yields_pure _ _)
    rfl
  | cons a as ih =>
    obtain ⟨b, bs, e', rfl, -, hbs⟩ := h.of_forEach_cons
    rw [List.length_cons, List.length_cons, ih hbs]

/-- The first item whose task fails ends the run; what was done for those before it stays. -/
theorem Yields.forEach_stops (h : Yields (forEach f as) d bs e) (ha : Fails (f a) e failure)
    (as' : List α) :
    (forEach f (as ++ a :: as') d).result = .error failure ∧
      (forEach f (as ++ a :: as') d).disk = e := by
  induction as generalizing d bs with
  | nil =>
    obtain ⟨rfl, rfl⟩ := h.unique (yields_pure _ _)
    have hf : Fails (forEach f (a :: as')) e failure := ha.bind _
    exact ⟨hf.result, hf.disk⟩
  | cons a₀ as ih =>
    obtain ⟨b, bs, e', rfl, hb, hbs⟩ := h.of_forEach_cons
    obtain ⟨hr, hd⟩ := ih hbs
    rw [List.cons_append, forEach, hb.bind_result, hb.bind_disk, bind_of_error hr]
    exact ⟨rfl, hd⟩

end

/-! ## Changing files -/

theorem yields_makeDirectory {p : Path} (hp : p.IsReal)
    (h : d.files.at? p.parts = some .directory) :
    Yields (makeDirectory p) d () d := by
  obtain ⟨es, he⟩ := FileTree.access_of_directory hp h
  constructor
  · simp [makeDirectory, he]
  · simp [makeDirectory, he]

theorem yields_writeText {p : Path} (s : String) (hp : p.IsReal)
    (h : d.files.at? p.parts ≠ some .directory) :
    Yields (writeText p s) d ()
      { d with files := d.files.insert p.parts (.file s.toUTF8) } := by
  have hne : ∀ names es, d.files.access p ≠ .entry names (.directory es) := by
    intro names es ha
    obtain ⟨-, hf⟩ := (FileTree.access_eq_entry_iff hp names).1 ha
    exact h (FileTree.at?_eq_directory.2 ⟨es, hf⟩)
  have hw : writeText p s d =
      ⟨[], .ok (), { d with files := d.files.insert p.normal.parts (.file s.toUTF8) }⟩ := by
    unfold writeText
    split
    · rename_i names es ha
      exact absurd ha (hne names es)
    · rfl
  rw [hp.normal_eq] at hw
  exact ⟨by rw [hw], by rw [hw]⟩

theorem yields_delete {p : Path} (hp : p.IsReal) (h : d.refused.contains p = false) :
    Yields (delete p) d () { d with files := d.files.remove p.parts } := by
  have hd : delete p d = ⟨[], .ok (), { d with files := d.files.remove p.normal.parts }⟩ := by
    rw [delete, h, if_neg (by simp)]
  rw [hp.normal_eq] at hd
  exact ⟨by rw [hd], by rw [hd]⟩

theorem fails_delete {p : Path} (h : d.refused.contains p = true) :
    Fails (delete p) d .refused := by
  constructor <;> rw [delete, if_pos h]

/-- What follows an attempted deletion went on from a refusal, or with the entry gone. -/
theorem yields_of_delete {p : Path} {f : Except Failure Unit → Task α} (hp : p.IsReal)
    (h : Yields ((delete p).attempt >>= f) d a e) :
    (d.refused.contains p = true ∧ Yields (f (.error .refused)) d a e) ∨
      (d.refused.contains p = false ∧
        Yields (f (.ok ())) ⟨d.files.remove p.parts, d.refused⟩ a e) := by
  obtain ⟨r, d', hr, hf⟩ := h.of_bind
  cases hrefused : d.refused.contains p with
  | true =>
    obtain ⟨rfl, rfl⟩ := hr.unique (fails_delete hrefused).attempt
    exact .inl ⟨rfl, hf⟩
  | false =>
    obtain ⟨rfl, rfl⟩ := hr.unique (yields_delete hp hrefused).attempt
    exact .inr ⟨rfl, hf⟩

end DocPress.Task
