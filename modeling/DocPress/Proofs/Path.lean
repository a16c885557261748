import DocPress.FileTree

/-!
# Real paths

A path is real when it starts at the one root and has no double dots, so that
every path has one real form. What a path that can be followed leads to is what
its real form leads to, and names joined to a directory may be made real
before or after the directory.
-/

set_option autoImplicit false

namespace DocPress.Path

def walkName (done : List String) (name : String) : List String :=
  if name = ".." then done.dropLast else done ++ [name]

theorem normalParts_eq_foldl (parts : List String) :
    normalParts parts = parts.foldl walkName [] := rfl

theorem foldl_walkName_of_plain (done parts : List String) (h : ".." ∉ parts) :
    parts.foldl walkName done = done ++ parts := by
  induction parts generalizing done with
  | nil => simp
  | cons name parts ih =>
    simp only [List.mem_cons, not_or] at h
    rw [List.foldl_cons, ih _ h.2, walkName, if_neg (fun e => h.1 e.symm)]
    simp

theorem dotdot_not_mem_foldl_walkName (done parts : List String) (h : ".." ∉ done) :
    ".." ∉ parts.foldl walkName done := by
  induction parts generalizing done with
  | nil => exact h
  | cons name parts ih =>
    apply ih
    unfold walkName
    split
    · exact fun hm => h (List.dropLast_subset _ hm)
    · rename_i hn
      simp only [List.mem_append, List.mem_singleton, not_or]
      exact ⟨h, fun e => hn e.symm⟩

theorem normalParts_of_plain {parts : List String} (h : ".." ∉ parts) :
    normalParts parts = parts := by
  rw [normalParts_eq_foldl, foldl_walkName_of_plain _ _ h, List.nil_append]

theorem dotdot_not_mem_normalParts (parts : List String) : ".." ∉ normalParts parts :=
  dotdot_not_mem_foldl_walkName [] parts (by simp)

theorem normalParts_append (a b : List String) :
    normalParts (a ++ b) = b.foldl walkName (normalParts a) := by
  simp only [normalParts_eq_foldl, List.foldl_append]

/-- The first names of a path may be normalised before the rest is walked. -/
theorem normalParts_normalParts_append (a b : List String) :
    normalParts (normalParts a ++ b) = normalParts (a ++ b) := by
  rw [normalParts_append, normalParts_append, normalParts_of_plain (dotdot_not_mem_normalParts a)]

/-! ## The real form -/

theorem real_eq (p : Path) : p.real = ⟨.root, normalParts p.parts⟩ := by
  obtain ⟨anchor, parts⟩ := p
  cases anchor <;> rfl

theorem normal_parts (p : Path) : p.normal.parts = normalParts p.parts := by
  obtain ⟨anchor, parts⟩ := p
  cases anchor <;> rfl

@[simp] theorem real_anchor (p : Path) : p.real.anchor = .root := rfl

theorem real_parts (p : Path) : p.real.parts = normalParts p.parts := by rw [real_eq]

theorem dotdot_not_mem_real (p : Path) : ".." ∉ p.real.parts := by
  rw [real_parts]
  exact dotdot_not_mem_normalParts p.parts

def IsReal (p : Path) : Prop := p.anchor = .root ∧ ".." ∉ p.parts

instance (p : Path) : Decidable p.IsReal := inferInstanceAs (Decidable (_ ∧ _))

theorem isReal_real (p : Path) : p.real.IsReal := ⟨rfl, dotdot_not_mem_real p⟩

theorem IsReal.real_eq {p : Path} (h : p.IsReal) : p.real = p := by
  obtain ⟨anchor, parts⟩ := p
  rw [Path.real_eq, normalParts_of_plain h.2, ← h.1]

@[simp] theorem real_real (p : Path) : p.real.real = p.real := (isReal_real p).real_eq

theorem IsReal.normal_eq {p : Path} (h : p.IsReal) : p.normal = p := by
  obtain ⟨anchor, parts⟩ := p
  obtain ⟨ha, hp⟩ := h
  simp only at ha
  subst ha
  show (⟨.root, normalParts parts⟩ : Path) = _
  rw [normalParts_of_plain hp]

theorem normal_eq (p : Path) :
    p.normal = ⟨if p.anchor = .relative then .root else p.anchor, normalParts p.parts⟩ := by
  obtain ⟨anchor, parts⟩ := p
  cases anchor <;> rfl

theorem normal_normal (p : Path) : p.normal.normal = p.normal := by
  obtain ⟨anchor, parts⟩ := p
  rw [normal_eq, normal_eq]
  simp only [normalParts_of_plain (dotdot_not_mem_normalParts parts)]
  cases anchor <;> rfl

theorem normal_anchor (p : Path) : p.normal.anchor ≠ .relative := by
  obtain ⟨anchor, parts⟩ := p
  cases anchor <;> simp [normal_eq]

theorem IsReal.parent {p : Path} (h : p.IsReal) : p.parent.IsReal :=
  ⟨h.1, fun hm => h.2 (List.dropLast_subset _ hm)⟩

theorem IsReal.ext {p q : Path} (hp : p.IsReal) (hq : q.IsReal) (h : p.parts = q.parts) :
    p = q := by
  obtain ⟨pa, pp⟩ := p
  obtain ⟨qa, qp⟩ := q
  obtain ⟨rfl, -⟩ := hp
  obtain ⟨rfl, -⟩ := hq
  simp only at h
  rw [h]

theorem IsReal.eta {p : Path} (h : p.IsReal) : (⟨.root, p.parts⟩ : Path) = p := by
  rw [← h.1]

theorem append_eq (p q : Path) : p ++ q = join p q := rfl

/-- What stands beside a path is found from its real form, unless the path ends by walking up. -/
theorem real_parent_append (p q : Path) (h : p.parts.getLast? ≠ some "..") :
    (p.real.parent ++ q).real = (p.parent ++ q).real := by
  obtain ⟨qa, qp⟩ := q
  cases qa with
  | root => rfl
  | doubleRoot => rfl
  | relative =>
    simp only [real_eq, append_eq, join, parent]
    have hparts : (normalParts p.parts).dropLast = normalParts p.parts.dropLast := by
      rcases List.eq_nil_or_concat p.parts with hp | ⟨names, name, hp⟩
      · rw [hp]; rfl
      · have hn : name ≠ ".." := by
          intro e
          apply h
          rw [hp, e, List.concat_eq_append, List.getLast?_concat]
        rw [hp, List.concat_eq_append, normalParts_append, List.dropLast_concat]
        simp [walkName, hn]
    rw [hparts, normalParts_normalParts_append]

theorem foldl_walkName_subset (done names : List String) :
    names.foldl walkName done ⊆ done ++ names := by
  induction names generalizing done with
  | nil => simp
  | cons name names ih =>
    intro x hx
    have hx := ih _ hx
    unfold walkName at hx
    split at hx
    · rcases List.mem_append.1 hx with hx | hx
      · exact List.mem_append_left _ (List.dropLast_subset _ hx)
      · exact List.mem_append_right _ (List.mem_cons_of_mem _ hx)
    · simpa using hx

theorem hasNul_real {p : Path} (h : p.hasNul = false) : p.real.hasNul = false := by
  unfold hasNul at h ⊢
  rw [List.any_eq_false] at h ⊢
  intro x hx
  rw [real_parts, normalParts_eq_foldl] at hx
  exact h x (foldl_walkName_subset [] p.parts hx)

end DocPress.Path
