import DocPress.Proofs.Dependency.Map

/-!
# The templates that a file is reached from

A dependency map gives for a path the templates from which one or more inclusions lead to it.
Whether a template depends on a file is decided by the other files alone: the way to a file
does not lead through it before it ends.
-/

set_option autoImplicit false

namespace DocPress.Dependency

open FileTree Compilation Relation

variable {files other : FileTree} {t p q u : Path}

/-! ## The map -/

theorem exists_reachable_of_ofTemplates {ts : List Path} {m : Map}
    (h : (ofTemplates files ts).result = .ok m) (ht : t ∈ ts) :
    ∃ found, (reachable files t.real).result = .ok found := by
  unfold ofTemplates at h
  generalize ([] : Map) = start at h
  induction ts generalizing start with
  | nil => cases ht
  | cons u ts ih =>
    obtain ⟨found, hfound, h⟩ := foldlM_addTemplate_cons h
    rcases List.mem_cons.1 ht with rfl | ht
    · exact ⟨found, hfound⟩
    · exact ih ht _ h

/-- The map gives for a path the templates from which it is reached. -/
theorem mem_get_iff {ts : List Path} {m : Map} (h : (ofTemplates files ts).result = .ok m) :
    t ∈ m.get q ↔ (∃ u ∈ ts, u.real = t) ∧ TransGen (Refers files) t q := by
  rw [mem_ofTemplates h]
  constructor
  · rintro ⟨u, hu, hut, found, hfound, hq⟩
    exact ⟨⟨u, hu, hut⟩, (mem_reachable hfound q).1 hq⟩
  · rintro ⟨⟨u, hu, rfl⟩, hq⟩
    obtain ⟨found, hfound⟩ := exists_reachable_of_ofTemplates h hu
    exact ⟨u, hu, rfl, found, hfound, (mem_reachable hfound q).2 hq⟩

/-! ## Rewriting one file -/

def AlikeBut (files other : FileTree) (u : Path) : Prop :=
  ∀ p, p.IsReal → p ≠ u → files.content? p = other.content? p

theorem Refers.congr (h : Refers files p q) (hp : files.content? p = other.content? p) :
    Refers other p q := by
  have hl := load_congr hp h.isFile
  obtain ⟨qs, hqs, hq⟩ := h
  refine ⟨qs, ?_, hq⟩
  rw [← hqs, partialsOf, partialsOf, hl]

/-- The way to a file from another one does not depend on what the file holds. The induction is
from the start of the way: at the first arrival it can stop. -/
theorem transGen_of_alikeBut (h : AlikeBut files other u) (ht : t.IsReal) (hne : t ≠ u)
    (hway : TransGen (Refers files) t u) : TransGen (Refers other) t u := by
  induction hway using TransGen.head_induction_on with
  | single hstep => exact .single (hstep.congr (h _ ht hne))
  | @head a p hstep _ ih =>
    have hstep' := hstep.congr (h _ ht hne)
    by_cases hp : p = u
    · subst hp
      exact .single hstep'
    · exact .head hstep' (ih hstep.isReal hp)

end DocPress.Dependency
