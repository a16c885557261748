import DocPress.Proofs.Orphans

/-!
# How far deleting orphans reaches

The list of deleted files tells all that deleting orphans changes. Each of them
was a generated file without a template from the start. What vanishes besides
them is directories strictly inside the output directory that held one of them.
-/

set_option autoImplicit false

namespace DocPress

namespace Orphans

open Discovery DocPress.Task

/-- Whether a place can be emptied when certain files are deleted: one of them stood there, or
a directory strictly inside the root directory that held one. -/
def IsEmptied (root : Path) (ps : List Path) (t : FileTree) (q : List String) : Prop :=
  (∃ p ∈ ps, p.parts = q) ∨
    t.at? q = some .directory ∧ root.parts <+: q ∧ q ≠ root.parts ∧ ∃ p ∈ ps, q <+: p.parts

def Emptied (root : Path) (ps : List Path) (t u : FileTree) : Prop :=
  ∀ q, u.at? q = t.at? q ∨ u.at? q = none ∧ IsEmptied root ps t q

variable {c : Config} {root p : Path} {ps qs : List Path} {t u v : FileTree} {d e : Disk}

theorem Emptied.refl (root : Path) (ps : List Path) (t : FileTree) : Emptied root ps t t :=
  fun _ => Or.inl rfl

theorem IsEmptied.mono {q : List String} (hsub : ps ⊆ qs) (h : IsEmptied root ps t q) :
    IsEmptied root qs t q := by
  rcases h with ⟨p, hp, he⟩ | ⟨hd, hin, hne, p, hp, hq⟩
  · exact Or.inl ⟨p, hsub hp, he⟩
  · exact Or.inr ⟨hd, hin, hne, p, hsub hp, hq⟩

theorem Emptied.mono (hsub : ps ⊆ qs) (h : Emptied root ps t u) : Emptied root qs t u :=
  fun q => (h q).imp id fun ⟨hn, he⟩ => ⟨hn, he.mono hsub⟩

theorem Emptied.trans (h : Emptied root ps t u) (h' : Emptied root ps u v) :
    Emptied root ps t v := by
  intro q
  rcases h' q with he | ⟨hn, hp | ⟨hd, hinside⟩⟩
  · rw [he]
    exact h q
  · exact Or.inr ⟨hn, Or.inl hp⟩
  · rcases h q with he | ⟨hn', -⟩
    · exact Or.inr ⟨hn, Or.inr ⟨he ▸ hd, hinside⟩⟩
    · rw [hn'] at hd
      cases hd

theorem Emptied.cleaned (h : Emptied root ps t u) (hps : ∀ p ∈ ps, p.IsReal ∧ IsOrphan c t p) :
    Cleaned c t u := by
  intro q
  rcases h q with he | ⟨hn, ⟨p, hp, rfl⟩ | ⟨hd, -⟩⟩
  · exact Or.inl he
  · obtain ⟨hreal, ho⟩ := hps p hp
    exact Or.inr ⟨hn, Or.inr (hreal.eta ▸ ho)⟩
  · exact Or.inr ⟨hn, Or.inl hd⟩

theorem emptied_remove {names : List String} (hn : names ≠ [])
    (hl : ∀ rest, rest ≠ [] → t.at? (names ++ rest) = none) (h : IsEmptied root ps t names) :
    Emptied root ps t (t.remove names) := by
  intro q
  rw [FileTree.at?_remove_leaf t hn hl]
  by_cases hq : q = names
  · rw [if_pos hq, hq]
    exact Or.inr ⟨rfl, h⟩
  · rw [if_neg hq]
    exact Or.inl rfl

/-! ## One file -/

/-- Directories are deleted on the way to the deleted file only. -/
theorem prune_emptied (hr : root.IsReal) (names : List String) (hn : ".." ∉ names)
    (hp : root.parts ++ names.reverse <+: p.parts) (h : Yields (prune root names) d () e) :
    Emptied root [p] d.files e.files := by
  induction names generalizing d with
  | nil =>
    obtain ⟨-, rfl⟩ := h.unique (yields_pure () d)
    exact .refl root [p] _
  | cons name names ih =>
    rw [prune] at h
    obtain ⟨empty, d', hlook, h⟩ := h.of_bind
    obtain ⟨rfl, rfl⟩ := (yields_look _ d).unique hlook
    have hreal : (root ++ ⟨.relative, (name :: names).reverse⟩ : Path).IsReal := by
      refine ⟨hr.1, ?_⟩
      rw [Path.append_relative]
      simp only [List.mem_append, List.mem_reverse, not_or]
      exact ⟨hr.2, hn⟩
    split at h
    · rename_i hempty
      obtain ⟨hat, hl⟩ := at?_of_isEmptyDirectory hreal hempty
      rcases yields_of_delete hreal h with ⟨-, h⟩ | ⟨-, h⟩
      · obtain ⟨-, rfl⟩ := h.unique (yields_note _ _)
        exact .refl root [p] _
      · have hplace : IsEmptied root [p] d.files
            (root ++ ⟨.relative, (name :: names).reverse⟩ : Path).parts :=
          Or.inr ⟨hat, List.prefix_append .., by simp [Path.append_relative], p,
            List.mem_singleton_self p, hp⟩
        have hup : root.parts ++ names.reverse <+: p.parts := by
          refine List.IsPrefix.trans ?_ hp
          rw [List.reverse_cons, ← List.append_assoc]
          exact List.prefix_append ..
        exact (emptied_remove (by simp [Path.append_relative]) hl hplace).trans
          (ih (fun hm => hn (List.mem_cons_of_mem _ hm)) hup h)
    · obtain ⟨-, rfl⟩ := h.unique (yields_pure () _)
      exact .refl root [p] _

/-- A generated file that has a template, or that the system refuses to delete, is passed over;
any other one is deleted, and the directories above it are pruned. -/
theorem cleanFile_cases {deleted : Bool} (hp : IsLeaf c d.files p)
    (h : Yields (cleanFile c p) d deleted e) :
    (deleted = false ∧ e = d ∧ (IsOrphan c d.files p → d.refused.contains p = true)) ∨
      (deleted = true ∧ IsOrphan c d.files p ∧ d.refused.contains p = false ∧
        Yields (prune c.output ((p.parent.below? c.output).getD []).reverse)
          ⟨d.files.remove p.parts, d.refused⟩ () e) := by
  obtain ⟨template, ht⟩ := Config.exists_templateFor hp.real hp.generated
  have hk : hasTemplate d.files c p = .ok (d.files.isFile template) := by
    rw [hasTemplate, ht]
    rfl
  unfold cleanFile at h
  obtain ⟨_, _, hlook, h⟩ := h.of_bind
  obtain ⟨rfl, rfl⟩ := (yields_look _ d).unique hlook
  rw [hk] at h
  obtain ⟨_, _, hkept, h⟩ := h.of_bind
  obtain ⟨rfl, rfl⟩ := (yields_ofExcept _ d).unique hkept
  split at h
  · rename_i hfile
    obtain ⟨rfl, rfl⟩ := h.unique (yields_pure false d)
    refine .inl ⟨rfl, rfl, fun ho => ?_⟩
    rw [IsOrphan, hk, hfile] at ho
    cases ho.2
  · rename_i hfile
    rcases yields_of_delete hp.real h with ⟨hrefused, h⟩ | ⟨hrefused, h⟩
    · obtain ⟨_, _, hnote, h⟩ := h.of_bind
      obtain ⟨-, rfl⟩ := (yields_note _ d).unique hnote
      obtain ⟨rfl, rfl⟩ := h.unique (yields_pure false d)
      exact .inl ⟨rfl, rfl, fun _ => hrefused⟩
    · obtain ⟨_, _, hnote, h⟩ := h.of_bind
      obtain ⟨-, rfl⟩ := (yields_note _ _).unique hnote
      obtain ⟨_, e', hprune, h⟩ := h.of_bind
      obtain ⟨rfl, rfl⟩ := h.unique (yields_pure true e')
      exact .inr ⟨rfl, ⟨hp.generated, by rw [hk, Bool.eq_false_iff.2 hfile]⟩, hrefused, hprune⟩

theorem cleanFile_emptied {deleted : Bool} (hc : c.Rooted) (hp : IsLeaf c d.files p)
    (h : Yields (cleanFile c p) d deleted e) :
    Emptied c.output (if deleted then [p] else []) d.files e.files ∧
      (deleted = true → IsOrphan c d.files p) := by
  rcases cleanFile_cases hp h with ⟨rfl, rfl, -⟩ | ⟨rfl, ho, -, hprune⟩
  · exact ⟨.refl c.output _ _, by simp⟩
  · refine ⟨?_, fun _ => ho⟩
    obtain ⟨names, hbelow, hparts⟩ := exists_below_parent hp.generated
    have hup : c.output.parts ++ ((p.parent.below? c.output).getD []).reverse.reverse <+:
        p.parts := by
      rw [hbelow, Option.getD_some, List.reverse_reverse, ← hparts]
      exact List.dropLast_prefix _
    rw [if_pos rfl]
    exact (emptied_remove (parts_ne_nil hp.generated) hp.below
      (Or.inl ⟨p, List.mem_singleton_self p, rfl⟩)).trans
        (prune_emptied hc.output _ (parent_below hp.generated hp.real) hup hprune)

/-! ## All files -/

theorem cleanFiles_emptied (hc : c.Rooted) (ps : List Path) {deleted : List Path}
    (hp : ∀ p ∈ ps, IsLeaf c d.files p) (h : Yields (cleanFiles c ps) d deleted e) :
    Emptied c.output deleted d.files e.files ∧
      ∀ p ∈ deleted, p ∈ ps ∧ IsOrphan c d.files p := by
  induction ps generalizing d deleted with
  | nil =>
    obtain ⟨rfl, rfl⟩ := h.unique (yields_pure [] d)
    exact ⟨.refl c.output [] _, by simp⟩
  | cons p ps ih =>
    rw [List.forall_mem_cons] at hp
    rw [cleanFiles] at h
    obtain ⟨first, d', hfile, h⟩ := h.of_bind
    obtain ⟨more, e', hfiles, h⟩ := h.of_bind
    obtain ⟨rfl, rfl⟩ := h.unique (yields_pure _ e')
    obtain ⟨hfirst, horphan⟩ := cleanFile_emptied hc hp.1 hfile
    have hcleaned : Cleaned c d.files d'.files := by
      refine hfirst.cleaned fun q hq => ?_
      cases first with
      | false => cases hq
      | true =>
        obtain rfl := List.mem_singleton.1 hq
        exact ⟨hp.1.real, horphan rfl⟩
    obtain ⟨hrest, hmore⟩ := ih (fun q hq => (hp.2 q hq).of_cleaned hcleaned) hfiles
    -- The template of a file that is deleted later was not there at the start either.
    have hmore' : ∀ q ∈ more, q ∈ p :: ps ∧ IsOrphan c d.files q := by
      intro q hq
      obtain ⟨hmem, hg, hk⟩ := hmore q hq
      rw [hasTemplate_congr hc (hp.2 q hmem).real hcleaned] at hk
      exact ⟨List.mem_cons_of_mem _ hmem, hg, hk⟩
    cases first with
    | false => exact ⟨(hfirst.mono (List.nil_subset _)).trans hrest, hmore'⟩
    | true =>
      refine ⟨(hfirst.mono (by simp)).trans (hrest.mono (List.subset_cons_self p more)), ?_⟩
      exact List.forall_mem_cons.2 ⟨⟨List.mem_cons_self .., horphan rfl⟩, hmore'⟩

/-- What deleting orphans yields are files that had no template from the start, and with them
directories strictly inside the output directory may go that held one. -/
theorem clean_emptied (hc : c.Rooted) (hd : d.files.isProper = true) {deleted : List Path}
    (h : Yields (clean c) d deleted e) :
    Emptied c.output deleted d.files e.files ∧
      ∀ p ∈ deleted, IsOrphan c d.files p ∧ ∃ b, d.files.at? p.parts = some (.file b) := by
  unfold clean at h
  obtain ⟨_, _, hlook, h⟩ := h.of_bind
  obtain ⟨rfl, rfl⟩ := (yields_look _ d).unique hlook
  obtain ⟨hemptied, horphans⟩ :=
    cleanFiles_emptied hc _ (fun p hp => isLeaf_of_mem_generated hc hd hp) h
  refine ⟨hemptied, fun p hp => ?_⟩
  obtain ⟨hmem, ho⟩ := horphans p hp
  exact ⟨ho, ((mem_generated hd hc.output).1 hmem).2⟩

end Orphans

end DocPress
