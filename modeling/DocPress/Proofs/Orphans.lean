import DocPress.Orphans
import DocPress.Proofs.Naming
import DocPress.Proofs.Task

/-!
# What deleting orphans leaves

Deleting orphans never fails. It takes away generated files that have no
template and empty directories, and leaves everything else where it is; files
that the system refuses to delete only stay too. So no file that is not
generated, and no generated file of a template, is lost by it.
-/

set_option autoImplicit false

namespace DocPress

namespace FileTree

theorem at?_remove_leaf (t : FileTree) {names : List String} (hn : names ≠ [])
    (hl : ∀ rest, rest ≠ [] → t.at? (names ++ rest) = none) (q : List String) :
    (t.remove names).at? q = if q = names then none else t.at? q := by
  rw [at?_remove t hn]
  by_cases hp : names <+: q
  · obtain ⟨rest, rfl⟩ := hp
    rw [if_pos (List.prefix_append ..)]
    by_cases hr : rest = []
    · rw [hr, List.append_nil, if_pos rfl]
    · rw [if_neg (by simpa using hr), hl rest hr]
  · rw [if_neg hp, if_neg]
    rintro rfl
    exact hp (List.prefix_refl _)

theorem nothing_below_file {t : FileTree} {names : List String} {b : ByteArray}
    (h : t.at? names = some (.file b)) (rest : List String) (hr : rest ≠ []) :
    t.at? (names ++ rest) = none :=
  at?_append_of_not_directory hr (by rw [h]; simp)

end FileTree

namespace Orphans

open Discovery

def IsOrphan (c : Config) (t : FileTree) (p : Path) : Prop :=
  IsGenerated c p ∧ hasTemplate t c p = .ok false

/-- From one tree to another only orphans and directories have vanished. -/
def Cleaned (c : Config) (t u : FileTree) : Prop :=
  ∀ q, u.at? q = t.at? q ∨
    u.at? q = none ∧ (t.at? q = some .directory ∨ IsOrphan c t ⟨.root, q⟩)

variable {c : Config} {t u v : FileTree} {p : Path}

theorem Cleaned.refl (c : Config) (t : FileTree) : Cleaned c t t := fun _ => Or.inl rfl

/-- A file that is not an orphan stays with its content, and no file is new. -/
theorem Cleaned.file_iff (h : Cleaned c t u) (hp : p.anchor = .root) (ho : ¬IsOrphan c t p)
    (b : ByteArray) : u.at? p.parts = some (.file b) ↔ t.at? p.parts = some (.file b) := by
  obtain ⟨anchor, parts⟩ := p
  subst hp
  rcases h parts with he | ⟨hn, hd | hd⟩
  · rw [he]
  · simp [hn, hd]
  · exact absurd hd ho

theorem Cleaned.content? (h : Cleaned c t u) (hp : p.IsReal) (ho : ¬IsOrphan c t p) :
    u.content? p = t.content? p := by
  apply Option.ext
  intro b
  rw [FileTree.content?_eq_some_iff_at? hp, FileTree.content?_eq_some_iff_at? hp,
    h.file_iff hp.1 ho]

theorem hasTemplate_congr (hc : c.Rooted) (hp : p.IsReal) (h : Cleaned c t u) :
    hasTemplate u c p = hasTemplate t c p := by
  unfold hasTemplate
  cases hf : c.templateFor p with
  | error f => rfl
  | ok template =>
    have hreal := Config.isReal_of_templateFor hc hp hf
    have hcontent := h.content? hreal fun ho => Config.not_isGenerated_of_templateFor hp hf ho.1
    show Except.ok _ = Except.ok _
    rw [FileTree.isFile_congr hcontent]

theorem Cleaned.trans (hc : c.Rooted) (ht : t.isProper = true) (h : Cleaned c t u)
    (h' : Cleaned c u v) : Cleaned c t v := by
  intro q
  rcases h' q with he | ⟨hn, hd⟩
  · rw [he]
    exact h q
  · rcases h q with he | ⟨-, hd'⟩
    · by_cases hq : t.at? q = none
      · exact Or.inl (hn.trans hq.symm)
      · refine Or.inr ⟨hn, hd.imp (fun hd => he ▸ hd) ?_⟩
        rintro ⟨hg, ho⟩
        have hreal : Path.IsReal ⟨.root, q⟩ :=
          (Path.isReal_of_isEntryName rfl (FileTree.isEntryName_of_at? ht hq)).1
        exact ⟨hg, (hasTemplate_congr hc hreal h) ▸ ho⟩
    · exact Or.inr ⟨hn, hd'⟩

/-! ## Single deletions -/

theorem cleaned_remove {names : List String} (hn : names ≠ [])
    (hl : ∀ rest, rest ≠ [] → t.at? (names ++ rest) = none)
    (ho : t.at? names = some .directory ∨ IsOrphan c t ⟨.root, names⟩) :
    Cleaned c t (t.remove names) := by
  intro q
  rw [FileTree.at?_remove_leaf t hn hl]
  by_cases hq : q = names
  · rw [if_pos hq, hq]
    exact Or.inr ⟨rfl, ho⟩
  · rw [if_neg hq]
    exact Or.inl rfl

theorem at?_of_isEmptyDirectory (hp : p.IsReal) (h : isEmptyDirectory t p = true) :
    t.at? p.parts = some .directory ∧ ∀ rest, rest ≠ [] → t.at? (p.parts ++ rest) = none := by
  unfold isEmptyDirectory at h
  split at h
  · rename_i names ha
    obtain ⟨-, hf⟩ := (FileTree.access_eq_entry_iff hp names).1 ha
    refine ⟨FileTree.at?_eq_directory.2 ⟨[], hf⟩, ?_⟩
    intro rest hr
    obtain ⟨name, more, rfl⟩ := List.exists_cons_of_ne_nil hr
    rw [FileTree.at?, FileTree.find?_append, hf]
    rfl
  · cases h

def Cleans {α : Type} (c : Config) (x : Task α) (d : Disk) : Prop :=
  ∃ a u, Task.Yields x d a ⟨u, d.refused⟩ ∧ u.isProper = true ∧ Cleaned c d.files u

section

variable {α β : Type} {x : Task α} {f : α → Task β} {d : Disk}

theorem cleans_of_yields {a : α} (hd : d.files.isProper = true) (h : Task.Yields x d a d) :
    Cleans c x d := ⟨a, d.files, h, hd, .refl c d.files⟩

theorem Cleans.bind (hc : c.Rooted) (hd : d.files.isProper = true) (hx : Cleans c x d)
    (hf : ∀ a u, u.isProper = true → Cleaned c d.files u → Task.Yields x d a ⟨u, d.refused⟩ →
      Cleans c (f a) ⟨u, d.refused⟩) : Cleans c (x >>= f) d := by
  obtain ⟨a, u, hy, hu, hcu⟩ := hx
  obtain ⟨b, v, hy', hv, hcv⟩ := hf a u hu hcu hy
  exact ⟨b, v, hy.bind hy', hv, hcu.trans hc hd hcv⟩

theorem cleans_look_bind {g : FileTree → α} (h : Cleans c (f (g d.files)) d) :
    Cleans c (Task.look g >>= f) d := by
  obtain ⟨b, v, hy, hv⟩ := h
  exact ⟨b, v, (Task.yields_look g d).bind hy, hv⟩

end

variable {d : Disk}

theorem cleans_note (hd : d.files.isProper = true) (n : Notice) : Cleans c (Task.note n) d :=
  cleans_of_yields hd (Task.yields_note n d)

theorem cleans_pure {α : Type} (hd : d.files.isProper = true) (a : α) :
    Cleans c (pure a : Task α) d := cleans_of_yields hd (Task.yields_pure a d)

/-- Deleting what is empty and not needed, if the system lets it, and failing otherwise. -/
theorem cleans_delete {α : Type} (hc : c.Rooted) (hd : d.files.isProper = true) (hp : p.IsReal)
    (hn : p.parts ≠ []) (hl : ∀ rest, rest ≠ [] → d.files.at? (p.parts ++ rest) = none)
    (ho : d.files.at? p.parts = some .directory ∨ IsOrphan c d.files p)
    {f : Except Failure Unit → Task α} (herror : ∀ e, Cleans c (f (.error e)) d)
    (hok : ∀ u, u.isProper = true → Cleaned c d.files u → Cleans c (f (.ok ())) ⟨u, d.refused⟩) :
    Cleans c ((Task.delete p).attempt >>= f) d := by
  have ho' : d.files.at? p.parts = some .directory ∨ IsOrphan c d.files ⟨.root, p.parts⟩ := by
    rw [← hp.1]
    exact ho
  cases hr : d.refused.contains p with
  | true =>
    obtain ⟨a, u, hy, hu⟩ := herror .refused
    exact ⟨a, u, (Task.fails_delete hr).attempt.bind hy, hu⟩
  | false =>
    have hdel := Task.yields_delete hp hr
    have hu : (d.files.remove p.parts).isProper = true := FileTree.isProper_remove hd
    have hcu := cleaned_remove hn hl ho'
    obtain ⟨a, v, hy, hv, hcv⟩ := hok _ hu hcu
    exact ⟨a, v, hdel.attempt.bind hy, hv, hcu.trans hc hd hcv⟩

/-! ## Deleting orphans -/

theorem prune_cleans (hc : c.Rooted) {root : Path} (hr : root.IsReal) (names : List String)
    (hn : ".." ∉ names) (hd : d.files.isProper = true) : Cleans c (prune root names) d := by
  induction names generalizing d with
  | nil => exact cleans_pure hd ()
  | cons name names ih =>
    rw [prune]
    apply cleans_look_bind
    have hp : (root ++ ⟨.relative, (name :: names).reverse⟩ : Path).IsReal := by
      refine ⟨hr.1, ?_⟩
      rw [Path.append_relative]
      simp only [List.mem_append, List.mem_reverse, not_or]
      exact ⟨hr.2, hn⟩
    split
    · rename_i hempty
      obtain ⟨hat, hl⟩ := at?_of_isEmptyDirectory hp hempty
      apply cleans_delete hc hd hp (by simp) hl (Or.inl hat)
      · intro e
        exact cleans_note hd _
      · intro u hu _
        exact ih (fun hm => hn (List.mem_cons_of_mem _ hm)) hu
    · exact cleans_pure hd ()

structure IsLeaf (c : Config) (t : FileTree) (p : Path) : Prop where
  real : p.IsReal
  generated : IsGenerated c p
  below : ∀ rest, rest ≠ [] → t.at? (p.parts ++ rest) = none

theorem Cleaned.at?_eq_none (h : Cleaned c t u) {q : List String} (hq : t.at? q = none) :
    u.at? q = none := by
  rcases h q with he | ⟨hn, -⟩
  · rw [he, hq]
  · exact hn

theorem IsLeaf.of_cleaned (hl : IsLeaf c t p) (h : Cleaned c t u) : IsLeaf c u p :=
  ⟨hl.real, hl.generated, fun rest hr => h.at?_eq_none (hl.below rest hr)⟩

theorem parts_ne_nil (hg : IsGenerated c p) : p.parts ≠ [] := by
  obtain ⟨names, rfl, ho⟩ := hg
  intro he
  obtain rfl : names = [] := (List.append_eq_nil_iff.1 he).2
  exact absurd ho (by decide)

theorem exists_below_parent (hg : IsGenerated c p) :
    ∃ names, p.parent.below? c.output = some names ∧ p.parent.parts = c.output.parts ++ names := by
  obtain ⟨names, rfl, ho⟩ := hg
  obtain ⟨front, last, rfl⟩ := (List.eq_nil_or_concat names).resolve_left
    (by rintro rfl; exact absurd ho (by decide))
  have hparent : (c.output ++ (⟨.relative, front.concat last⟩ : Path)).parent =
      c.output ++ ⟨.relative, front⟩ := by
    rw [List.concat_eq_append, Path.append_relative, Path.parent, ← List.append_assoc,
      List.dropLast_concat]
    rfl
  exact ⟨front, Path.below?_eq_some_iff.2 hparent, by rw [hparent]; rfl⟩

theorem parent_below (hg : IsGenerated c p) (hp : p.IsReal) :
    ".." ∉ ((p.parent.below? c.output).getD []).reverse := by
  obtain ⟨names, hbelow, hparts⟩ := exists_below_parent hg
  rw [hbelow, Option.getD_some, List.mem_reverse]
  intro hm
  exact hp.parent.2 (by rw [hparts]; exact List.mem_append_right _ hm)

theorem cleanFile_cleans (hc : c.Rooted) (hd : d.files.isProper = true) (hp : IsLeaf c d.files p) :
    Cleans c (cleanFile c p) d := by
  obtain ⟨template, ht⟩ := Config.exists_templateFor hp.real hp.generated
  have hk : hasTemplate d.files c p = .ok (d.files.isFile template) := by
    rw [hasTemplate, ht]
    rfl
  unfold cleanFile
  apply cleans_look_bind
  rw [hk]
  apply Cleans.bind hc hd (cleans_of_yields hd (Task.yields_ofExcept _ d))
  intro kept u hu _ hy
  obtain ⟨rfl, hdisk⟩ := hy.unique (Task.yields_ofExcept _ d)
  rw [hdisk]
  split
  · exact cleans_pure hd false
  · rename_i hfile
    have ho : IsOrphan c d.files p := ⟨hp.generated, by rw [hk, Bool.eq_false_iff.2 hfile]⟩
    apply cleans_delete hc hd hp.real (parts_ne_nil hp.generated) hp.below (Or.inr ho)
    · intro e
      exact (cleans_note hd _).bind hc hd fun _ _ hu _ _ => cleans_pure hu false
    · intro u hu _
      refine (cleans_note hu _).bind hc hu fun _ v hv _ _ => ?_
      exact (prune_cleans hc hc.output _ (parent_below hp.generated hp.real) hv).bind hc hv
        fun _ _ hw _ _ => cleans_pure hw true

theorem cleanFiles_cleans (hc : c.Rooted) (ps : List Path) (hd : d.files.isProper = true)
    (hp : ∀ p ∈ ps, IsLeaf c d.files p) : Cleans c (cleanFiles c ps) d := by
  induction ps generalizing d with
  | nil => exact cleans_pure hd []
  | cons p ps ih =>
    rw [List.forall_mem_cons] at hp
    rw [cleanFiles]
    refine (cleanFile_cleans hc hd hp.1).bind hc hd fun deleted u hu hcu _ => ?_
    have hps : ∀ q ∈ ps, IsLeaf c u q := fun q hq => (hp.2 q hq).of_cleaned hcu
    exact (ih hu hps).bind hc hu fun more v hv _ _ => cleans_pure hv _

theorem isLeaf_of_mem_generated (hc : c.Rooted) (ht : t.isProper = true)
    (h : p ∈ generated t c.output) : IsLeaf c t p := by
  obtain ⟨hg, b, hb⟩ := (mem_generated ht hc.output).1 h
  have hanchor : p.anchor = .root := by
    obtain ⟨names, rfl, -⟩ := hg
    exact hc.output.1
  refine ⟨?_, hg, FileTree.nothing_below_file hb⟩
  exact (Path.isReal_of_isEntryName hanchor
    (FileTree.isEntryName_of_at? ht (by simp [hb]))).1

theorem clean_cleans (hc : c.Rooted) (hd : d.files.isProper = true) : Cleans c (clean c) d := by
  unfold clean
  apply cleans_look_bind
  exact cleanFiles_cleans hc _ hd fun p hp => isLeaf_of_mem_generated hc hd hp

theorem templates_of_cleaned (hc : c.Rooted) (ht : t.isProper = true) (hu : u.isProper = true)
    (h : Cleaned c t u) : templates u c = templates t c := by
  refine templates_congr hu ht hc.templates fun p => ?_
  rw [mem_templates hu hc.templates, mem_templates ht hc.templates]
  refine and_congr_right fun htemplate => exists_congr (h.file_iff ?_ fun ho => ?_)
  · obtain ⟨names, rfl, -⟩ := htemplate
    exact hc.templates.1
  · exact not_isGenerated_of_isTemplate htemplate ho.1

end Orphans

end DocPress
