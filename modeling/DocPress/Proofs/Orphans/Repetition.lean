import DocPress.Proofs.Orphans.Extent

/-!
# Deleting orphans again

A file that has no template is gone once orphans were deleted, unless the system refused. So
deleting orphans again, when nothing else has changed, deletes only what it refused before and
does not refuse any more.
-/

set_option autoImplicit false

namespace DocPress

namespace Orphans

open Discovery DocPress.Task

variable {c : Config} {p : Path} {d e e' : Disk} {deleted deleted' refused : List Path}

theorem refused_of_cleanFile {removed : Bool} (hc : c.Rooted) (hd : d.files.isProper = true)
    (hp : IsLeaf c d.files p) (h : Yields (cleanFile c p) d removed e) :
    e.refused = d.refused ∧ e.files.isProper = true ∧ Cleaned c d.files e.files := by
  obtain ⟨removed', u, hy, hu, hcleaned⟩ := cleanFile_cleans hc hd hp
  obtain ⟨-, rfl⟩ := h.unique hy
  exact ⟨rfl, hu, hcleaned⟩

/-- An orphan that the system lets be deleted is gone afterwards. -/
theorem at?_of_cleanFile {removed : Bool} (hc : c.Rooted) (hd : d.files.isProper = true)
    (hp : IsLeaf c d.files p) (ho : IsOrphan c d.files p) (hr : d.refused.contains p = false)
    (h : Yields (cleanFile c p) d removed e) : e.files.at? p.parts = none := by
  rcases cleanFile_cases hp h with ⟨-, -, hrefused⟩ | ⟨-, -, -, hprune⟩
  · rw [hrefused ho] at hr
    cases hr
  · have hgone : (d.files.remove p.parts).at? p.parts = none := by
      rw [FileTree.at?_remove_leaf d.files (parts_ne_nil hp.generated) hp.below, if_pos rfl]
    obtain ⟨_, _, hy, -, hcleaned⟩ := prune_cleans (d := ⟨d.files.remove p.parts, d.refused⟩) hc
      hc.output _ (parent_below hp.generated hp.real) (FileTree.isProper_remove hd)
    obtain ⟨-, rfl⟩ := hprune.unique hy
    exact hcleaned.at?_eq_none hgone

/-- The deleted files are those that have no template and that the system lets be deleted. -/
theorem cleanFiles_deletes (hc : c.Rooted) (ps : List Path) (hd : d.files.isProper = true)
    (hp : ∀ p ∈ ps, IsLeaf c d.files p) (h : Yields (cleanFiles c ps) d deleted e) :
    (∀ p ∈ deleted, d.refused.contains p = false) ∧
      ∀ p ∈ ps, IsOrphan c d.files p → d.refused.contains p = false →
        e.files.at? p.parts = none := by
  induction ps generalizing d deleted with
  | nil =>
    obtain ⟨rfl, -⟩ := h.unique (yields_pure [] d)
    simp
  | cons p ps ih =>
    rw [List.forall_mem_cons] at hp
    rw [cleanFiles] at h
    obtain ⟨first, d', hfile, h⟩ := h.of_bind
    obtain ⟨more, e', hfiles, h⟩ := h.of_bind
    obtain ⟨rfl, rfl⟩ := h.unique (yields_pure _ e')
    obtain ⟨hrefused, hd', hcleaned⟩ := refused_of_cleanFile hc hd hp.1 hfile
    have hleaf : ∀ q ∈ ps, IsLeaf c d'.files q := fun q hq => (hp.2 q hq).of_cleaned hcleaned
    obtain ⟨hmore, hgone⟩ := ih hd' hleaf hfiles
    obtain ⟨_, _, hy, -, hrest⟩ := cleanFiles_cleans hc ps hd' hleaf
    obtain ⟨-, rfl⟩ := hfiles.unique hy
    rw [hrefused] at hmore hgone
    constructor
    · intro q hq
      rcases cleanFile_cases hp.1 hfile with ⟨rfl, -, -⟩ | ⟨rfl, -, hr, -⟩
      · exact hmore q hq
      · rcases List.mem_cons.1 hq with rfl | hq
        · exact hr
        · exact hmore q hq
    · rw [List.forall_mem_cons]
      constructor
      · exact fun ho hr => hrest.at?_eq_none (at?_of_cleanFile hc hd hp.1 ho hr hfile)
      · rintro q hq ⟨hg, ho⟩ hr
        rw [← hasTemplate_congr hc (hp.2 q hq).real hcleaned] at ho
        exact hgone q hq ⟨hg, ho⟩ hr

/-- Deleting orphans again deletes only what the system refused before and does not refuse now. -/
theorem clean_again (hc : c.Rooted) (hd : d.files.isProper = true)
    (h : Yields (clean c) d deleted e) (h' : Yields (clean c) ⟨e.files, refused⟩ deleted' e') :
    ∀ p ∈ deleted', p ∈ d.refused ∧ p ∉ refused := by
  obtain ⟨_, u, hy, hu, hcleaned⟩ := clean_cleans (d := d) hc hd
  obtain ⟨-, rfl⟩ := h.unique hy
  intro p hp
  obtain ⟨⟨hg, ho⟩, b, hb⟩ := (clean_emptied hc hu h').2 p hp
  unfold clean at h h'
  obtain ⟨_, _, hlook, h⟩ := h.of_bind
  obtain ⟨rfl, rfl⟩ := (yields_look _ d).unique hlook
  obtain ⟨_, _, hlook', h'⟩ := h'.of_bind
  obtain ⟨rfl, rfl⟩ := (yields_look _ _).unique hlook'
  obtain ⟨-, hgone⟩ :=
    cleanFiles_deletes hc _ hd (fun q hq => isLeaf_of_mem_generated hc hd hq) h
  obtain ⟨hallowed, -⟩ := cleanFiles_deletes (d := ⟨u, refused⟩) hc _ hu
    (fun q hq => isLeaf_of_mem_generated hc hu hq) h'
  constructor
  · by_contra hno
    have hb' : d.files.at? p.parts = some (.file b) := by
      rcases hcleaned p.parts with he | ⟨hn, -⟩
      · rw [← he, hb]
      · rw [hn] at hb
        cases hb
    have hmem : p ∈ generated d.files c.output := (mem_generated hd hc.output).2 ⟨hg, b, hb'⟩
    have hreal := (isLeaf_of_mem_generated hc hd hmem).real
    rw [hasTemplate_congr hc hreal hcleaned] at ho
    have hn := hgone p hmem ⟨hg, ho⟩ (by simpa using hno)
    rw [hb] at hn
    cases hn
  · simpa using hallowed p hp

end Orphans

end DocPress
