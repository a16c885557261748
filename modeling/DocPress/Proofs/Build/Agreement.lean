import DocPress.Proofs.Build.Safe

/-!
# Rendering some templates and rendering all

Rendering some templates and deleting orphans afterwards leaves the same tree as
deleting orphans and rendering all templates, as long as the generated files of
the other templates are fresh: what a safe rendering would make them.
-/

set_option autoImplicit false

namespace DocPress.Build

open FileTree DocPress.Task

/-- Whether a safe rendering of a template would succeed and change nothing. -/
def IsFresh (c : Config) (files : FileTree) (t : Path) : Prop :=
  ∃ out, IsPlaced c t out ∧
    CanRefresh (compileFile files t).result (files.at? out.parts) ∧
      (files.at? out.parts).map (refresh (compileFile files t).result) = files.at? out.parts

variable {c : Config} {t out : Path} {files : FileTree}

theorem isFresh_iff (hc : c.Rooted) (ht : IsPlaced c t out) (refused : List Path) :
    IsFresh c files t ↔ ∃ r e, Yields (renderFile c false t) ⟨files, refused⟩ r e ∧
      r.isOk = true ∧ ∀ q, e.files.at? q = files.at? q := by
  constructor
  · rintro ⟨out', ht', hcan, hsame⟩
    obtain ⟨r, u, hy, -, hok, hu⟩ :=
      renderFile_refreshes (d := ⟨files, refused⟩) hc ht' hcan
    refine ⟨r, ⟨u, refused⟩, hy, by rw [FileResult.isOk, hok]; rfl, fun q => ?_⟩
    rw [hu.at?]
    split
    · rename_i hq
      rw [hq, hsame]
    · rfl
  · rintro ⟨r, e, hy, hok, hsame⟩
    have hnone : r.failure = none := Option.isNone_iff_eq_none.1 hok
    by_cases hcan : CanRefresh (compileFile files t).result (files.at? out.parts)
    · obtain ⟨r', u, hy', -, -, hu⟩ :=
        renderFile_refreshes (d := ⟨files, refused⟩) hc ht hcan
      obtain ⟨-, rfl⟩ := hy.unique hy'
      have hout := hu.at? out.parts
      rw [if_pos rfl] at hout
      exact ⟨out, ht, hcan, hout.symm.trans (hsame out.parts)⟩
    · rcases renderFile_of_not (d := ⟨files, refused⟩) hc ht hcan with ⟨f, hf⟩ | ⟨r', hy', -, hfail⟩
      · have hr := hy.result.symm.trans hf.result
        cases hr
      · obtain ⟨rfl, -⟩ := hy.unique hy'
        exact absurd hnone hfail

theorem isFresh_of_text {text : String} {b : ByteArray} (ht : IsPlaced c t out)
    (hcompile : (compileFile files t).result = .ok text)
    (hb : files.at? out.parts = some (.file b)) (hread : readText? b = some text) :
    IsFresh c files t := by
  refine ⟨out, ht, ⟨text, b, text, hcompile, hb, hread⟩, ?_⟩
  rw [hcompile, hb, Option.map_some, refresh_file hread, if_pos rfl]

theorem not_isOrphan (hc : c.Rooted) (ht : IsPlaced c t out) (hf : files.isFile t = true) :
    ¬Orphans.IsOrphan c files out := by
  rintro ⟨-, ho⟩
  rw [Orphans.hasTemplate, Config.templateFor_of_outputFor hc ht.real ht.output] at ho
  have htrue : Except.ok (ε := Failure) (files.isFile t) = .ok false := ho
  rw [hf] at htrue
  cases htrue

theorem alikeOutside_of_cleaned {u : FileTree} (h : Orphans.Cleaned c files u) :
    AlikeOutside c files u :=
  fun _ hp hr => (h.content? hr fun ho => hp ho.1).symm

theorem isFresh_of_cleaned {base u v : FileTree} (hc : c.Rooted) (ht : IsPlaced c t out)
    (hsteady : Steady c base t) (hu : AlikeOutside c base u) (hv : Orphans.Cleaned c u v)
    (hf : base.isFile t = true) (hnot : ¬Discovery.IsGenerated c t)
    (hcan : CanRefresh (compileFile base t).result (base.at? out.parts))
    (hat : u.at? out.parts =
      (base.at? out.parts).map (refresh (compileFile base t).result)) : IsFresh c v t := by
  have hcompile : compileFile v t = compileFile base t :=
    hsteady v (hu.trans (alikeOutside_of_cleaned hv))
  have hfu : u.isFile t = true := by rw [← isFile_congr (hu t hnot ht.real), hf]
  have hcan' : CanRefresh (compileFile base t).result (u.at? out.parts) :=
    hat ▸ canRefresh_map hcan
  have hvat : v.at? out.parts = u.at? out.parts := by
    obtain ⟨text, b, old, -, hb, -⟩ := hcan'
    rw [hb]
    exact (hv.file_iff (ht.isReal_output hc).1 (not_isOrphan hc ht hfu) b).2 hb
  refine ⟨out, ht, by rw [hcompile, hvat]; exact hcan', ?_⟩
  rw [hcompile, hvat, hat]
  cases base.at? out.parts with
  | none => rfl
  | some k => simp only [Option.map_some, refresh_refresh]

/-- Trees of one shape hold the same at a place as the trees they were cleaned from, or both
hold nothing there. -/
theorem at?_of_cleaned_shape {t₁ t₂ u₁ u₂ : FileTree} (h₁ : Orphans.Cleaned c t₁ u₁)
    (h₂ : Orphans.Cleaned c t₂ u₂) (hs : u₁.shape = u₂.shape) (q : List String) :
    (u₁.at? q = none ∧ u₂.at? q = none) ∨ (u₁.at? q = t₁.at? q ∧ u₂.at? q = t₂.at? q) := by
  have hsq : (u₁.at? q).map Kind.shape = (u₂.at? q).map Kind.shape := by
    rw [← at?_shape, ← at?_shape, hs]
  have hnone : u₁.at? q = none ↔ u₂.at? q = none := by
    rw [← Option.map_eq_none_iff, hsq, Option.map_eq_none_iff]
  rcases h₁ q with he | ⟨hn, -⟩
  · rcases h₂ q with he' | ⟨hn', -⟩
    · exact Or.inr ⟨he, he'⟩
    · exact Or.inl ⟨hnone.2 hn', hn'⟩
  · exact Or.inl ⟨hn, hnone.1 hn⟩

/-- A run over some templates and a cleaning leave the tree of a cleaning and a run over all. -/
theorem at?_of_some_and_all {base u v u' v' : FileTree} {some_ all : List Path}
    (hsub : some_ ⊆ all) (hall : ∀ t ∈ all, ∃ out, IsPlaced c t out)
    (hfresh : ∀ t ∈ all, t ∉ some_ → IsFresh c base t) (hu : RefreshedAll c base some_ base u)
    (hv : Orphans.Cleaned c u v) (hu' : Orphans.Cleaned c base u')
    (hv' : RefreshedAll c base all u' v') (hs : v.shape = u'.shape) (q : List String) :
    v.at? q = v'.at? q := by
  by_cases hq : IsOutputOf c all ⟨.root, q⟩
  · obtain ⟨t, ht, ho⟩ := hq
    obtain ⟨out, hp⟩ := hall t ht
    obtain rfl := Except.ok.inj (hp.output.symm.trans ho)
    have hbase : u.at? q = (base.at? q).map (refresh (compileFile base t).result) := by
      by_cases hsome : t ∈ some_
      · exact hu.at?_output t hsome _ ho
      · obtain ⟨out', hp', -, hsame⟩ := hfresh t ht hsome
        obtain rfl := Except.ok.inj (hp'.output.symm.trans ho)
        rw [hsame, hu.at?_other]
        rintro ⟨s, hs, hos⟩
        obtain ⟨out'', hps⟩ := hall s (hsub hs)
        obtain rfl := Except.ok.inj (hps.output.symm.trans hos)
        exact hsome (Config.outputFor_inj hps.real hp.real hos ho ▸ hs)
    rw [hv'.at?_output t ht _ ho]
    rcases at?_of_cleaned_shape hv hu' hs q with ⟨hn, hn'⟩ | ⟨he, he'⟩
    · rw [hn, hn']
      rfl
    · rw [he, he', hbase]
  · rw [hv'.at?_other q hq]
    rcases at?_of_cleaned_shape hv hu' hs q with ⟨hn, hn'⟩ | ⟨he, he'⟩
    · rw [hn, hn']
    · rw [he, he', hu.at?_other q fun ⟨s, hm, ho⟩ => hq ⟨s, hsub hm, ho⟩]

end DocPress.Build
