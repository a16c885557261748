import DocPress.Proofs.Build.Frame

/-!
# Rendering a list of paths

A build of listed paths renders one after the other, each on the disk that those
before it left. A rendering that fails becomes the result of its own path, as that
names the path's generated file; so the first path that has no place for one, as it
is not below the templates or not named like a template, ends the build without a
report, and what was rendered before it stays.
-/

set_option autoImplicit false

namespace DocPress

namespace Config

variable {c : Config} {t : Path}

/-- The places of templates and partials are all that have a place for a generated file. -/
theorem exists_outputFor_iff (hc : c.Rooted) :
    (∃ out, c.outputFor t = .ok out) ↔ c.IsSourcePlace t := by
  constructor
  · rintro ⟨out, ho⟩
    unfold outputFor Naming.counterpart at ho
    dsimp only at ho
    split at ho
    · cases ho
    · rename_i names hnames
      refine ⟨names, Path.below?_eq_some_iff.1 hnames, ?_⟩
      split at ho
      · cases ho
      · rename_i name hname
        exact (Naming.swapSuffix?_iff.1 hname).elim fun stem h => Naming.endsWith_iff.2 ⟨stem, h.1⟩
  · exact fun h => h.exists_outputFor hc

end Config

namespace Build

open DocPress.Task

variable {c : Config} {force : Bool} {t out : Path} {d e : Disk} {r : FileResult}

/-- What the report of a build holds for a path, by what rendering it alone yields. -/
inductive Records (c : Config) (force : Bool) (t : Path) (d : Disk) : FileResult → Prop
  | rendered {r : FileResult} : (renderFile c force t d).result = .ok r → Records c force t d r
  | failed {out : Path} {f : Failure} : (renderFile c force t d).result = .error f →
      c.outputFor t = .ok out → Records c force t d ⟨t, out, false, false, some f⟩

/-- The disk that a path of a build meets: orphans are deleted, the paths before it rendered. -/
def met (c : Config) (force : Bool) (d : Disk) (before : List Path) : Disk :=
  (forEach (tryRenderFile c force) before (Orphans.clean c d).disk).disk

/-- A path without a place for its generated file has no result, not even a failed one. -/
theorem tryRenderFile_fails (force : Bool) {f : Failure} (h : c.outputFor t = .error f) :
    Fails (tryRenderFile c force t) d f := by
  have hr : Fails (renderFile c force t) d f := by
    unfold renderFile
    rw [h]
    exact (fails_ofExcept f d).bind _
  refine hr.attempt.bind_fails ((yields_note _ d).bind_fails ?_)
  rw [h]
  exact (fails_ofExcept f d).bind _

/-- The result of a path is that of its own rendering. -/
theorem records_of_yields (h : Yields (tryRenderFile c force t) d r e) :
    Records c force t d r := by
  obtain ⟨o, e', ho, hrest⟩ := h.of_bind
  have hresult : o = (renderFile c force t d).result := (Except.ok.inj ho.result).symm
  cases o with
  | ok r' =>
    obtain ⟨rfl, -⟩ := hrest.unique (yields_pure _ _)
    exact .rendered hresult.symm
  | error f =>
    obtain ⟨-, e'', -, hrest⟩ := hrest.of_bind
    cases hout : c.outputFor t with
    | error f' =>
      rw [hout] at hrest
      exact absurd ((fails_ofExcept f' e'').bind _) hrest.not_fails
    | ok out =>
      rw [hout] at hrest
      obtain ⟨rfl, -⟩ := hrest.unique ((yields_ofExcept out e'').bind (yields_pure _ _))
      exact .failed hresult.symm hout

theorem run_of_error {deleted : List Path} {f : Failure}
    (hclean : Yields (Orphans.clean c) d deleted e) (ts : List Path)
    (h : (forEach (tryRenderFile c force) ts e).result = .error f) :
    (run c force (some ts) d).result = .error f ∧
      (run c force (some ts) d).disk = (forEach (tryRenderFile c force) ts e).disk := by
  unfold run
  rw [hclean.bind_result, hclean.bind_disk, (yields_look _ e).bind_result,
    (yields_look _ e).bind_disk, Option.getD_some, (yields_noteIf _ _ e).bind_result,
    (yields_noteIf _ _ e).bind_disk, bind_of_error h]
  exact ⟨rfl, rfl⟩

/-- A list with an item that fails a test splits at the first such item. -/
theorem exists_first_not {α : Type} {P : α → Prop} {as : List α} (h : ¬∀ a ∈ as, P a) :
    ∃ before a after, as = before ++ a :: after ∧ (∀ b ∈ before, P b) ∧ ¬P a := by
  induction as with
  | nil => exact absurd (by simp) h
  | cons a as ih =>
    by_cases ha : P a
    · obtain ⟨before, b, after, rfl, hbefore, hb⟩ :=
        ih fun has => h (List.forall_mem_cons.2 ⟨ha, has⟩)
      exact ⟨a :: before, b, after, rfl, List.forall_mem_cons.2 ⟨ha, hbefore⟩, hb⟩
    · exact ⟨[], a, as, rfl, by simp, ha⟩

/-- The first path without a place for its generated file ends a build. -/
theorem run_stops (force : Bool) (after : List Path) (hc : c.Rooted)
    (hd : d.files.isProper = true) {before : List Path}
    (hbefore : ∀ s ∈ before, c.IsSourcePlace s) (ht : ¬c.IsSourcePlace t) :
    ∃ f, c.outputFor t = .error f ∧
      (run c force (some (before ++ t :: after)) d).result = .error f ∧
      (run c force (some (before ++ t :: after)) d).disk = met c force d before := by
  obtain ⟨deleted, u, hclean, -⟩ := Orphans.clean_cleans (d := d) hc hd
  cases hout : c.outputFor t with
  | ok out => exact absurd ((Config.exists_outputFor_iff hc).1 ⟨out, hout⟩) ht
  | error f =>
    obtain ⟨rs, v, hrs, -⟩ := forEach_grows (d := ⟨u, d.refused⟩) force hc before
      fun s hs => (hbefore s hs).exists_outputFor hc
    obtain ⟨hresult, hdisk⟩ :=
      hrs.forEach_stops (tryRenderFile_fails force hout) after
    obtain ⟨hrun, hleft⟩ := run_of_error hclean (before ++ t :: after) hresult
    refine ⟨f, rfl, hrun, ?_⟩
    rw [hleft, hdisk, met, hclean.disk, hrs.disk]

/-- A build of listed paths yields a report if and only if each path leads below the templates
to the name of a template or a partial, whether or not anything is there. Then the report has
one result for each path, in order, and each holds what rendering that path alone yields on the
disk that it meets. Else the first other path ends the build with its failure, and there is no
report for those rendered before it, whose files stay changed. -/
theorem run_reports_iff (c : Config) (force : Bool) (ts : List Path) (d : Disk) (hc : c.Rooted)
    (hd : d.files.isProper = true) :
    ((∃ report, (run c force (some ts) d).result = .ok report) ↔ ∀ t ∈ ts, c.IsSourcePlace t) ∧
    (∀ report, (run c force (some ts) d).result = .ok report →
      report.results.map FileResult.template = ts ∧
      ∀ before t after, ts = before ++ t :: after →
        ∃ r, report.results[before.length]? = some r ∧ c.outputFor t = .ok r.output ∧
          Records c force t (met c force d before) r) ∧
    ∀ before t after, ts = before ++ t :: after → (∀ s ∈ before, c.IsSourcePlace s) →
      ¬c.IsSourcePlace t → ∃ f, c.outputFor t = .error f ∧
        (run c force (some ts) d).result = .error f ∧
        (run c force (some ts) d).disk = met c force d before := by
  have hall : (∃ report, (run c force (some ts) d).result = .ok report) →
      ∀ t ∈ ts, c.IsSourcePlace t := by
    rintro ⟨report, hreport⟩
    by_contra hnot
    obtain ⟨before, t, after, rfl, hbefore, ht⟩ := exists_first_not hnot
    obtain ⟨f, -, hstop, -⟩ := run_stops force after hc hd hbefore ht
    cases hreport.symm.trans hstop
  obtain ⟨deleted, u, hclean, -⟩ := Orphans.clean_cleans (d := d) hc hd
  have hruns : ∀ hts : ∀ t ∈ ts, c.IsSourcePlace t, ∃ rs e,
      Yields (forEach (tryRenderFile c force) ts) ⟨u, d.refused⟩ rs e ∧
        rs.map FileResult.template = ts ∧ Yields (run c force (some ts)) d ⟨rs, deleted⟩ e := by
    intro hts
    obtain ⟨rs, v, hrs, hmap, -⟩ := forEach_grows (d := ⟨u, d.refused⟩) force hc ts
      fun t ht => (hts t ht).exists_outputFor hc
    exact ⟨rs, _, hrs, hmap, yields_run hclean (some ts) hrs⟩
  refine ⟨⟨hall, fun hts => ?_⟩, fun report hreport => ?_, ?_⟩
  · obtain ⟨rs, e, -, -, hrun⟩ := hruns hts
    exact ⟨_, hrun.result⟩
  · have hts := hall ⟨report, hreport⟩
    obtain ⟨rs, e, hrs, hmap, hrun⟩ := hruns hts
    obtain rfl := Except.ok.inj (hrun.result.symm.trans hreport)
    refine ⟨hmap, ?_⟩
    rintro before t after rfl
    obtain ⟨rs₁, rs₂, e₁, rfl, hrs₁, hrs₂⟩ := hrs.of_forEach_append
    obtain ⟨r, rs₂, e₂, rfl, hr, -⟩ := hrs₂.of_forEach_cons
    have hmet : met c force d before = e₁ := by rw [met, hclean.disk, hrs₁.disk]
    obtain ⟨out, hout⟩ := (hts t (by simp)).exists_outputFor hc
    obtain ⟨r', v, hr', hrendered⟩ := tryRenderFile_spec (d := e₁) force hc hout
    obtain ⟨rfl, -⟩ := hr.unique hr'
    refine ⟨r, ?_, by rw [hout, hrendered.output], hmet ▸ records_of_yields hr⟩
    rw [← hrs₁.length_forEach, List.getElem?_append_right (Nat.le_refl _), Nat.sub_self]
    rfl
  · rintro before t after rfl hbefore ht
    exact run_stops force after hc hd hbefore ht

def strayChoice : List Path :=
  [⟨.root, ["templates", "b.mdoc"]⟩, ⟨.root, ["x.mdoc"]⟩, ⟨.root, ["templates", "p.p.mdoc"]⟩]

/-- The paths of `strayChoice` as they are met: one with a place, then one without. -/
theorem strayChoice_places :
    (∀ s ∈ [(⟨.root, ["templates", "b.mdoc"]⟩ : Path)], mixedConfig.IsSourcePlace s) ∧
      ¬mixedConfig.IsSourcePlace ⟨.root, ["x.mdoc"]⟩ := by
  constructor
  · simp only [List.mem_singleton, forall_eq]
    exact ⟨["b.mdoc"], by decide, by decide⟩
  · rintro ⟨names, hx, -⟩
    have hnone : Path.below? (Path.normal ⟨.root, ["x.mdoc"]⟩) mixedConfig.templates = none := by
      decide
    rw [Path.below?_eq_some_iff.2 hx] at hnone
    cases hnone

theorem run_reports_iff_of_stray :
    (¬∃ report, (run mixedConfig true (some strayChoice) ⟨mixedFiles, []⟩).result = .ok report) ∧
    ∃ f, mixedConfig.outputFor ⟨.root, ["x.mdoc"]⟩ = .error f ∧
      (run mixedConfig true (some strayChoice) ⟨mixedFiles, []⟩).result = .error f := by
  obtain ⟨hreport, -, hstop⟩ := run_reports_iff mixedConfig true strayChoice ⟨mixedFiles, []⟩
    rooted_mixedConfig (by decide)
  obtain ⟨f, hout, hresult, -⟩ := hstop _ _ _ rfl strayChoice_places.1 strayChoice_places.2
  exact ⟨fun h => strayChoice_places.2 (hreport.1 h _ (by simp [strayChoice])), f, hout, hresult⟩

/-- A path beside the templates takes the report from the templates that are listed with it. -/
theorem not_reports_stray :
    ¬∀ (c : Config) (force : Bool) (ts : List Path) (d : Disk), c.Rooted →
      d.files.isProper = true → ∃ report, (run c force (some ts) d).result = .ok report ∧
        report.results.map FileResult.template = ts := by
  intro h
  obtain ⟨report, hreport, -⟩ := h mixedConfig true strayChoice ⟨mixedFiles, []⟩
    rooted_mixedConfig (by decide)
  obtain ⟨f, -, hstop, -⟩ := run_stops (d := ⟨mixedFiles, []⟩) true
    [⟨.root, ["templates", "p.p.mdoc"]⟩] rooted_mixedConfig (by decide) strayChoice_places.1
    strayChoice_places.2
  cases hreport.symm.trans hstop

end Build

end DocPress
