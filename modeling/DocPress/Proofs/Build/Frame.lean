import DocPress.Proofs.Build
import DocPress.Proofs.Orphans.Extent

/-!
# The frame of a build

A build first empties the places of orphans and of directories that held them,
then writes the generated files of the results that are no failures, with force
also the directories above them. Every place has one of these fates or stays as
it is; so nothing is new without force, and what is not generated never changes.
A result that is a failure stands for no change at all.
-/

set_option autoImplicit false

namespace DocPress

namespace Build

open FileTree DocPress.Task

def IsWritten (rs : List FileResult) (q : List String) : Prop :=
  ∃ r ∈ rs, r.isOk = true ∧ r.output.parts = q

def IsAboveWritten (rs : List FileResult) (q : List String) : Prop :=
  ∃ r ∈ rs, r.isOk = true ∧ q <+: r.output.parts.dropLast

/-- What renderings do at a place: nothing, or they write the generated file of a result there,
or, with force, make a directory where nothing was. -/
inductive Growth (force : Bool) (rs : List FileResult) (t u : FileTree) (q : List String) : Prop
  | kept : u.at? q = t.at? q → Growth force rs t u q
  | written (b : ByteArray) : IsWritten rs q → u.at? q = some (.file b) →
      t.at? q ≠ some .directory → (force = false → ∃ b, t.at? q = some (.file b)) →
      Growth force rs t u q
  | made : force = true → IsAboveWritten rs q → t.at? q = none → u.at? q = some .directory →
      Growth force rs t u q

/-- What a build does at a place: nothing, or what stood there is removed, or the generated file
of a result is written, or, with force, a directory is made where nothing was or is left. -/
inductive Fate (c : Config) (force : Bool) (report : Report) (t u : FileTree) (q : List String) :
    Prop
  | kept : u.at? q = t.at? q → Fate c force report t u q
  | removed : Orphans.IsEmptied c.output report.deleted t q → u.at? q = none →
      Fate c force report t u q
  | written (b : ByteArray) : IsWritten report.results q → u.at? q = some (.file b) →
      (force = false → ∃ b, t.at? q = some (.file b)) → Fate c force report t u q
  | made : force = true → IsAboveWritten report.results q →
      t.at? q = none ∨ Orphans.IsEmptied c.output report.deleted t q →
      u.at? q = some .directory → Fate c force report t u q

variable {c : Config} {force : Bool} {rs ss : List FileResult} {t u v : FileTree} {q : List String}

theorem IsWritten.mono (h : IsWritten rs q) (hsub : rs ⊆ ss) : IsWritten ss q :=
  let ⟨r, hr, h⟩ := h
  ⟨r, hsub hr, h⟩

theorem IsAboveWritten.mono (h : IsAboveWritten rs q) (hsub : rs ⊆ ss) : IsAboveWritten ss q :=
  let ⟨r, hr, h⟩ := h
  ⟨r, hsub hr, h⟩

theorem Growth.mono (h : Growth force rs t u q) (hsub : rs ⊆ ss) : Growth force ss t u q := by
  cases h with
  | kept he => exact .kept he
  | written b hw hu ht hsafe => exact .written b (hw.mono hsub) hu ht hsafe
  | made hf hw ht hu => exact .made hf (hw.mono hsub) ht hu

theorem Growth.trans (h : Growth force rs t u q) (h' : Growth force rs u v q) :
    Growth force rs t v q := by
  cases h with
  | kept he =>
    cases h' with
    | kept he' => exact .kept (he'.trans he)
    | written b hw hv hu hsafe => exact .written b hw hv (he ▸ hu) (he ▸ hsafe)
    | made hf hw hu hv => exact .made hf hw (he ▸ hu) hv
  | written b hw hu ht hsafe =>
    cases h' with
    | kept he' => exact .written b hw (he'.trans hu) ht hsafe
    | written b' hw' hv _ _ => exact .written b' hw' hv ht hsafe
    | made _ _ hn _ => cases hu.symm.trans hn
  | made hf hw ht hu =>
    cases h' with
    | kept he' => exact .made hf hw ht (he'.trans hu)
    | written _ _ _ hn _ => exact absurd hu hn
    | made _ _ hn _ => cases hu.symm.trans hn

/-! ## Renderings -/

variable {d : Disk} {template out : Path}

/-- Without force the directories of a generated file are there, as the file is. -/
theorem Rendered.grows {r : FileResult} (ho : out.IsReal) (hne : out.parts ≠ [])
    (h : Rendered force template out d r u) (q : List String) :
    Growth force [r] d.files u q := by
  by_cases hf : r.failure = none
  · obtain ⟨text, -, hput⟩ := h.ok hf
    have hok : r.isOk = true := by rw [FileResult.isOk, hf]; rfl
    have hpresent : force = false → ∃ b, d.files.at? out.parts = some (.file b) :=
      fun hforce => (isFile_iff_at? ho).1 (h.present hf hforce)
    by_cases hq : q = out.parts
    · subst hq
      obtain ⟨b, hb⟩ := (isFile_iff_at? ho).1 (isFile_of_load hput.load)
      exact .written b ⟨r, List.mem_singleton_self r, hok, by rw [h.output]⟩ hb hput.vacant hpresent
    · rcases hput.around q hq with he | ⟨hup, hn, hd⟩
      · exact .kept he
      · cases force with
        | true => exact .made rfl ⟨r, List.mem_singleton_self r, hok, by rwa [h.output]⟩ hn hd
        | false =>
          obtain ⟨b, hb⟩ := hpresent rfl
          have hparent := at?_dropLast hne (by rw [hb]; simp)
          obtain ⟨rest, hrest⟩ := hup
          by_cases hr : rest = []
          · rw [← hrest, hr, List.append_nil, hn] at hparent
            cases hparent
          · have habove := at?_of_append (a := q) hr (by rw [hrest, hparent]; simp)
            cases hn.symm.trans habove
  · exact .kept (by rw [h.failed hf])

/-- Renderings one after the other have one result each and change nothing but that. -/
theorem forEach_grows (force : Bool) (hc : c.Rooted) (ts : List Path)
    (hts : ∀ t ∈ ts, ∃ out, c.outputFor t = .ok out) :
    ∃ rs u, Yields (forEach (tryRenderFile c force) ts) d rs ⟨u, d.refused⟩ ∧
      rs.map FileResult.template = ts ∧ (∀ r ∈ rs, c.outputFor r.template = .ok r.output) ∧
      ∀ q, Growth force rs d.files u q := by
  induction ts generalizing d with
  | nil => exact ⟨[], d.files, yields_pure [] d, rfl, by simp, fun _ => .kept rfl⟩
  | cons t ts ih =>
    rw [List.forall_mem_cons] at hts
    obtain ⟨⟨out, hout⟩, hts⟩ := hts
    obtain ⟨ho, hne⟩ := isReal_output_of_ok hc hout
    obtain ⟨r, u, hy, hr⟩ := tryRenderFile_spec (d := d) force hc hout
    obtain ⟨rs, v, hys, hmap, houts, hgrow⟩ := ih (d := ⟨u, d.refused⟩) hts
    refine ⟨r :: rs, v, hy.forEach_cons hys, ?_, ?_, fun q => ?_⟩
    · rw [List.map_cons, hr.template, hmap]
    · rw [List.forall_mem_cons]
      exact ⟨by rw [hr.template, hr.output, hout], houts⟩
    · exact ((hr.grows ho hne q).mono (by simp)).trans
        ((hgrow q).mono (List.subset_cons_self r rs))

/-! ## The build -/

/-- Deleting orphans and then rendering gives each place one fate. -/
theorem fate_of_growth {report : Report}
    (h : u.at? q = t.at? q ∨ u.at? q = none ∧ Orphans.IsEmptied c.output report.deleted t q)
    (h' : Growth force report.results u v q) : Fate c force report t v q := by
  cases h' with
  | kept he' =>
    rcases h with he | ⟨hn, hempty⟩
    · exact .kept (he'.trans he)
    · exact .removed hempty (he'.trans hn)
  | written b hw hv _ hsafe =>
    refine .written b hw hv fun hforce => ?_
    obtain ⟨b', hb'⟩ := hsafe hforce
    rcases h with he | ⟨hn, -⟩
    · exact ⟨b', he ▸ hb'⟩
    · cases hn.symm.trans hb'
  | made hf hw hn hv =>
    refine .made hf hw ?_ hv
    rcases h with he | ⟨-, hempty⟩
    · exact Or.inl (he.symm.trans hn)
    · exact Or.inr hempty

theorem Fate.at?_eq_none {report : Report} (h : Fate c false report t u q) (hq : t.at? q = none) :
    u.at? q = none := by
  cases h with
  | kept he => rw [he, hq]
  | removed _ hu => exact hu
  | written _ _ _ hsafe =>
    obtain ⟨b, hb⟩ := hsafe rfl
    cases hq.symm.trans hb
  | made hf _ _ _ => cases hf

/-- A place that is not that of a generated file holds a file as it did. -/
theorem Fate.file_iff {report : Report} (h : Fate c force report t u q)
    (hout : ∀ r ∈ report.results, Discovery.IsGenerated c r.output ∧ r.output.IsReal)
    (hdeleted : ∀ p ∈ report.deleted, Discovery.IsGenerated c p ∧ p.IsReal)
    (hq : ¬Discovery.IsGenerated c ⟨.root, q⟩) (b : ByteArray) :
    u.at? q = some (.file b) ↔ t.at? q = some (.file b) := by
  have hempty : Orphans.IsEmptied c.output report.deleted t q → t.at? q = some .directory := by
    rintro (⟨p, hp, rfl⟩ | ⟨hd, -⟩)
    · obtain ⟨hg, hreal⟩ := hdeleted p hp
      exact absurd (hreal.eta.symm ▸ hg) hq
    · exact hd
  cases h with
  | kept he => rw [he]
  | removed he hu => simp [hu, hempty he]
  | written _ hw _ _ =>
    obtain ⟨r, hr, -, rfl⟩ := hw
    obtain ⟨hg, hreal⟩ := hout r hr
    exact absurd (hreal.eta.symm ▸ hg) hq
  | made _ _ hn hu =>
    rcases hn with hn | he
    · simp [hu, hn]
    · simp [hu, hempty he]

/-- A build of the templates that are found, or of any list of places of templates and partials,
has one result for each. At each place it does nothing, or removes an orphan it reports or a
directory strictly inside the output directory that held one, or writes the generated file of a
result that is no failure, or, with force, makes a directory above such a file. So without force
nothing is new, and at a place that is not that of a generated file any file stays and none is
added. Every single rendering has a result; if it is a failure, the disk is as it was. -/
theorem run_frame (c : Config) (force : Bool) (chosen : Option (List Path)) (d : Disk)
    (hc : c.Rooted) (hd : d.files.isProper = true)
    (hchosen : ∀ ts, chosen = some ts → ∀ t ∈ ts, c.IsSourcePlace t) :
    (∃ report, (run c force chosen d).result = .ok report ∧
      report.results.map FileResult.template = chosen.getD (Discovery.templates d.files c) ∧
      (∀ r ∈ report.results, c.outputFor r.template = .ok r.output) ∧
      (∀ p ∈ report.deleted,
        Orphans.IsOrphan c d.files p ∧ ∃ b, d.files.at? p.parts = some (.file b)) ∧
      ∀ q, Fate c force report d.files (run c force chosen d).disk.files q) ∧
    (force = false → ∀ q, d.files.at? q = none → (run c force chosen d).disk.files.at? q = none) ∧
    (∀ q b, ¬Discovery.IsGenerated c ⟨.root, q⟩ →
      ((run c force chosen d).disk.files.at? q = some (.file b) ↔
        d.files.at? q = some (.file b))) ∧
    ∀ t e, c.IsSourcePlace t → ∃ r, (tryRenderFile c force t e).result = .ok r ∧
      r.template = t ∧ c.outputFor t = .ok r.output ∧
      (r.isOk = false → (tryRenderFile c force t e).disk = e) := by
  obtain ⟨deleted, u, hclean, hu, hcleaned⟩ := Orphans.clean_cleans (d := d) hc hd
  obtain ⟨hemptied, hdeleted⟩ := Orphans.clean_emptied hc hd hclean
  have htemplates := Orphans.templates_of_cleaned hc hd hu hcleaned
  have htodo : ∀ t ∈ chosen.getD (Discovery.templates d.files c),
      ∃ out, c.outputFor t = .ok out := by
    intro t ht
    cases hcase : chosen with
    | none =>
      rw [hcase, Option.getD_none] at ht
      obtain ⟨out, hout⟩ := isPlaced_of_mem_templates hc hd ht
      exact ⟨out, hout.output⟩
    | some ts =>
      rw [hcase, Option.getD_some] at ht
      exact (hchosen ts hcase t ht).exists_outputFor hc
  obtain ⟨rs, v, hall, hmap, houts, hgrow⟩ :=
    forEach_grows (d := ⟨u, d.refused⟩) force hc _ htodo
  have hrun : Yields (run c force chosen) d ⟨rs, deleted⟩ ⟨v, d.refused⟩ := by
    refine hclean.bind ((yields_look _ _).bind ?_)
    rw [htemplates]
    exact (yields_noteIf _ _ _).bind (hall.bind (yields_pure _ _))
  have hfate : ∀ q, Fate c force ⟨rs, deleted⟩ d.files (run c force chosen d).disk.files q := by
    intro q
    rw [hrun.disk]
    exact fate_of_growth (hemptied q) (hgrow q)
  refine ⟨⟨⟨rs, deleted⟩, hrun.result, hmap, houts, hdeleted, hfate⟩, ?_, ?_, ?_⟩
  · intro hforce q hq
    subst hforce
    exact (hfate q).at?_eq_none hq
  · intro q b hq
    refine (hfate q).file_iff (fun r hr => ?_) (fun p hp => ?_) hq b
    · have hreal := Config.outputFor_real_of_ok hc (houts r hr)
      exact ⟨Config.isGenerated_of_outputFor (Path.isReal_real _) hreal,
        (isReal_output_of_ok hc (houts r hr)).1⟩
    · obtain ⟨⟨hg, -⟩, b, hb⟩ := hdeleted p hp
      exact ⟨hg, (Orphans.isLeaf_of_mem_generated hc hd
        ((Discovery.mem_generated hd hc.output).2 ⟨hg, b, hb⟩)).real⟩
  · intro t e ht
    obtain ⟨out, hout⟩ := ht.exists_outputFor hc
    obtain ⟨r, w, hy, hr⟩ := tryRenderFile_spec (d := e) force hc hout
    refine ⟨r, hy.result, hr.template, hr.output ▸ hout, fun hfail => ?_⟩
    have hne : r.failure ≠ none := by
      intro hn
      rw [FileResult.isOk, hn] at hfail
      cases hfail
    rw [hy.disk, hr.failed hne]

def mixedChoice : List Path :=
  [⟨.root, ["templates", "x", "..", "a.mdoc"]⟩, ⟨.root, ["templates", "p.p.mdoc"]⟩]

theorem run_frame_of_mixed :
    ∃ report, (run mixedConfig true (some mixedChoice) ⟨mixedFiles, []⟩).result = .ok report ∧
      report.results.map FileResult.template = mixedChoice ∧
      ∀ q, Fate mixedConfig true report mixedFiles
        (run mixedConfig true (some mixedChoice) ⟨mixedFiles, []⟩).disk.files q := by
  have hchosen : ∀ ts, some mixedChoice = some ts → ∀ t ∈ ts, mixedConfig.IsSourcePlace t := by
    intro ts hts t ht
    obtain rfl := Option.some.inj hts
    simp only [mixedChoice, List.mem_cons, List.not_mem_nil, or_false] at ht
    rcases ht with rfl | rfl
    · exact ⟨["a.mdoc"], by decide, by decide⟩
    · exact ⟨["p.p.mdoc"], by decide, by decide⟩
  obtain ⟨⟨report, hrun, htemplates, -, -, hfate⟩, -⟩ :=
    run_frame mixedConfig true (some mixedChoice) ⟨mixedFiles, []⟩
      ⟨by decide, by decide, by decide, by decide⟩ (by decide) hchosen
  exact ⟨report, hrun, htemplates, hfate⟩

end Build

end DocPress
