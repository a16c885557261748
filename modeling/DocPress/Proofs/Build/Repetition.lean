import DocPress.Proofs.Build.Unchanged
import DocPress.Proofs.Path.Spelling

/-!
# Building again

A build leaves a proper tree with the same templates, and in each generated file the
text of its template as it is read back. So a second build right after a successful one
finds a generated file unchanged exactly if the template now compiles to what its first
text reads back as.
-/

set_option autoImplicit false

namespace DocPress

/-! ## The tree stays proper -/

namespace Config

theorem isEntryName_of_outputFor {c : Config} {t out : Path}
    (hc : ∀ name ∈ c.output.parts, Path.isEntryName name = true)
    (hr : t.IsReal) (ht : ∀ name ∈ t.parts, Path.isEntryName name = true)
    (h : c.outputFor t = .ok out) : ∀ name ∈ out.parts, Path.isEntryName name = true := by
  obtain ⟨names, stem, rfl, rfl⟩ := (outputFor_iff hr).1 h
  simp only [Path.append_relative, List.mem_append, List.mem_singleton] at ht ⊢
  rintro name (hm | hm | rfl)
  · exact hc name hm
  · exact ht name (.inr (.inl hm))
  · obtain ⟨-, -, -, hslash, hnul⟩ := Path.isEntryName_iff.1 (ht _ (.inr (.inr rfl)))
    have hlast : ∀ s : String, s.toList.getLast? ≠ some 'd' →
        String.ofList (stem ++ Naming.outputSuffix.toList) ≠ s := by
      rintro _ hs rfl
      rw [String.toList_ofList, List.getLast?_append,
        show Naming.outputSuffix.toList.getLast? = some 'd' by decide] at hs
      exact hs rfl
    rw [String.toList_ofList, List.mem_append, not_or] at hslash hnul
    rw [Path.isEntryName_iff, String.toList_ofList, List.mem_append, List.mem_append]
    exact ⟨hlast _ (by decide), hlast _ (by decide), hlast _ (by decide),
      not_or.2 ⟨hslash.1, by decide⟩, not_or.2 ⟨hnul.1, by decide⟩⟩

end Config

namespace Task

open FileTree

variable {α β : Type}

def KeepsProper (x : Task α) : Prop :=
  ∀ d : Disk, d.files.isProper = true → (x d).disk.files.isProper = true

variable {x : Task α} {f : α → Task β}

theorem KeepsProper.bind (hx : KeepsProper x)
    (hf : ∀ d a, (x d).result = .ok a → KeepsProper (f a)) : KeepsProper (x >>= f) := by
  intro d hd
  cases hr : (x d).result with
  | error failure =>
    rw [bind_of_error hr]
    exact hx d hd
  | ok a =>
    rw [bind_of_ok hr]
    exact hf d a hr _ (hx d hd)

theorem keepsProper_pure (a : α) : KeepsProper (pure a) := fun _ hd => hd

theorem keepsProper_note (n : Notice) : KeepsProper (note n) := fun _ hd => hd

theorem keepsProper_look (g : FileTree → α) : KeepsProper (look g) := fun _ hd => hd

theorem keepsProper_ofExcept (e : Except Failure α) : KeepsProper (ofExcept e) := fun _ hd => hd

theorem keepsProper_readOnly (g : FileTree → Reporting α) : KeepsProper (readOnly g) :=
  fun _ hd => hd

theorem KeepsProper.attempt (hx : KeepsProper x) : KeepsProper x.attempt := hx

theorem keepsProper_makeDirectory {p : Path} (hp : p.IsReal)
    (hn : ∀ name ∈ p.parts, Path.isEntryName name = true) : KeepsProper (makeDirectory p) := by
  intro d hd
  unfold makeDirectory
  split
  · exact hd
  · exact hd
  · exact hd
  · simp only [hp.normal_eq, ensureDirectory]
    split
    · exact hd
    · exact isProper_insert hd hn rfl

theorem keepsProper_writeText {p : Path} (s : String) (hp : p.IsReal)
    (hn : ∀ name ∈ p.parts, Path.isEntryName name = true) : KeepsProper (writeText p s) := by
  intro d hd
  unfold writeText
  split
  · exact hd
  · simp only [hp.normal_eq]
    exact isProper_insert hd hn rfl

theorem keepsProper_forEach (as : List α) (h : ∀ a ∈ as, KeepsProper (f a)) :
    KeepsProper (forEach f as) := by
  induction as with
  | nil => exact keepsProper_pure []
  | cons a as ih =>
    rw [List.forall_mem_cons] at h
    exact h.1.bind fun _ _ _ => (ih h.2).bind fun _ _ _ => keepsProper_pure _

end Task

namespace Build

open FileTree DocPress.Task

variable {c : Config} {force : Bool} {t out : Path} {d e : Disk} {text old : String}
  {ts before after : List Path} {rs : List FileResult}

theorem keepsProper_putOutput (text : String) (ho : out.IsReal)
    (hn : ∀ name ∈ out.parts, Path.isEntryName name = true) :
    KeepsProper (putOutput out text) := by
  refine (keepsProper_look _).bind fun _ there _ => ?_
  split
  · refine (keepsProper_look _).bind fun _ _ _ => (keepsProper_ofExcept _).bind fun _ _ _ => ?_
    split
    · exact keepsProper_pure _
    · exact (keepsProper_writeText text ho hn).bind fun _ _ _ => keepsProper_pure _
  · refine (keepsProper_makeDirectory ho.parent fun name hm => hn name ?_).bind fun _ _ _ =>
      (keepsProper_writeText text ho hn).bind fun _ _ _ => keepsProper_pure _
    exact List.dropLast_subset _ hm

theorem keepsProper_tryRenderFile (force : Bool) (ho : out.IsReal)
    (hn : ∀ name ∈ out.parts, Path.isEntryName name = true) (hout : c.outputFor t = .ok out) :
    KeepsProper (tryRenderFile c force t) := by
  have hrender : KeepsProper (renderFile c force t) := by
    refine (keepsProper_ofExcept _).bind fun _ out' hout' => (keepsProper_look _).bind
      fun _ present _ => ?_
    obtain rfl := Except.ok.inj (hout.symm.trans hout')
    dsimp only
    split
    · exact (keepsProper_note _).bind fun _ _ _ => keepsProper_pure _
    · exact (keepsProper_readOnly _).bind fun _ text _ => (keepsProper_putOutput text ho hn).bind
        fun _ _ _ => (keepsProper_note _).bind fun _ _ _ => keepsProper_pure _
  refine hrender.attempt.bind fun _ o _ => ?_
  split
  · exact keepsProper_pure _
  · exact (keepsProper_note _).bind fun _ _ _ => (keepsProper_ofExcept _).bind
      fun _ _ _ => keepsProper_pure _

/-! ## One template among others -/

theorem load_of_forEach (hc : c.Rooted) (hn : ts.Nodup) (hts : ∀ s ∈ ts, ∃ out, IsPlaced c s out)
    (ht : IsPlaced c t out) (hnot : t ∉ ts)
    (hy : Yields (forEach (tryRenderFile c force) ts) d rs e) (hl : d.files.load out = .ok old) :
    e.files.load out = .ok old := by
  obtain ⟨rs', u, hy', -, hbeside, -⟩ := renderAll_spec (d := d) force hc ts hn hts
  obtain ⟨-, rfl⟩ := hy.unique hy'
  have hother : ¬IsOutputOf c ts out := by
    rintro ⟨s, hs, ho⟩
    obtain ⟨out', hs'⟩ := hts s hs
    exact hnot (Config.outputFor_inj ht.real hs'.real ht.output ho ▸ hs)
  rw [← hl]
  exact (load_congr (hbeside.content? (ht.isReal_output hc) hother).symm (isFile_of_load hl)).symm

/-- After renderings that all succeed, a generated file reads as the text that its template
compiled to on the disk that it met. -/
theorem load_of_succeeded (hc : c.Rooted) (hn : (before ++ t :: after).Nodup)
    (hts : ∀ s ∈ before ++ t :: after, ∃ out, IsPlaced c s out) (ht : IsPlaced c t out)
    (hy : Yields (forEach (tryRenderFile c force) (before ++ t :: after)) d rs e)
    (hok : ∀ r ∈ rs, r.failure = none) :
    ∃ text, (compileFile (forEach (tryRenderFile c force) before d).disk.files t).result =
        .ok text ∧ e.files.load out = .ok (asRead text) := by
  obtain ⟨rs₁, rs₂, d₁, rfl, hbefore, hrest⟩ := hy.of_forEach_append
  obtain ⟨r, rs₂, d₂, rfl, hr, hafter⟩ := hrest.of_forEach_cons
  obtain ⟨r', u, hr', hrendered⟩ := tryRenderFile_spec (d := d₁) force hc ht.output
  obtain ⟨rfl, rfl⟩ := hr.unique hr'
  obtain ⟨text, hcompile, hput⟩ := hrendered.ok (hok r (by simp))
  obtain ⟨-, hn, -⟩ := List.nodup_append.1 hn
  rw [List.nodup_cons] at hn
  rw [hbefore.disk]
  exact ⟨text, hcompile, load_of_forEach hc hn.2
    (fun s hs => hts s (by simp [hs])) ht hn.1 hafter hput.load⟩

/-- A template whose generated file reads as a text before the first rendering. -/
theorem result_of_load (hc : c.Rooted) (hn : (before ++ t :: after).Nodup)
    (hts : ∀ s ∈ before ++ t :: after, ∃ out, IsPlaced c s out) (ht : IsPlaced c t out)
    (hy : Yields (forEach (tryRenderFile c force) (before ++ t :: after)) d rs e)
    (hl : d.files.load out = .ok old) :
    rs[before.length]? = some (resultOver t out old
      (compileFile (forEach (tryRenderFile c force) before d).disk.files t).result) := by
  obtain ⟨rs₁, rs₂, d₁, rfl, hbefore, hrest⟩ := hy.of_forEach_append
  obtain ⟨r, rs₂, d₂, rfl, hr, -⟩ := hrest.of_forEach_cons
  obtain ⟨hn, -, hdisjoint⟩ := List.nodup_append.1 hn
  have hmet : d₁.files.load out = .ok old :=
    load_of_forEach hc hn (fun s hs => hts s (by simp [hs])) ht
      (fun hm => hdisjoint t hm t (by simp) rfl) hbefore hl
  obtain ⟨u, hr'⟩ := tryRenderFile_of_load force hc ht.output hmet
  obtain ⟨rfl, -⟩ := hr.unique hr'
  rw [← hbefore.length_forEach, List.getElem?_append_right (Nat.le_refl _), Nat.sub_self,
    hbefore.disk]
  rfl

/-! ## One build after another -/

/-- The parts of a build of all templates: orphans are deleted, then what was found before that
is rendered, and nothing but generated files has changed. -/
structure Built (c : Config) (force : Bool) (d : Disk) (report : Report) (u v : FileTree) :
    Prop where
  cleaned : Orphans.Cleaned c d.files u
  meets : ∀ before, met c force d before =
    (forEach (tryRenderFile c force) before ⟨u, d.refused⟩).disk
  renders : Yields (forEach (tryRenderFile c force) (Discovery.templates d.files c))
    ⟨u, d.refused⟩ report.results ⟨v, d.refused⟩
  runs : Yields (run c force none) d report ⟨v, d.refused⟩
  alike : AlikeOutside c d.files v
  proper : v.isProper = true

theorem exists_built (force : Bool) (hc : c.Rooted)
    (hnames : ∀ name ∈ c.output.parts, Path.isEntryName name = true)
    (hd : d.files.isProper = true) :
    ∃ report u v, Built c force d report u v ∧
      report.results.map FileResult.template = Discovery.templates d.files c := by
  obtain ⟨deleted, u, hclean, hu, hcleaned⟩ := Orphans.clean_cleans (d := d) hc hd
  have htemplates := Orphans.templates_of_cleaned hc hd hu hcleaned
  have hplaced : ∀ t ∈ Discovery.templates d.files c, ∃ out, IsPlaced c t out :=
    fun t ht => isPlaced_of_mem_templates hc hd ht
  obtain ⟨rs, v, hall, hmap, hbeside, -⟩ := renderAll_spec (d := ⟨u, d.refused⟩) force hc _
    (Discovery.nodup_templates hd hc.templates) hplaced
  have hkeeps : KeepsProper (forEach (tryRenderFile c force) (Discovery.templates d.files c)) := by
    refine keepsProper_forEach _ fun t ht => ?_
    obtain ⟨out, hout⟩ := hplaced t ht
    have hentries := isEntryName_of_isFile hd hout.real
      (Discovery.isFile_of_mem_templates hc hd ht)
    exact keepsProper_tryRenderFile force (hout.isReal_output hc)
      (Config.isEntryName_of_outputFor hnames hout.real hentries hout.output) hout.output
  refine ⟨⟨rs, deleted⟩, u, v, ⟨hcleaned, fun before => ?_, hall, ?_, ?_, ?_⟩, hmap⟩
  · rw [met, hclean.disk]
  · exact yields_run hclean none (by rw [htemplates]; exact hall)
  · exact (alikeOutside_of_cleaned hcleaned).trans fun p hp hr =>
      ((hbeside.of_outputs hplaced).content? hr hp).symm
  · have hproper := hkeeps ⟨u, d.refused⟩ hu
    rwa [hall.disk] at hproper

/-- A template is found in each tree that differs in generated files only. -/
theorem mem_templates_of_alikeOutside {u v : FileTree} (hc : c.Rooted) (hu : u.isProper = true)
    (hv : v.isProper = true) (h : AlikeOutside c u v) (ht : t ∈ Discovery.templates u c) :
    t ∈ Discovery.templates v c := by
  obtain ⟨htemplate, b, hb⟩ := (Discovery.mem_templates hu hc.templates).1 ht
  have hreal := (Discovery.isReal_of_mem_templates hu hc.templates ht).1
  refine (Discovery.mem_templates hv hc.templates).2 ⟨htemplate, b, ?_⟩
  rwa [← content?_eq_some_iff_at? hreal,
    ← h t (Discovery.not_isGenerated_of_isTemplate htemplate) hreal, content?_eq_some_iff_at? hreal]

theorem templates_of_alikeOutside {u v : FileTree} (hc : c.Rooted) (hu : u.isProper = true)
    (hv : v.isProper = true) (h : AlikeOutside c u v) :
    Discovery.templates u c = Discovery.templates v c :=
  Discovery.templates_congr hu hv hc.templates fun _ =>
    ⟨mem_templates_of_alikeOutside hc hu hv h,
      mem_templates_of_alikeOutside hc hv hu fun p hp hr => (h p hp hr).symm⟩

/-- What a second build right after one that succeeds says of a template, by what the template
compiled to both times. -/
theorem again_of_built {first second : Bool} {report again : Report} {u v u' v' : FileTree}
    (hc : c.Rooted) (hd : d.files.isProper = true) (h : Built c first d report u v)
    (hok : ∀ r ∈ report.results, r.failure = none)
    (h' : Built c second ⟨v, d.refused⟩ again u' v')
    (hsplit : Discovery.templates d.files c = before ++ t :: after) :
    ∃ out text, c.outputFor t = .ok out ∧
      (compileFile (met c first d before).files t).result = .ok text ∧
      again.results[before.length]? = some (resultOver t out (asRead text)
        (compileFile (met c second ⟨v, d.refused⟩ before).files t).result) := by
  have hplaced : ∀ s ∈ before ++ t :: after, ∃ out, IsPlaced c s out :=
    fun s hs => isPlaced_of_mem_templates hc hd (hsplit ▸ hs)
  have hnodup := Discovery.nodup_templates hd hc.templates
  rw [hsplit] at hnodup
  obtain ⟨out, hout⟩ := hplaced t (by simp)
  have htemplates := templates_of_alikeOutside hc hd h.proper h.alike
  obtain ⟨text, hcompile, hload⟩ :=
    load_of_succeeded hc hnodup hplaced hout (hsplit ▸ h.renders) hok
  have hfile : v.isFile t = true := Discovery.isFile_of_mem_templates hc h.proper
    (by rw [← htemplates, hsplit]; simp)
  have hcleaned : u'.load out = .ok (asRead text) := by
    rw [← hload]
    exact (load_congr (h'.cleaned.content? (hout.isReal_output hc)
      (not_isOrphan hc hout hfile)).symm (isFile_of_load hload)).symm
  refine ⟨out, text, hout.output, by rw [h.meets]; exact hcompile, ?_⟩
  rw [h'.meets]
  exact result_of_load hc hnodup hplaced hout
    (by rw [← hsplit, htemplates]; exact h'.renders) hcleaned

/-- Where a template is rendered, only generated files have changed. -/
theorem Built.alike_met {report : Report} {u v : FileTree} (hc : c.Rooted)
    (hd : d.files.isProper = true) (h : Built c force d report u v)
    (hsplit : Discovery.templates d.files c = before ++ t :: after) :
    AlikeOutside c d.files (met c force d before).files := by
  have hplaced : ∀ s ∈ before, ∃ out, IsPlaced c s out :=
    fun s hs => isPlaced_of_mem_templates hc hd (by rw [hsplit]; simp [hs])
  have hnodup := Discovery.nodup_templates hd hc.templates
  rw [hsplit] at hnodup
  obtain ⟨rs, w, hy, -, hbeside, -⟩ := renderAll_spec (d := ⟨u, d.refused⟩) force hc before
    (List.nodup_append.1 hnodup).1 hplaced
  rw [h.meets, hy.disk]
  exact (alikeOutside_of_cleaned h.cleaned).trans fun p hp hr =>
    ((hbeside.of_outputs hplaced).content? hr hp).symm

theorem failure_of_isOk {report : Report} (h : report.isOk = true) :
    ∀ r ∈ report.results, r.failure = none := by
  intro r hr
  rw [Report.isOk, Report.failed, List.isEmpty_iff, List.filter_eq_nil_iff] at h
  exact Option.isNone_iff_eq_none.1 (by simpa [FileResult.isOk] using h r hr)

/-- Where no document includes a generated file, a second build finds each generated file
unchanged whose text has no carriage return. -/
theorem again_of_closed {first second : Bool} {report again : Report} {u v u' v' : FileTree}
    (hc : c.Rooted) (hd : d.files.isProper = true)
    (hclosed : Compilation.Closed d.files fun p => ¬Discovery.IsGenerated c p)
    (h : Built c first d report u v) (hok : ∀ r ∈ report.results, r.failure = none)
    (h' : Built c second ⟨v, d.refused⟩ again u' v')
    (hmap : again.results.map FileResult.template = Discovery.templates d.files c) :
    ∀ r ∈ again.results, r.isOk = true ∧ r.created = false ∧ ∃ text,
      (compileFile d.files r.template).result = .ok text ∧
        (r.unchanged = true ↔ '\r' ∉ text.toList) := by
  intro r hr
  obtain ⟨rs₁, rs₂, hrs⟩ := List.append_of_mem hr
  have hsplit : Discovery.templates d.files c = rs₁.map FileResult.template ++
      r.template :: rs₂.map FileResult.template := by
    rw [← hmap, hrs, List.map_append, List.map_cons]
  have hsteady : Steady c d.files r.template :=
    steady_of_closed hc hd hclosed (by rw [hsplit]; simp)
  obtain ⟨out, text, hout, hcompile, hagain⟩ := again_of_built hc hd h hok h' hsplit
  have hsplit' : Discovery.templates v c = rs₁.map FileResult.template ++
      r.template :: rs₂.map FileResult.template := by
    rw [← templates_of_alikeOutside hc hd h.proper h.alike, hsplit]
  rw [hsteady _ (h.alike_met hc hd hsplit)] at hcompile
  rw [hsteady _ (h.alike.trans (h'.alike_met hc h.proper hsplit')), hcompile, hrs,
    List.length_map, List.getElem?_append_right (Nat.le_refl _), Nat.sub_self] at hagain
  obtain hr' : r = resultOver r.template out (asRead text) (.ok text) := Option.some.inj hagain
  have hflag : r.unchanged = decide (asRead text = text) := by rw [hr', resultOver]
  refine ⟨by rw [hr']; rfl, by rw [hr']; rfl, text, hcompile, ?_⟩
  rw [hflag, decide_eq_true_iff, asRead_eq_self_iff]

/-- A rendering over a file fails where the bytes there encode no text; else it leaves them if
their text reads as the compiled one, and replaces them if not. So it agrees with one that always
writes exactly if the old text reads as the compiled one just when it is that text. A second
build right after a successful one then finds a generated file unchanged exactly if its template
now compiles to what its first text reads back as: if no document includes a generated file,
exactly if the text has no carriage return. -/
theorem unchanged_iff (c : Config) (hc : c.Rooted)
    (hnames : ∀ name ∈ c.output.parts, Path.isEntryName name = true) :
    (∀ force d t out text b, c.outputFor t = .ok out →
      (compileFile d.files t).result = .ok text → d.files.at? out.parts = some (.file b) →
      (String.fromUTF8? b = none → Fails (renderFile c force t) d (.undecodable out)) ∧
      (∀ old, String.fromUTF8? b = some old → ∃ u,
        Yields (renderFile c force t) d ⟨t, out, false, decide (asRead old = text), none⟩
          ⟨u, d.refused⟩ ∧
        ∀ q, u.at? q = if q = out.parts ∧ asRead old ≠ text then some (.file text.toUTF8)
          else d.files.at? q) ∧
      (WritesText c force t out text d ↔
        ∃ old, String.fromUTF8? b = some old ∧ (asRead old = text ↔ old = text))) ∧
    ∀ first second d report, d.files.isProper = true →
      (run c first none d).result = .ok report → report.isOk = true →
      ∃ again, (run c second none (run c first none d).disk).result = .ok again ∧
        again.results.map FileResult.template = Discovery.templates d.files c ∧
        (∀ before t after, Discovery.templates d.files c = before ++ t :: after →
          ∃ out text, c.outputFor t = .ok out ∧
            (compileFile (met c first d before).files t).result = .ok text ∧
            again.results[before.length]? = some (resultOver t out (asRead text)
              (compileFile (met c second (run c first none d).disk before).files t).result)) ∧
        (Compilation.Closed d.files (fun p => ¬Discovery.IsGenerated c p) →
          ∀ r ∈ again.results, r.isOk = true ∧ r.created = false ∧ ∃ text,
            (compileFile d.files r.template).result = .ok text ∧
              (r.unchanged = true ↔ '\r' ∉ text.toList)) := by
  refine ⟨fun force d t out text b hout hcompile hb => ?_,
    fun first second d report hd hrun hok => ?_⟩
  · obtain ⟨hundecodable, hdecodable⟩ := renderFile_of_bytes force hc hout hcompile hb
    exact ⟨hundecodable, hdecodable, writesText_iff force hc hout hcompile hb⟩
  · obtain ⟨report', u, v, h, -⟩ := exists_built first hc hnames hd
    obtain rfl := Except.ok.inj (hrun.symm.trans h.runs.result)
    obtain ⟨again, u', v', h', hmap⟩ := exists_built (d := ⟨v, d.refused⟩) second hc hnames h.proper
    rw [← templates_of_alikeOutside hc hd h.proper h.alike] at hmap
    rw [h.runs.disk]
    exact ⟨again, h'.runs.result, hmap,
      fun before t after => again_of_built hc hd h (failure_of_isOk hok) h',
      fun hclosed => again_of_closed hc hd hclosed h (failure_of_isOk hok) h' hmap⟩

def returningFiles : FileTree :=
  .directory [("templates", .directory [("a.mdoc", .file "a&#13;b\n".toUTF8)])]

def convertedFiles : FileTree :=
  .directory [("out", .directory [("a.g.md", .file "A\r\n".toUTF8)]),
    ("templates", .directory [("a.mdoc", .file "A\n".toUTF8)])]

def soleTemplate : Path := ⟨.root, ["templates", "a.mdoc"]⟩

def soleOutput : Path := ⟨.root, ["out", "a.g.md"]⟩

theorem compileFile_converted :
    (compileFile convertedFiles soleTemplate).result = .ok "A\n" :=
  eq_ok_of_toOption (by decide +kernel)

theorem compileFile_returning :
    (compileFile returningFiles soleTemplate).result = .ok "a\rb\n" :=
  eq_ok_of_toOption (by decide +kernel)

theorem templates_returning :
    Discovery.templates returningFiles mixedConfig = [soleTemplate] := by
  decide +kernel

theorem closed_returning : Compilation.Closed returningFiles fun p =>
    ¬Discovery.IsGenerated mixedConfig p := by
  refine Compilation.closed_of_files fun f hf => forall_ok_of_all ?_
  revert f
  decide +kernel

theorem exists_report_returning : ∃ report,
    (run mixedConfig true none ⟨returningFiles, []⟩).result = .ok report ∧
      report.isOk = true := by
  have h : ((run mixedConfig true none ⟨returningFiles, []⟩).result.toOption.any
      Report.isOk) = true := by decide +kernel
  obtain ⟨report, hreport, hok⟩ := (Option.any_eq_true _ _).1 h
  exact ⟨report, eq_ok_of_toOption hreport, hok⟩

theorem unchanged_iff_of_returns :
    (∃ u, Yields (renderFile mixedConfig false soleTemplate) ⟨convertedFiles, []⟩
      ⟨soleTemplate, soleOutput, false, true, none⟩ ⟨u, []⟩) ∧
    ∃ report again, (run mixedConfig true none ⟨returningFiles, []⟩).result = .ok report ∧
      (run mixedConfig false none (run mixedConfig true none ⟨returningFiles, []⟩).disk).result =
        .ok again ∧
      again.results.map FileResult.template = [soleTemplate] ∧
      ∀ r ∈ again.results, r.isOk = true ∧ r.unchanged = false := by
  obtain ⟨hsingle, hagain⟩ :=
    unchanged_iff mixedConfig rooted_mixedConfig (by decide)
  constructor
  · obtain ⟨-, hdecodable, -⟩ := hsingle false ⟨convertedFiles, []⟩ soleTemplate soleOutput "A\n"
      "A\r\n".toUTF8 (eq_ok_of_toOption (by decide)) compileFile_converted (by decide +kernel)
    obtain ⟨u, hy, -⟩ := hdecodable "A\r\n" (fromUTF8?_eq_some_iff.2 rfl)
    exact ⟨u, hy⟩
  · obtain ⟨report, hrun, hok⟩ := exists_report_returning
    obtain ⟨again, hrun', hmap, -, hclosed⟩ :=
      hagain true false ⟨returningFiles, []⟩ report (by decide) hrun hok
    rw [templates_returning] at hmap
    refine ⟨report, again, hrun, hrun', hmap, fun r hr => ?_⟩
    obtain ⟨hr', -, text, hcompile, hflag⟩ := hclosed closed_returning r hr
    obtain rfl : text = "a\rb\n" := by
      have htemplate : r.template ∈ [soleTemplate] := hmap ▸ List.mem_map.2 ⟨r, hr, rfl⟩
      rw [List.mem_singleton.1 htemplate] at hcompile
      exact Except.ok.inj (hcompile.symm.trans compileFile_returning)
    exact ⟨hr', Bool.eq_false_iff.2 fun h => hflag.1 h (by decide)⟩

/-- A generated file may be left with other bytes than its text has, and be written again by a
second build. -/
theorem not_writes_every_text :
    (¬∀ (c : Config) (force : Bool) (t out : Path) (text : String) (b : ByteArray) (d : Disk),
      c.Rooted → c.outputFor t = .ok out → (compileFile d.files t).result = .ok text →
      d.files.at? out.parts = some (.file b) → WritesText c force t out text d) ∧
    ¬∀ (c : Config) (d : Disk) (report : Report), c.Rooted → d.files.isProper = true →
      (run c true none d).result = .ok report → report.isOk = true →
      ∃ again, (run c true none (run c true none d).disk).result = .ok again ∧
        ∀ r ∈ again.results, r.isOk = true ∧ r.unchanged = true := by
  constructor
  · intro h
    have hout : mixedConfig.outputFor soleTemplate = .ok soleOutput :=
      eq_ok_of_toOption (by decide)
    have hb : convertedFiles.at? soleOutput.parts = some (.file "A\r\n".toUTF8) := by
      decide +kernel
    have hwrites := h mixedConfig true soleTemplate soleOutput "A\n" _ ⟨convertedFiles, []⟩
      rooted_mixedConfig hout compileFile_converted hb
    obtain ⟨old, hold, hiff⟩ :=
      (writesText_iff true rooted_mixedConfig hout compileFile_converted hb).1 hwrites
    rw [fromUTF8?_eq_some_iff.2 rfl] at hold
    obtain rfl := Option.some.inj hold
    exact absurd (hiff.1 (by decide)) (by decide)
  · intro h
    obtain ⟨report, hrun, hok⟩ := exists_report_returning
    obtain ⟨again, hagain, hall⟩ :=
      h mixedConfig ⟨returningFiles, []⟩ report rooted_mixedConfig (by decide) hrun hok
    have hwritten : ((run mixedConfig true none
        (run mixedConfig true none ⟨returningFiles, []⟩).disk).result.toOption.any fun again =>
          again.results.any fun r => !r.unchanged) = true := by
      decide +kernel
    obtain ⟨again', hagain', hany⟩ := (Option.any_eq_true _ _).1 hwritten
    obtain rfl := Except.ok.inj (hagain.symm.trans (eq_ok_of_toOption hagain'))
    obtain ⟨r, hr, hflag⟩ := List.any_eq_true.1 hany
    rw [(hall r hr).2] at hflag
    cases hflag

end Build

end DocPress
