import DocPress.Build
import DocPress.Proofs.Compilation
import DocPress.Proofs.Evaluation
import DocPress.Proofs.Orphans

/-!
# What a build leaves

Rendering one template changes its own generated file and nothing else, apart
from directories that are made for it; a rendering that fails changes nothing.
Templates do not share generated files, and no document includes one, so every
template of a build is compiled as if it were the only one, and its text stays.
-/

set_option autoImplicit false

namespace DocPress

namespace Build

open FileTree DocPress.Task

/-- From one tree to another only certain paths have changed, and directories were made. -/
def Beside (changed : Path → Prop) (t u : FileTree) : Prop :=
  ∀ q, ¬changed ⟨.root, q⟩ → u.at? q = t.at? q ∨ t.at? q = none ∧ u.at? q = some .directory

section

variable {changed changed' : Path → Prop} {t u v : FileTree} {p : Path}

theorem Beside.refl (changed : Path → Prop) (t : FileTree) : Beside changed t t :=
  fun _ _ => Or.inl rfl

theorem Beside.mono (h : Beside changed t u) (hsub : ∀ p, changed p → changed' p) :
    Beside changed' t u := fun q hq => h q fun hc => hq (hsub _ hc)

theorem Beside.trans (h : Beside changed t u) (h' : Beside changed u v) : Beside changed t v := by
  intro q hq
  rcases h q hq with he | ⟨hn, hd⟩
  · rw [← he]
    exact h' q hq
  · rcases h' q hq with he' | ⟨hn', -⟩
    · exact Or.inr ⟨hn, he'.trans hd⟩
    · rw [hn'] at hd
      cases hd

theorem Beside.content? (h : Beside changed t u) (hp : p.IsReal) (hc : ¬changed p) :
    u.content? p = t.content? p := by
  apply Option.ext
  intro b
  rw [content?_eq_some_iff_at? hp, content?_eq_some_iff_at? hp]
  rcases h p.parts (by rwa [hp.eta]) with he | ⟨hn, hd⟩
  · rw [he]
  · simp [hn, hd]

end

/-! ## One generated file -/

/-- From one tree to another only a place has changed, and directories were made above it. -/
def Around (out : Path) (t u : FileTree) : Prop :=
  ∀ q, q ≠ out.parts → u.at? q = t.at? q ∨
    q <+: out.parts.dropLast ∧ t.at? q = none ∧ u.at? q = some .directory

theorem Around.beside {out : Path} {t u : FileTree} (ho : out.IsReal) (h : Around out t u) :
    Beside (· = out) t u := by
  intro q hq
  refine (h q ?_).imp id fun ⟨_, hn, hd⟩ => ⟨hn, hd⟩
  rintro rfl
  exact hq ho.eta

/-- What a finished rendering leaves: the generated file, where there was no directory, holds a
text, the rest is as it was. -/
structure Put (out : Path) (text : String) (t u : FileTree) : Prop where
  load : u.load out = .ok (asRead text)
  vacant : t.at? out.parts ≠ some .directory
  around : Around out t u

theorem load_of_at? {t : FileTree} {p : Path} {s : String} (hp : p.IsReal) (hn : p.hasNul = false)
    (h : t.at? p.parts = some (.file s.toUTF8)) : t.load p = .ok (asRead s) := by
  rw [load_of_content hn ((content?_eq_some_iff_at? hp).2 h), readText?_toUTF8]

theorem put_of_insert {t u : FileTree} {out : Path} (text : String) (ho : out.IsReal)
    (hn : out.hasNul = false) (hne : out.parts ≠ [])
    (hparent : u.at? out.parts.dropLast = some .directory)
    (hd : u.at? out.parts ≠ some .directory) (hv : t.at? out.parts ≠ some .directory)
    (ha : Around out t u) : Put out text t (u.insert out.parts (.file text.toUTF8)) := by
  have hat := at?_insert_file hne hparent hd text.toUTF8
  refine ⟨load_of_at? ho hn (by rw [hat, if_pos rfl]), hv, fun q hq => ?_⟩
  rw [hat, if_neg hq]
  exact ha q hq

variable {d : Disk} {out : Path}

theorem putOutput_fails_of_load (text : String) {f : Failure} (he : d.files.exists? out = true)
    (hl : d.files.load out = .error f) : Fails (putOutput out text) d f := by
  unfold putOutput
  apply (yields_look _ d).bind_fails
  rw [he, if_pos rfl]
  apply (yields_look _ d).bind_fails
  rw [hl]
  exact (fails_ofExcept f d).bind _

theorem putOutput_of_same {text : String} (he : d.files.exists? out = true)
    (hl : d.files.load out = .ok text) : Yields (putOutput out text) d (false, true) d := by
  unfold putOutput
  apply (yields_look _ d).bind
  rw [he, if_pos rfl]
  apply (yields_look _ d).bind
  rw [hl]
  apply (yields_ofExcept text d).bind
  rw [if_pos rfl]
  exact yields_pure _ d

theorem putOutput_of_other {text old : String} {e : Disk} (he : d.files.exists? out = true)
    (hl : d.files.load out = .ok old) (hne : old ≠ text) (hw : Yields (writeText out text) d () e) :
    Yields (putOutput out text) d (false, false) e := by
  unfold putOutput
  apply (yields_look _ d).bind
  rw [he, if_pos rfl]
  apply (yields_look _ d).bind
  rw [hl]
  apply (yields_ofExcept old d).bind
  rw [if_neg hne]
  exact hw.bind (yields_pure _ _)

/-- A generated file that exists is read, and written when its text changes. -/
theorem putOutput_of_exists (text : String) (ho : out.IsReal) (hn : out.hasNul = false)
    (hne : out.parts ≠ []) (he : d.files.exists? out = true) :
    (∃ f, Fails (putOutput out text) d f) ∨
      ∃ a u, Yields (putOutput out text) d a ⟨u, d.refused⟩ ∧ Put out text d.files u := by
  cases hl : d.files.load out with
  | error f => exact Or.inl ⟨f, putOutput_fails_of_load text he hl⟩
  | ok old =>
    right
    obtain ⟨b, hb⟩ := (isFile_iff_at? ho).1 (isFile_of_load hl)
    have hvacant : d.files.at? out.parts ≠ some .directory := by rw [hb]; simp
    by_cases hsame : old = text
    · subst hsame
      refine ⟨(false, true), d.files, putOutput_of_same he hl, ?_, hvacant, fun _ _ => Or.inl rfl⟩
      rw [asRead_of_load hl, hl]
    · exact ⟨(false, false), _, putOutput_of_other he hl hsame (yields_writeText text ho hvacant),
        put_of_insert text ho hn hne (at?_dropLast hne (by rw [hb]; simp)) hvacant hvacant
          fun _ _ => Or.inl rfl⟩

theorem makeDirectory_spec {p : Path} (hp : p.IsReal) :
    (∃ f, Fails (makeDirectory p) d f) ∨
      ∃ u, Yields (makeDirectory p) d () ⟨u, d.refused⟩ ∧ u.at? p.parts = some .directory ∧
        ∀ q, u.at? q = d.files.at? q ∨
          q <+: p.parts ∧ d.files.at? q = none ∧ u.at? q = some .directory := by
  cases ha : d.files.access p with
  | throughFile =>
    left
    exact ⟨.throughFile p, by rw [makeDirectory, ha], by rw [makeDirectory, ha]⟩
  | entry names t =>
    obtain ⟨-, hf⟩ := (access_eq_entry_iff hp names).1 ha
    cases t with
    | file b =>
      left
      exact ⟨.alreadyExists p, by rw [makeDirectory, ha], by rw [makeDirectory, ha]⟩
    | directory es =>
      right
      have hat : d.files.at? p.parts = some .directory := at?_eq_directory.2 ⟨es, hf⟩
      exact ⟨d.files, yields_makeDirectory hp hat, hat, fun q => Or.inl rfl⟩
  | missing =>
    right
    have hnone : d.files.at? p.parts = none := by
      rw [at?_eq_none]
      cases hf : d.files.find? p.parts with
      | none => rfl
      | some t =>
        rw [(access_eq_entry_iff hp _).2 ⟨rfl, hf⟩] at ha
        cases ha
    have hway : ∀ q, q <+: p.parts → ∀ b, d.files.at? q ≠ some (.file b) :=
      fun q hq b => by simpa using at?_of_follow_missing hp.2 ha hq b
    have hat := at?_ensureDirectory hnone
    have hy : Yields (makeDirectory p) d () ⟨d.files.ensureDirectory p.parts, d.refused⟩ := by
      constructor
      · rw [makeDirectory, ha]
      · rw [makeDirectory, ha, hp.normal_eq]
    refine ⟨_, hy, by rw [hat, if_pos (List.prefix_refl _)], fun q => ?_⟩
    rw [hat]
    by_cases hq : q <+: p.parts
    · rw [if_pos hq]
      cases hk : d.files.at? q with
      | none => exact Or.inr ⟨hq, rfl, rfl⟩
      | some k =>
        cases k with
        | directory => exact Or.inl rfl
        | file b => exact absurd hk (hway q hq b)
    · rw [if_neg hq]
      exact Or.inl rfl

/-- A generated file that does not exist is created, with the directories on the way. -/
theorem putOutput_of_missing (text : String) (ho : out.IsReal) (hn : out.hasNul = false)
    (hne : out.parts ≠ []) (he : d.files.exists? out = false) :
    (∃ f, Fails (putOutput out text) d f) ∨
      ∃ a u, Yields (putOutput out text) d a ⟨u, d.refused⟩ ∧ Put out text d.files u := by
  have hnone : d.files.at? out.parts = none := by
    cases hat : d.files.at? out.parts with
    | none => rfl
    | some k =>
      rw [(exists?_iff_at? ho).2 (by rw [hat]; simp)] at he
      cases he
  unfold putOutput
  rcases makeDirectory_spec (d := d) ho.parent with ⟨f, hf⟩ | ⟨u, hy, hdir, hu⟩
  · left
    refine ⟨f, (yields_look _ d).bind_fails ?_⟩
    rw [he, if_neg (by simp)]
    exact hf.bind _
  · right
    have hout : u.at? out.parts ≠ some .directory := by
      rcases hu out.parts with he' | ⟨hp, -⟩
      · rw [he', hnone]
        simp
      · have hl := hp.length_le
        have hpos := List.length_pos_iff.2 hne
        simp only [Path.parent, List.length_dropLast] at hl
        omega
    refine ⟨(true, false), _, (yields_look _ d).bind ?_,
      put_of_insert text ho hn hne hdir hout (by rw [hnone]; simp) fun q _ => hu q⟩
    rw [he, if_neg (by simp)]
    exact hy.bind ((yields_writeText text ho hout).bind (yields_pure _ _))

theorem putOutput_spec (text : String) (ho : out.IsReal) (hn : out.hasNul = false)
    (hne : out.parts ≠ []) :
    (∃ f, Fails (putOutput out text) d f) ∨
      ∃ a u, Yields (putOutput out text) d a ⟨u, d.refused⟩ ∧ Put out text d.files u := by
  cases he : d.files.exists? out with
  | true => exact putOutput_of_exists text ho hn hne he
  | false => exact putOutput_of_missing text ho hn hne he

/-! ## One template -/

structure IsPlaced (c : Config) (t out : Path) : Prop where
  real : t.IsReal
  hasNul : t.hasNul = false
  output : c.outputFor t = .ok out

/-- What rendering one template leaves. A failure leaves all files as they are; else the
generated file, which without force was there before, holds the text of the template. -/
structure Rendered (force : Bool) (t out : Path) (d : Disk) (r : FileResult) (u : FileTree) :
    Prop where
  template : r.template = t
  output : r.output = out
  failed : r.failure ≠ none → u = d.files
  ok : r.failure = none →
    ∃ text, (compileFile d.files t).result = .ok text ∧ Put out text d.files u
  present : r.failure = none → force = false → d.files.isFile out = true

variable {c : Config} {force : Bool} {t : Path}

theorem Rendered.beside {r : FileResult} {u : FileTree} (ho : out.IsReal)
    (h : Rendered force t out d r u) : Beside (· = out) d.files u := by
  by_cases hf : r.failure = none
  · obtain ⟨text, -, hp⟩ := h.ok hf
    exact hp.around.beside ho
  · rw [h.failed hf]
    exact .refl _ _

/-- A path with a place for its generated file leads to that place as its real form does. -/
theorem isReal_output_of_ok (hc : c.Rooted) (ht : c.outputFor t = .ok out) :
    out.IsReal ∧ out.parts ≠ [] := by
  have hreal := Config.outputFor_real_of_ok hc ht
  exact ⟨Config.isReal_of_outputFor hc (Path.isReal_real t) hreal,
    Orphans.parts_ne_nil (Config.isGenerated_of_outputFor (Path.isReal_real t) hreal)⟩

/-- What can be compiled can be opened, and so can its generated file. -/
theorem hasNul_of_compileFile {files : FileTree} {text : String} (hc : c.Rooted)
    (ht : c.outputFor t = .ok out) (h : (compileFile files t).result = .ok text) :
    out.hasNul = false := by
  refine Config.hasNul_of_outputFor hc (Path.isReal_real t) ?_ (Config.outputFor_real_of_ok hc ht)
  cases hn : t.real.hasNul with
  | false => rfl
  | true =>
    unfold compileFile at h
    dsimp only at h
    rw [load_of_hasNul hn, Reporting.ofExcept_error_bind] at h
    cases h

theorem renderFile_of_missing (ht : c.outputFor t = .ok out)
    (h : (!force && !d.files.isFile out) = true) :
    Yields (renderFile c force t) d
      ⟨t, out, false, false, some (.missingOutput (c.shown out))⟩ d := by
  unfold renderFile
  rw [ht]
  refine (yields_ofExcept out d).bind ((yields_look _ d).bind ?_)
  rw [if_pos h]
  exact (yields_note _ d).bind (yields_pure _ d)

theorem renderFile_fails_of_compile {f : Failure} (ht : c.outputFor t = .ok out)
    (h : ¬(!force && !d.files.isFile out) = true)
    (hcompile : (compileFile d.files t).result = .error f) : Fails (renderFile c force t) d f := by
  unfold renderFile
  rw [ht]
  refine (yields_ofExcept out d).bind_fails ((yields_look _ d).bind_fails ?_)
  rw [if_neg h]
  exact (fails_readOnly hcompile).bind _

theorem renderFile_fails_of_put {f : Failure} {text : String} (ht : c.outputFor t = .ok out)
    (h : ¬(!force && !d.files.isFile out) = true)
    (hcompile : (compileFile d.files t).result = .ok text)
    (hput : Fails (putOutput out text) d f) : Fails (renderFile c force t) d f := by
  unfold renderFile
  rw [ht]
  refine (yields_ofExcept out d).bind_fails ((yields_look _ d).bind_fails ?_)
  rw [if_neg h]
  exact (yields_readOnly hcompile).bind_fails (hput.bind _)

theorem renderFile_of_put {text : String} {a : Bool × Bool} {e : Disk}
    (ht : c.outputFor t = .ok out) (h : ¬(!force && !d.files.isFile out) = true)
    (hcompile : (compileFile d.files t).result = .ok text)
    (hput : Yields (putOutput out text) d a e) :
    Yields (renderFile c force t) d ⟨t, out, a.1, a.2, none⟩ e := by
  unfold renderFile
  rw [ht]
  refine (yields_ofExcept out d).bind ((yields_look _ d).bind ?_)
  rw [if_neg h]
  refine (yields_readOnly hcompile).bind (hput.bind ?_)
  exact (yields_note _ _).bind (yields_pure _ _)

theorem tryRenderFile_of_fails {f : Failure} (ht : c.outputFor t = .ok out)
    (h : Fails (renderFile c force t) d f) :
    Yields (tryRenderFile c force t) d ⟨t, out, false, false, some f⟩ d := by
  refine h.attempt.bind ((yields_note _ d).bind ?_)
  rw [ht]
  exact (yields_ofExcept out d).bind (yields_pure _ d)

theorem tryRenderFile_of_yields {r : FileResult} {e : Disk}
    (h : Yields (renderFile c force t) d r e) : Yields (tryRenderFile c force t) d r e :=
  h.attempt.bind (yields_pure r _)

theorem rendered_of_failure (force : Bool) (t out : Path) (d : Disk) (f : Failure) :
    Rendered force t out d ⟨t, out, false, false, some f⟩ d.files :=
  ⟨rfl, rfl, fun _ => rfl, fun h => (by cases h), fun h => by cases h⟩

/-- Rendering a template always yields a result. -/
theorem tryRenderFile_spec (force : Bool) (hc : c.Rooted) (ht : c.outputFor t = .ok out) :
    ∃ r u, Yields (tryRenderFile c force t) d r ⟨u, d.refused⟩ ∧ Rendered force t out d r u := by
  obtain ⟨ho, hne⟩ := isReal_output_of_ok hc ht
  by_cases hmissing : (!force && !d.files.isFile out) = true
  · exact ⟨_, _, tryRenderFile_of_yields (renderFile_of_missing ht hmissing),
      rendered_of_failure force t out d _⟩
  · cases hcompile : (compileFile d.files t).result with
    | error f =>
      exact ⟨_, _, tryRenderFile_of_fails ht (renderFile_fails_of_compile ht hmissing hcompile),
        rendered_of_failure force t out d f⟩
    | ok text =>
      have hn := hasNul_of_compileFile hc ht hcompile
      rcases putOutput_spec (d := d) text ho hn hne with ⟨f, hf⟩ | ⟨a, u, hy, hput⟩
      · exact ⟨_, _, tryRenderFile_of_fails ht (renderFile_fails_of_put ht hmissing hcompile hf),
          rendered_of_failure force t out d f⟩
      · refine ⟨_, u, tryRenderFile_of_yields (renderFile_of_put ht hmissing hcompile hy),
          rfl, rfl, fun h => absurd rfl h, fun _ => ⟨text, hcompile, hput⟩, fun _ hforce => ?_⟩
        simpa [hforce] using hmissing

/-! ## All templates -/

def IsOutputOf (c : Config) (ts : List Path) (p : Path) : Prop := ∃ t ∈ ts, c.outputFor t = .ok p

/-- One result of a build: if it is no failure, then its template could be compiled in the tree
that it met, which differs in other generated files at most, and its text is there at the end. -/
structure Kept (c : Config) (t u : FileTree) (r : FileResult) : Prop where
  output : c.outputFor r.template = .ok r.output
  ok : r.failure = none → ∃ met text, Beside (Discovery.IsGenerated c) t met ∧
    (compileFile met r.template).result = .ok text ∧ u.load r.output = .ok (asRead text)

theorem Beside.of_outputs {ts : List Path} {t u : FileTree}
    (hts : ∀ t ∈ ts, ∃ out, IsPlaced c t out)
    (h : Beside (IsOutputOf c ts) t u) : Beside (Discovery.IsGenerated c) t u := by
  apply h.mono
  rintro p ⟨t, ht, ho⟩
  obtain ⟨out, hout⟩ := hts t ht
  exact Config.isGenerated_of_outputFor hout.real ho

theorem renderAll_spec (force : Bool) (hc : c.Rooted) (ts : List Path) (hn : ts.Nodup)
    (hts : ∀ t ∈ ts, ∃ out, IsPlaced c t out) :
    ∃ rs u, Yields (forEach (tryRenderFile c force) ts) d rs ⟨u, d.refused⟩ ∧
      rs.map FileResult.template = ts ∧ Beside (IsOutputOf c ts) d.files u ∧
      ∀ r ∈ rs, Kept c d.files u r := by
  induction ts generalizing d with
  | nil => exact ⟨[], d.files, yields_pure [] d, rfl, .refl _ _, by simp⟩
  | cons t ts ih =>
    rw [List.nodup_cons] at hn
    rw [List.forall_mem_cons] at hts
    obtain ⟨⟨out, hout⟩, hts⟩ := hts
    have hreal := Config.isReal_of_outputFor hc hout.real hout.output
    obtain ⟨r, u, hy, hr⟩ := tryRenderFile_spec (d := d) force hc hout.output
    obtain ⟨rs, v, hys, hmap, hb, hrs⟩ := ih (d := ⟨u, d.refused⟩) hn.2 hts
    have hhead : Beside (IsOutputOf c (t :: ts)) d.files u :=
      (hr.beside hreal).mono fun p hp => ⟨t, List.mem_cons_self .., hp ▸ hout.output⟩
    have htail : Beside (IsOutputOf c (t :: ts)) u v :=
      hb.mono fun p ⟨s, hs, ho⟩ => ⟨s, List.mem_cons_of_mem _ hs, ho⟩
    have hts' : ∀ s ∈ t :: ts, ∃ out, IsPlaced c s out :=
      List.forall_mem_cons.2 ⟨⟨out, hout⟩, hts⟩
    refine ⟨r :: rs, v, hy.forEach_cons hys, ?_, hhead.trans htail, ?_⟩
    · rw [List.map_cons, hr.template, hmap]
    rw [List.forall_mem_cons]
    constructor
    · refine ⟨by rw [hr.template, hr.output, hout.output], fun hf => ?_⟩
      obtain ⟨text, htext, hput⟩ := hr.ok hf
      refine ⟨d.files, text, .refl _ _, by rw [hr.template]; exact htext, ?_⟩
      -- The templates still to come have other generated files.
      have hother : ¬IsOutputOf c ts out := by
        rintro ⟨s, hs, ho⟩
        obtain ⟨out', hout'⟩ := hts s hs
        exact hn.1 (Config.outputFor_inj hout.real hout'.real hout.output ho ▸ hs)
      rw [hr.output, ← hput.load]
      exact (load_congr (hb.content? hreal hother).symm (isFile_of_load hput.load)).symm
    · intro s hs
      obtain ⟨ho, hok⟩ := hrs s hs
      refine ⟨ho, fun hf => ?_⟩
      obtain ⟨met, text, hmet, htext, hload⟩ := hok hf
      have hfirst : Beside (Discovery.IsGenerated c) d.files u := hhead.of_outputs hts'
      exact ⟨met, text, hfirst.trans hmet, htext, hload⟩

/-! ## The build -/

theorem isPlaced_of_mem_templates {files : FileTree} (hc : c.Rooted) (hf : files.isProper = true)
    (h : t ∈ Discovery.templates files c) : ∃ out, IsPlaced c t out := by
  obtain ⟨hr, hn⟩ := Discovery.isReal_of_mem_templates hf hc.templates h
  have htemplate := ((Discovery.mem_templates hf hc.templates).1 h).1
  obtain ⟨out, hout⟩ := (Config.isSourcePlace_of_isTemplate hr htemplate).exists_outputFor hc
  exact ⟨out, hr, hn, hout⟩

theorem yields_run {deleted : List Path} {rs : List FileResult} {e g : Disk}
    (hclean : Yields (Orphans.clean c) d deleted e) (chosen : Option (List Path))
    (h : Yields (forEach (tryRenderFile c force) (chosen.getD (Discovery.templates e.files c)))
      e rs g) : Yields (run c force chosen) d ⟨rs, deleted⟩ g :=
  hclean.bind ((yields_look _ e).bind ((yields_noteIf _ _ e).bind (h.bind (yields_pure _ g))))

/-- A build of a project in which no document includes a generated file has one result for each
template, in the order in which they are found. What it does not report as a failure compiles
in the tree as it was before the build, and its text is what the generated file holds after it. -/
theorem run_correct (c : Config) (force : Bool) (d : Disk) (hc : c.Rooted)
    (hd : d.files.isProper = true)
    (hclosed : Compilation.Closed d.files fun p => ¬Discovery.IsGenerated c p) :
    ∃ report, (run c force none d).result = .ok report ∧
      report.results.map FileResult.template = Discovery.templates d.files c ∧
      (Discovery.templates d.files c).Nodup ∧
      ∀ r ∈ report.results, r.isOk = true → ∃ text,
        (compileFile d.files r.template).result = .ok text ∧
          c.outputFor r.template = .ok r.output ∧
          (run c force none d).disk.files.load r.output = .ok (asRead text) := by
  obtain ⟨deleted, u, hclean, hu, hcleaned⟩ := Orphans.clean_cleans (d := d) hc hd
  have htemplates := Orphans.templates_of_cleaned hc hd hu hcleaned
  have hnodup := Discovery.nodup_templates hd hc.templates
  have hplaced : ∀ t ∈ Discovery.templates d.files c, ∃ out, IsPlaced c t out :=
    fun t ht => isPlaced_of_mem_templates hc hd ht
  obtain ⟨rs, v, hall, hmap, -, hkept⟩ :=
    renderAll_spec (d := ⟨u, d.refused⟩) force hc _ hnodup hplaced
  have hrun : Yields (run c force none) d ⟨rs, deleted⟩ ⟨v, d.refused⟩ := by
    refine hclean.bind ((yields_look _ _).bind ?_)
    rw [htemplates, Option.getD_none]
    exact (yields_noteIf _ _ _).bind (hall.bind (yields_pure _ _))
  refine ⟨⟨rs, deleted⟩, hrun.result, hmap, hnodup, fun r hr hok => ?_⟩
  obtain ⟨ho, hr'⟩ := hkept r hr
  obtain ⟨met, text, hmet, htext, hload⟩ := hr' (Option.isNone_iff_eq_none.1 hok)
  have hmem : r.template ∈ Discovery.templates d.files c :=
    hmap ▸ List.mem_map.2 ⟨r, hr, rfl⟩
  obtain ⟨hreal, -⟩ := Discovery.isReal_of_mem_templates hd hc.templates hmem
  obtain ⟨htemplate, b, hb⟩ := (Discovery.mem_templates hd hc.templates).1 hmem
  -- Neither deleting orphans nor the other templates changed what is not generated.
  have halike : Compilation.Alike d.files met fun p => ¬Discovery.IsGenerated c p := by
    intro p hp hpr
    rw [← hcleaned.content? hpr fun h => hp h.1]
    exact (hmet.content? hpr hp).symm
  have hnot : ¬Discovery.IsGenerated c r.template.real := by
    rw [hreal.real_eq]
    exact Discovery.not_isGenerated_of_isTemplate htemplate
  have hfile : d.files.isFile r.template.real = true := by
    rw [hreal.real_eq]
    exact (isFile_iff_at? hreal).2 ⟨b, hb⟩
  have hsame : compileFile d.files r.template = compileFile met r.template :=
    Compilation.compileFile_congr hclosed halike hnot
      (load_congr (halike _ hnot (Path.isReal_real _)) hfile)
  refine ⟨text, by rw [hsame]; exact htext, ho, ?_⟩
  rw [hrun.disk]
  exact hload

def mixedFiles : FileTree :=
  .directory [("out", .directory [("gone.g.md", .file "x".toUTF8)]),
    ("templates", .directory [
      ("a.mdoc", .file "\x7b% partial file=\"p.p.mdoc\" /%\x7d".toUTF8),
      ("b.mdoc", .file "\x7b% partial /%\x7d".toUTF8),
      ("p.p.mdoc", .file "B".toUTF8)])]

def mixedConfig : Config := ⟨⟨.root, ["templates"]⟩, ⟨.root, ["out"]⟩, [], 100⟩

theorem rooted_mixedConfig : mixedConfig.Rooted := ⟨by decide, by decide, by decide, by decide⟩

theorem run_correct_of_mixed :
    ∃ report, (run mixedConfig true none ⟨mixedFiles, []⟩).result = .ok report ∧
      report.results.map FileResult.template = Discovery.templates mixedFiles mixedConfig ∧
      (Discovery.templates mixedFiles mixedConfig).Nodup ∧
      ∀ r ∈ report.results, r.isOk = true → ∃ text,
        (compileFile mixedFiles r.template).result = .ok text ∧
          mixedConfig.outputFor r.template = .ok r.output ∧
          (run mixedConfig true none ⟨mixedFiles, []⟩).disk.files.load r.output =
            .ok (asRead text) := by
  refine run_correct mixedConfig true ⟨mixedFiles, []⟩ ⟨by decide, by decide, by decide, by decide⟩
    (by decide) (Compilation.closed_of_files ?_)
  intro f hf
  apply forall_ok_of_all
  revert f
  decide +kernel

end Build

end DocPress
