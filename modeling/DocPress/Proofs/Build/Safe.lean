import DocPress.Proofs.Build
import DocPress.Proofs.Orphans.Shape

/-!
# Safe renderings

A safe rendering replaces the content of a generated file that exists and does
nothing else. What it leaves there is decided by what stood there and by what the
template compiles to, and doing it again changes nothing.
-/

set_option autoImplicit false

namespace DocPress.Build

open FileTree DocPress.Task

def refresh (compiled : Except Failure String) (k : Kind) : Kind :=
  match compiled, k with
  | .ok text, .file b =>
    match readText? b with
    | some old => if old = text then .file b else .file text.toUTF8
    | none => .file b
  | _, k => k

def CanRefresh (compiled : Except Failure String) (k : Option Kind) : Prop :=
  ∃ text b old, compiled = .ok text ∧ k = some (.file b) ∧ readText? b = some old

section

variable {compiled : Except Failure String}

theorem refresh_file {text old : String} {b : ByteArray} (h : readText? b = some old) :
    refresh (.ok text) (.file b) = if old = text then .file b else .file text.toUTF8 := by
  simp only [refresh, h]

theorem refresh_of_not {k : Kind} (h : ¬CanRefresh compiled (some k)) : refresh compiled k = k := by
  unfold refresh
  split
  · rename_i text b
    split
    · rename_i old hold
      exact absurd ⟨text, b, old, rfl, rfl, hold⟩ h
    · rfl
  · rfl

theorem map_refresh_of_not {k : Option Kind} (h : ¬CanRefresh compiled k) :
    k.map (refresh compiled) = k := by
  cases k with
  | none => rfl
  | some k => rw [Option.map_some, refresh_of_not h]

theorem canRefresh_map {k : Option Kind} (h : CanRefresh compiled k) :
    CanRefresh compiled (k.map (refresh compiled)) := by
  obtain ⟨text, b, old, rfl, rfl, hold⟩ := h
  rw [Option.map_some, refresh_file hold]
  split
  · exact ⟨text, b, old, rfl, rfl, hold⟩
  · exact ⟨text, text.toUTF8, asRead text, rfl, rfl, readText?_toUTF8 text⟩

theorem refresh_refresh (compiled : Except Failure String) (k : Kind) :
    refresh compiled (refresh compiled k) = refresh compiled k := by
  by_cases h : CanRefresh compiled (some k)
  · obtain ⟨text, b, old, rfl, hk, hold⟩ := h
    obtain rfl := Option.some.inj hk
    rw [refresh_file hold]
    by_cases hs : old = text
    · rw [if_pos hs, refresh_file hold, if_pos hs]
    · rw [if_neg hs, refresh_file (readText?_toUTF8 text)]
      split <;> rfl
  · rw [refresh_of_not h, refresh_of_not h]

end

structure Refreshed (compiled : Except Failure String) (out : Path) (t u : FileTree) : Prop where
  at? : ∀ q, u.at? q = if q = out.parts then (t.at? q).map (refresh compiled) else t.at? q
  shape : u.shape = t.shape
  proper : t.isProper = true → u.isProper = true

theorem refreshed_of_not {compiled : Except Failure String} {out : Path} {t : FileTree}
    (h : ¬CanRefresh compiled (t.at? out.parts)) : Refreshed compiled out t t where
  at? q := by
    split
    · rename_i hq
      rw [hq, map_refresh_of_not h]
    · rfl
  shape := rfl
  proper := id

variable {c : Config} {d : Disk} {t out : Path}

/-! ## One template -/

theorem putOutput_of_file (text : String) {old : String} {b : ByteArray} (ho : out.IsReal)
    (hn : out.hasNul = false) (hne : out.parts ≠ []) (hb : d.files.at? out.parts = some (.file b))
    (hold : readText? b = some old) :
    ∃ u, Yields (putOutput out text) d (false, decide (old = text)) ⟨u, d.refused⟩ ∧
      Refreshed (.ok text) out d.files u := by
  have he : d.files.exists? out = true := (exists?_iff_at? ho).2 (by rw [hb]; simp)
  have hl : d.files.load out = .ok old := by
    rw [load_of_content hn ((content?_eq_some_iff_at? ho).2 hb), hold]
  by_cases hs : old = text
  · subst hs
    rw [decide_eq_true rfl]
    refine ⟨d.files, putOutput_of_same he hl, fun q => ?_, rfl, id⟩
    split
    · rename_i hq
      rw [hq, hb, Option.map_some, refresh_file hold, if_pos rfl]
    · rfl
  · have hw := yields_writeText (d := d) text ho (by rw [hb]; simp)
    rw [decide_eq_false hs]
    refine ⟨_, putOutput_of_other he hl hs hw, fun q => ?_,
      shape_insert_file hb text.toUTF8, fun hproper => ?_⟩
    · rw [at?_insert_file hne (at?_dropLast hne (by rw [hb]; simp)) (by rw [hb]; simp)]
      split
      · rename_i hq
        rw [hq, hb, Option.map_some, refresh_file hold, if_neg hs]
      · rfl
    · exact isProper_insert hproper (isEntryName_of_at? hproper (by rw [hb]; simp)) rfl

/-- A safe rendering succeeds where the generated file can be refreshed. -/
theorem renderFile_refreshes (hc : c.Rooted) (ht : IsPlaced c t out)
    (h : CanRefresh (compileFile d.files t).result (d.files.at? out.parts)) :
    ∃ r u, Yields (renderFile c false t) d r ⟨u, d.refused⟩ ∧ r.template = t ∧ r.failure = none ∧
      Refreshed (compileFile d.files t).result out d.files u := by
  have ho := Config.isReal_of_outputFor hc ht.real ht.output
  have hn := Config.hasNul_of_outputFor hc ht.real ht.hasNul ht.output
  have hne := Orphans.parts_ne_nil (Config.isGenerated_of_outputFor ht.real ht.output)
  obtain ⟨text, b, old, hcompile, hb, hold⟩ := h
  have hpresent : d.files.isFile out = true := (isFile_iff_at? ho).2 ⟨b, hb⟩
  obtain ⟨u, hy, hu⟩ := putOutput_of_file text ho hn hne hb hold
  exact ⟨⟨t, out, false, decide (old = text), none⟩, u,
    renderFile_of_put ht.output (by simp [hpresent]) hcompile hy, rfl, rfl, hcompile ▸ hu⟩

theorem renderFile_of_not (hc : c.Rooted) (ht : IsPlaced c t out)
    (h : ¬CanRefresh (compileFile d.files t).result (d.files.at? out.parts)) :
    (∃ f, Fails (renderFile c false t) d f) ∨
      ∃ r, Yields (renderFile c false t) d r d ∧ r.template = t ∧ r.failure ≠ none := by
  have ho := Config.isReal_of_outputFor hc ht.real ht.output
  have hn := Config.hasNul_of_outputFor hc ht.real ht.hasNul ht.output
  cases hpresent : d.files.isFile out with
  | false =>
    right
    exact ⟨_, renderFile_of_missing ht.output (by simp [hpresent]), rfl, by simp⟩
  | true =>
    left
    have hthere : ¬(!false && !d.files.isFile out) = true := by simp [hpresent]
    obtain ⟨b, hb⟩ := (isFile_iff_at? ho).1 hpresent
    cases hcompile : (compileFile d.files t).result with
    | error f => exact ⟨f, renderFile_fails_of_compile ht.output hthere hcompile⟩
    | ok text =>
      cases hold : readText? b with
      | some old => exact absurd ⟨text, b, old, hcompile, hb, hold⟩ h
      | none =>
        have he : d.files.exists? out = true := (exists?_iff_at? ho).2 (by rw [hb]; simp)
        have hl : d.files.load out = .error (.undecodable out) := by
          rw [load_of_content hn ((content?_eq_some_iff_at? ho).2 hb), hold]
        exact ⟨.undecodable out, renderFile_fails_of_put ht.output hthere hcompile
          (putOutput_fails_of_load text he hl)⟩

theorem tryRenderFile_of_not (hc : c.Rooted) (ht : IsPlaced c t out)
    (h : ¬CanRefresh (compileFile d.files t).result (d.files.at? out.parts)) :
    ∃ r, Yields (tryRenderFile c false t) d r d ∧ r.template = t ∧ r.failure ≠ none := by
  rcases renderFile_of_not hc ht h with ⟨f, hf⟩ | ⟨r, hy, htemplate, hfail⟩
  · exact ⟨_, tryRenderFile_of_fails ht.output hf, rfl, by simp⟩
  · exact ⟨r, tryRenderFile_of_yields hy, htemplate, hfail⟩

theorem tryRenderFile_refreshes (hc : c.Rooted) (ht : IsPlaced c t out) :
    ∃ r u, Yields (tryRenderFile c false t) d r ⟨u, d.refused⟩ ∧ r.template = t ∧
      (r.failure = none ↔ CanRefresh (compileFile d.files t).result (d.files.at? out.parts)) ∧
      Refreshed (compileFile d.files t).result out d.files u := by
  by_cases h : CanRefresh (compileFile d.files t).result (d.files.at? out.parts)
  · obtain ⟨r, u, hy, htemplate, hok, hu⟩ := renderFile_refreshes hc ht h
    exact ⟨r, u, tryRenderFile_of_yields hy, htemplate, iff_of_true hok h, hu⟩
  · obtain ⟨r, hy, htemplate, hfail⟩ := tryRenderFile_of_not hc ht h
    exact ⟨r, d.files, hy, htemplate, iff_of_false hfail h, refreshed_of_not h⟩

/-! ## Templates one after the other -/

def AlikeOutside (c : Config) (t u : FileTree) : Prop :=
  Compilation.Alike t u fun p => ¬Discovery.IsGenerated c p

theorem AlikeOutside.trans {t u v : FileTree} (h : AlikeOutside c t u) (h' : AlikeOutside c u v) :
    AlikeOutside c t v := fun p hp hr => (h p hp hr).trans (h' p hp hr)

/-- A template is steady in a tree if no generated file matters to what it compiles to. -/
def Steady (c : Config) (base : FileTree) (t : Path) : Prop :=
  ∀ u, AlikeOutside c base u → compileFile u t = compileFile base t

theorem steady_of_closed {base : FileTree} (hc : c.Rooted) (hb : base.isProper = true)
    (hclosed : Compilation.Closed base fun p => ¬Discovery.IsGenerated c p)
    (ht : t ∈ Discovery.templates base c) : Steady c base t := by
  intro v hv
  have hreal := (Discovery.isReal_of_mem_templates hb hc.templates ht).1
  have hnot : ¬Discovery.IsGenerated c t :=
    Discovery.not_isGenerated_of_isTemplate ((Discovery.mem_templates hb hc.templates).1 ht).1
  refine (Compilation.compileFile_congr hclosed hv ?_ ?_).symm
  · rwa [hreal.real_eq]
  · rw [hreal.real_eq]
    exact load_congr (hv t hnot hreal) (Discovery.isFile_of_mem_templates hc hb ht)

theorem IsPlaced.isReal_output (hc : c.Rooted) (ht : IsPlaced c t out) : out.IsReal :=
  Config.isReal_of_outputFor hc ht.real ht.output

theorem IsPlaced.parts_ne {s out' : Path} (hc : c.Rooted) (ht : IsPlaced c t out)
    (hs : IsPlaced c s out') (hne : s ≠ t) : out'.parts ≠ out.parts := by
  intro he
  obtain rfl := (hs.isReal_output hc).ext (ht.isReal_output hc) he
  exact hne (Config.outputFor_inj hs.real ht.real hs.output ht.output)

theorem Refreshed.alikeOutside {compiled : Except Failure String} {files u : FileTree}
    (hc : c.Rooted) (ht : IsPlaced c t out) (h : Refreshed compiled out files u) :
    AlikeOutside c files u := by
  intro p hp hr
  have hne : p.parts ≠ out.parts := by
    intro he
    obtain rfl := hr.ext (ht.isReal_output hc) he
    exact hp (Config.isGenerated_of_outputFor ht.real ht.output)
  apply Option.ext
  intro b
  rw [content?_eq_some_iff_at? hr, content?_eq_some_iff_at? hr, h.at?, if_neg hne]

structure RefreshedAll (c : Config) (base : FileTree) (ts : List Path) (t u : FileTree) : Prop where
  at?_output : ∀ s ∈ ts, ∀ out, c.outputFor s = .ok out →
    u.at? out.parts = (t.at? out.parts).map (refresh (compileFile base s).result)
  at?_other : ∀ q, ¬IsOutputOf c ts ⟨.root, q⟩ → u.at? q = t.at? q
  shape : u.shape = t.shape
  proper : t.isProper = true → u.isProper = true
  alike : AlikeOutside c t u

/-- Whether results tell of each template if its generated file could be refreshed. -/
def Tells (c : Config) (base t : FileTree) (rs : List FileResult) : Prop :=
  ∀ r ∈ rs, ∀ out, c.outputFor r.template = .ok out →
    (r.failure = none ↔ CanRefresh (compileFile base r.template).result (t.at? out.parts))

theorem refreshedAll_cons {base t₁ t₂ t₃ : FileTree} {ts : List Path} (hc : c.Rooted)
    (ht : IsPlaced c t out) (hts : ∀ s ∈ ts, ∃ out, IsPlaced c s out) (hn : t ∉ ts)
    (h : Refreshed (compileFile base t).result out t₁ t₂) (h' : RefreshedAll c base ts t₂ t₃) :
    RefreshedAll c base (t :: ts) t₁ t₃ where
  at?_output s hs out' ho' := by
    rcases List.mem_cons.1 hs with rfl | hs
    · obtain rfl := Except.ok.inj (ht.output.symm.trans ho')
      rw [h'.at?_other, h.at?, if_pos rfl]
      rintro ⟨s', hs', ho⟩
      rw [(ht.isReal_output hc).eta] at ho
      obtain ⟨out', hp⟩ := hts s' hs'
      obtain rfl := Except.ok.inj (hp.output.symm.trans ho)
      exact hn (Config.outputFor_inj ht.real hp.real ht.output hp.output ▸ hs')
    · obtain ⟨out'', hp⟩ := hts s hs
      obtain rfl := Except.ok.inj (hp.output.symm.trans ho')
      have hne : s ≠ t := fun e => hn (e ▸ hs)
      rw [h'.at?_output s hs _ ho', h.at?, if_neg (ht.parts_ne hc hp hne)]
  at?_other q hq := by
    rw [h'.at?_other q fun ⟨s, hs, ho⟩ => hq ⟨s, List.mem_cons_of_mem _ hs, ho⟩, h.at?, if_neg]
    rintro rfl
    rw [(ht.isReal_output hc).eta] at hq
    exact hq ⟨t, List.mem_cons_self .., ht.output⟩
  shape := h'.shape.trans h.shape
  proper hp := h'.proper (h.proper hp)
  alike := (h.alikeOutside hc ht).trans h'.alike

/-- Safe renderings of steady templates, one after the other. -/
theorem forEach_refreshes {base : FileTree} (hc : c.Rooted) (ts : List Path) (hn : ts.Nodup)
    (hts : ∀ t ∈ ts, ∃ out, IsPlaced c t out) (hsteady : ∀ t ∈ ts, Steady c base t)
    (hd : AlikeOutside c base d.files) :
    ∃ rs u, Yields (forEach (tryRenderFile c false) ts) d rs ⟨u, d.refused⟩ ∧
      rs.map FileResult.template = ts ∧ Tells c base d.files rs ∧
      RefreshedAll c base ts d.files u := by
  induction ts generalizing d with
  | nil =>
    exact ⟨[], d.files, yields_pure [] d, rfl, by simp [Tells],
      ⟨by simp, fun _ _ => rfl, rfl, id, fun _ _ _ => rfl⟩⟩
  | cons t ts ih =>
    rw [List.nodup_cons] at hn
    rw [List.forall_mem_cons] at hts hsteady
    obtain ⟨⟨out, hout⟩, hts⟩ := hts
    obtain ⟨r, u, hy, htemplate, hok, hu⟩ := tryRenderFile_refreshes (d := d) hc hout
    rw [hsteady.1 _ hd] at hok hu
    obtain ⟨rs, v, hys, hmap, htells, hv⟩ :=
      ih (d := ⟨u, d.refused⟩) hn.2 hts hsteady.2 (hd.trans (hu.alikeOutside hc hout))
    refine ⟨r :: rs, v, hy.forEach_cons hys, ?_, ?_,
      refreshedAll_cons hc hout hts hn.1 hu hv⟩
    · rw [List.map_cons, htemplate, hmap]
    · rw [Tells, List.forall_mem_cons]
      constructor
      · intro out' ho'
        rw [htemplate] at ho' ⊢
        obtain rfl := Except.ok.inj (hout.output.symm.trans ho')
        exact hok
      · intro s hs out' ho'
        have hmem : s.template ∈ ts := hmap ▸ List.mem_map.2 ⟨s, hs, rfl⟩
        obtain ⟨out'', hp⟩ := hts _ hmem
        obtain rfl := Except.ok.inj (hp.output.symm.trans ho')
        have hne : s.template ≠ t := fun e => hn.1 (e ▸ hmem)
        rw [htells s hs _ ho', hu.at?, if_neg (hout.parts_ne hc hp hne)]

/-- Renderings that all fail change nothing, so that each of them meets what the first one met. -/
theorem forEach_of_not (hc : c.Rooted) (ts : List Path)
    (hts : ∀ t ∈ ts, ∃ out, IsPlaced c t out ∧
      ¬CanRefresh (compileFile d.files t).result (d.files.at? out.parts)) :
    ∃ rs, Yields (forEach (tryRenderFile c false) ts) d rs d ∧
      rs.map FileResult.template = ts ∧ ∀ r ∈ rs, r.isOk = false := by
  induction ts with
  | nil => exact ⟨[], yields_pure [] d, rfl, by simp⟩
  | cons t ts ih =>
    rw [List.forall_mem_cons] at hts
    obtain ⟨⟨out, hout, hnot⟩, hts⟩ := hts
    obtain ⟨r, hy, htemplate, hfail⟩ := tryRenderFile_of_not hc hout hnot
    obtain ⟨rs, hys, hmap, hfailed⟩ := ih hts
    refine ⟨r :: rs, hy.forEach_cons hys, by rw [List.map_cons, htemplate, hmap], ?_⟩
    rw [List.forall_mem_cons]
    exact ⟨Option.isNone_eq_false_iff.2 (Option.ne_none_iff_isSome.1 hfail), hfailed⟩

/-- Safe renderings of any templates, one after the other: each has a result. -/
theorem forEach_tryRenderFile (hc : c.Rooted) (ts : List Path)
    (hts : ∀ t ∈ ts, ∃ out, IsPlaced c t out) :
    ∃ rs u, Yields (forEach (tryRenderFile c false) ts) d rs ⟨u, d.refused⟩ ∧
      rs.map FileResult.template = ts ∧ (d.files.isProper = true → u.isProper = true) := by
  induction ts generalizing d with
  | nil => exact ⟨[], d.files, yields_pure [] d, rfl, id⟩
  | cons t ts ih =>
    rw [List.forall_mem_cons] at hts
    obtain ⟨⟨out, hout⟩, hts⟩ := hts
    obtain ⟨r, u, hy, htemplate, -, hu⟩ := tryRenderFile_refreshes (d := d) hc hout
    obtain ⟨rs, v, hys, hmap, hv⟩ := ih (d := ⟨u, d.refused⟩) hts
    refine ⟨r :: rs, v, hy.forEach_cons hys, ?_, fun h => hv (hu.proper h)⟩
    rw [List.map_cons, htemplate, hmap]

end DocPress.Build
