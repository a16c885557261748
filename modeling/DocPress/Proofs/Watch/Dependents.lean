import DocPress.Proofs.Dependency.Reach
import DocPress.Proofs.Watch.Survival

/-!
# What a report of one file adds to a pass

A session that is told of a rewritten source renders, besides what it would render anyway, the
source itself if it is a template, and what depends on it if it is a partial. Which of the two
it is, its name alone decides: a template that others include has no dependents in a pass.
-/

set_option autoImplicit false

namespace DocPress.Watch.Session

open Discovery Dependency FileTree Build DocPress.Task

variable {c : Config} {s : Session} {d : Disk} {files : FileTree} {u : Path}

/-! ## What is affected by one change more -/

/-- Which map the affected templates are told from matters only where one is needed. -/
theorem isAffected_congr {m m' : Map} {changes : List Path} {t : Path}
    (h : Scans c files changes m) (h' : Scans c files changes m') :
    IsAffected s files m changes t ↔ IsAffected s files m' changes t := by
  by_cases hp : ∃ p ∈ changes, Naming.isPartial p.toString = true
  · obtain rfl := Except.ok.inj ((h.map hp).symm.trans (h'.map hp))
    rfl
  · have hno : ∀ n : Map, ¬∃ p ∈ changes, Naming.isPartial p.toString = true ∧ t ∈ n.get p.real :=
      fun n ⟨p, hm, hn, _⟩ => hp ⟨p, hm, hn⟩
    simp only [IsAffected, hno]

theorem isAffected_addPath {m : Map} {changes : List Path} {t : Path} :
    IsAffected s files m (addPath changes u) t ↔ IsAffected s files m changes t ∨
      (t = u ∧ Naming.isTemplate u.toString = true ∧ files.isFile u = true) ∨
      (Naming.isPartial u.toString = true ∧ t ∈ m.get u.real) := by
  simp only [IsAffected, mem_addPath, or_and_right, exists_or, exists_eq_left]
  constructor
  · rintro ((h | ⟨rfl, h⟩) | (h | h) | h)
    · exact .inl (.inl h)
    · exact .inr (.inl ⟨rfl, h⟩)
    · exact .inl (.inr (.inl h))
    · exact .inr (.inr h)
    · exact .inl (.inr (.inr h))
  · rintro ((h | h | h) | ⟨rfl, h⟩ | h)
    · exact .inl (.inl h)
    · exact .inr (.inl (.inl h))
    · exact .inr (.inr h)
    · exact .inl (.inr ⟨rfl, h⟩)
    · exact .inr (.inl (.inr h))

/-- A session that is told of a source makes a pass over what the change concerns. -/
theorem exists_pump_notified {m : Map} (hc : c.Rooted) (hs : Arises c s)
    (hf : d.files.isProper = true) (hdir : d.files.isFile c.templates = false)
    (hu : IsReportable c u) (hm : Scans c d.files (addPath s.collect.2.changes u) m) :
    ∃ s' report e, Yields (s.notify u.toString).pump d (s', .ok (some report)) e ∧
      ∀ t, t ∈ report.results.map FileResult.template ↔
        IsAffected (s.collect.2.current d.files) d.files m (addPath s.collect.2.changes u) t := by
  obtain ⟨hbatch, hchanges⟩ := collect_notify hc (sound_of_arises hc hs).config hu
  have hmem : u ∈ (s.notify u.toString).collect.2.changes := by
    rw [hchanges]
    exact mem_addPath.2 (.inr rfl)
  obtain ⟨s', r, e, hy, hends⟩ :=
    exists_pump_of_accepted (d := d) hc (.notify u.toString hs) hf hdir hbatch
  rw [← hchanges] at hm ⊢
  cases hends with
  | rests hwork => exact absurd (.inl (List.ne_nil_of_mem hmem)) hwork
  | fails _ hno => exact absurd ⟨m, hm⟩ hno
  | reports _ hm' hresults =>
    refine ⟨s', _, e, hy, fun t => (hresults t).trans ((isAffected_congr hm' hm).trans ?_)⟩
    simp only [IsAffected, current, collect_errors, notify]

/-! ## A file that is rewritten -/

/-- A source outside of the output is rewritten, and every other file stays. -/
structure IsRewrite (c : Config) (before after : FileTree) (u : Path) : Prop where
  real : u.IsReal
  source : IsSource c u
  outside : u.isWithin c.output = false
  existed : before.isFile u = true
  exists_ : after.isFile u = true
  same : AlikeBut before after u

theorem not_isFile_templates (hc : c.Rooted) (hu : IsSource c u) (hr : u.IsReal)
    (hf : files.isFile u = true) : files.isFile c.templates = false := by
  obtain ⟨name, rest, rfl⟩ := hu.below
  obtain ⟨b, hb⟩ := (isFile_iff_at? hr).1 hf
  have hdirectory : files.at? c.templates.parts = some .directory :=
    at?_of_append (List.cons_ne_nil name rest) (by
      rw [Path.append_relative] at hb
      simp [hb])
  rw [Bool.eq_false_iff]
  intro hfile
  obtain ⟨b', hb'⟩ := (isFile_iff_at? hc.templates).1 hfile
  rw [hdirectory] at hb'
  cases hb'

variable {before after : FileTree}

/-- What depends on a file before it is rewritten, other than itself, does so afterwards. -/
theorem mem_get_of_rewrite {m m' : Map} {t : Path} (hc : c.Rooted)
    (hbefore : before.isProper = true) (hafter : after.isProper = true)
    (hu : IsRewrite c before after u)
    (hm : (ofTemplates before (templates before c)).result = .ok m)
    (hm' : (ofTemplates after (templates after c)).result = .ok m')
    (ht : t ∈ m.get u) (hne : t ≠ u) : t ∈ m'.get u := by
  obtain ⟨⟨v, hv, rfl⟩, hway⟩ := (mem_get_iff hm).1 ht
  have hreal := (isReal_of_mem_templates hbefore hc.templates hv).1
  rw [hreal.real_eq] at hway hne ⊢
  refine (mem_get_iff hm').2 ⟨⟨v, ?_, hreal.real_eq⟩, transGen_of_alikeBut hu.same hreal hne hway⟩
  apply mem_templates_of_isFile hc hafter hreal ((mem_templates hbefore hc.templates).1 hv).1
  rw [← isFile_congr (hu.same v hreal hne)]
  exact isFile_of_mem_templates hc hbefore hv

theorem isRewrite_including (included : String) {x y : String}
    (hx : (includingFiles included x).isProper = true)
    (hy : (includingFiles included y).isProper = true)
    (hreal : (includedPath included).IsReal) (hs : IsSource includingConfig (includedPath included))
    (ho : (includedPath included).isWithin includingConfig.output = false)
    (hf : (includingFiles included x).isFile (includedPath included) = true)
    (hf' : (includingFiles included y).isFile (includedPath included) = true) :
    IsRewrite includingConfig (includingFiles included x) (includingFiles included y)
      (includedPath included) :=
  ⟨hreal, hs, ho, hf, hf', fun p hp hne =>
    (isEdit_including hx hy hreal hs ho hf).same p hp (by simpa using hne)⟩

theorem exists_map_including (included text : String)
    (hf : (includingFiles included text).isProper = true)
    (hdocs : Traceable (includingFiles included text) (IsSource includingConfig)
      (IsInclusion includingConfig []))
    (hb : (includingFiles included text).isFile (includedPath "b.mdoc") = true)
    (hfound : (reachable (includingFiles included text) (includedPath "b.mdoc")).result.toOption =
      some [includedPath included]) :
    ∃ m, (ofTemplates (includingFiles included text)
        (templates (includingFiles included text) includingConfig)).result = .ok m ∧
      includedPath "b.mdoc" ∈ m.get (includedPath included) := by
  have hreal : (includedPath "b.mdoc").IsReal := by decide
  obtain ⟨m, hm, hreach⟩ := exists_map rooted_including hf hdocs
  obtain ⟨found, hfound', -, hget⟩ := hreach _ (mem_templates_of_isFile rooted_including hf hreal
    ((isTemplate_iff hreal).2 (by decide +kernel)) hb)
  obtain rfl := Except.ok.inj (hfound'.symm.trans (eq_ok_of_toOption hfound))
  exact ⟨m, hm, hget _ (List.mem_cons_self ..)⟩

theorem isRewrite_template : IsRewrite includingConfig (includingFiles "a.mdoc" "one")
    (includingFiles "a.mdoc" "two") (includedPath "a.mdoc") :=
  isRewrite_including "a.mdoc" (by decide +kernel) (by decide +kernel) (by decide)
    (by decide +kernel) (by decide +kernel) (by decide +kernel) (by decide +kernel)

theorem exists_map_template :
    ∃ m, (ofTemplates (includingFiles "a.mdoc" "one")
        (templates (includingFiles "a.mdoc" "one") includingConfig)).result = .ok m ∧
      includedPath "b.mdoc" ∈ m.get (includedPath "a.mdoc") :=
  exists_map_including "a.mdoc" "one" (by decide +kernel) (traceable_of_files (by decide +kernel))
    (by decide +kernel) (by decide +kernel)

end DocPress.Watch.Session
