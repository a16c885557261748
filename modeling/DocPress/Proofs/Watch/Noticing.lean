import DocPress.Proofs.Evaluation
import DocPress.Proofs.Watch.Collecting

/-!
# What a session notices

A session refuses what lies in the output directory and what is excluded; the walk for
templates compares directories with the last name of the output directory alone. Where the
templates do not lie in the output, the two agree: a kept path in the output would lead over a
directory with that name. Where they do, no template is ever noticed.
-/

set_option autoImplicit false

namespace DocPress

namespace Path

variable {p root inner : Path}

theorem isWithin_self (p : Path) : p.isWithin p = true := isWithin_iff.2 ⟨[], by simp⟩

theorem isWithin_trans (h : p.isWithin inner = true) (hi : inner.isWithin root = true) :
    p.isWithin root = true := by
  obtain ⟨names, rfl⟩ := isWithin_iff.1 h
  obtain ⟨more, rfl⟩ := isWithin_iff.1 hi
  exact isWithin_iff.2 ⟨more ++ names, by simp⟩

/-- Of two directories that a path lies in, one lies in the other. -/
theorem isWithin_or_isWithin {other : Path} (h : p.isWithin root = true)
    (ho : p.isWithin other = true) :
    root.isWithin other = true ∨ other.isWithin root = true := by
  obtain ⟨names, rfl⟩ := isWithin_iff.1 h
  obtain ⟨more, he⟩ := isWithin_iff.1 ho
  obtain ⟨ra, rp⟩ := root
  obtain ⟨oa, op⟩ := other
  simp only [append_relative, Path.mk.injEq] at he
  obtain ⟨rfl, he⟩ := he
  rcases List.append_eq_append_iff.1 he with ⟨rest, rfl, -⟩ | ⟨rest, rfl, -⟩
  · exact Or.inr (isWithin_iff.2 ⟨rest, rfl⟩)
  · exact Or.inl (isWithin_iff.2 ⟨rest, rfl⟩)

end Path

namespace Discovery

variable {c : Config} {ignore : Ignore} {p : Path}

theorem isExcludedDirectory_output (h : c.output.parts ≠ []) :
    isExcludedDirectory c (c.output.parts.getLast h) = true := by
  have hname : c.output.name = c.output.parts.getLast h := by
    rw [Path.name, List.getLast?_eq_some_getLast h, Option.getD_some]
  simp [isExcludedDirectory, hname]

/-- A kept path other than the output directory lies outside of it, unless the templates
themselves lie in it: on the way in there would be a directory named like the output. -/
theorem not_isWithin_output (hroots : c.templates.isWithin c.output = false) (hp : p.IsReal)
    (hkept : isExcluded c ignore p = false) (hne : p ≠ c.output) :
    p.isWithin c.output = false := by
  by_contra hwithin
  rw [Bool.not_eq_false] at hwithin
  obtain ⟨names, rfl⟩ := exists_of_not_isExcluded hp hkept
  rcases Path.isWithin_or_isWithin (Path.isWithin_append c.templates names) hwithin with h | h
  · rw [hroots] at h
    cases h
  · obtain ⟨way, hway⟩ := Path.isWithin_iff.1 h
    obtain ⟨rest, hrest⟩ := Path.isWithin_iff.1 hwithin
    have hwayne : way ≠ [] := by
      rintro rfl
      rw [hway, Path.append_relative, List.append_nil, Path.isWithin_self] at hroots
      cases hroots
    have hnames : names = way ++ rest := by
      have hparts := congrArg Path.parts hrest
      rw [hway] at hparts
      simpa using hparts
    have hrestne : rest ≠ [] := by
      rintro rfl
      exact hne (by rw [hrest]; simp)
    have houtput : c.output.parts ≠ [] := by simp [hway, hwayne]
    have hlast : c.output.parts.getLast houtput ∈ names.dropLast := by
      have hl : c.output.parts.getLast houtput = way.getLast hwayne := by
        simp only [hway, Path.append_relative, List.getLast_append_of_ne_nil _ hwayne]
      rw [hl, hnames, List.dropLast_append_of_ne_nil hrestne]
      exact List.mem_append_left _ (List.getLast_mem hwayne)
    rw [isExcluded_append hp, Bool.or_eq_false_iff, List.any_eq_false] at hkept
    exact hkept.1 _ hlast (isExcludedDirectory_output houtput)

end Discovery

namespace Watch.Session

open Discovery

variable {c : Config} {s : Session} {files : FileTree} {p : Path}

/-- For the name of a template, a session looks at the two directories and at what is excluded. -/
theorem qualifies_toString (hp : p.normal = p) (hnames : ∀ name ∈ p.parts, Path.isEntryName name)
    (hname : Naming.isTemplate p.toString = true) :
    s.qualifies p.toString = (!p.isWithin s.config.output &&
      !isExcluded s.config (Ignore.ofEntries s.config.ignored) p) := by
  have hend := Naming.endsWith_of_isTemplate hname
  have hanchor : p.anchor ≠ .relative := hp ▸ Path.normal_anchor p
  unfold qualifies
  simp only [Naming.not_isOutput_of_endsWith hend, hend,
    Path.ofString_toString_of_absolute hanchor hnames, hp, Session.ignore, Bool.true_and,
    Bool.false_eq_true, if_false]

theorem isEntryName_of_normal (hf : files.isProper = true) (hp : p.normal = p)
    (hfile : files.isFile p = true) : ∀ name ∈ p.parts, Path.isEntryName name = true := by
  have hparts : p.real.parts = p.parts := by
    rw [Path.real_parts, ← Path.normal_parts, hp]
  rw [← hparts]
  exact FileTree.isEntryName_of_isFile hf (Path.isReal_real p) (FileTree.isFile_real hfile)

/-- A template is noticed unless it lies in the output directory. -/
theorem qualifies_of_mem_templates (hf : files.isProper = true) (hc : c.Rooted)
    (hs : s.config = c) (hp : p ∈ templates files c) :
    s.qualifies p.toString = !p.isWithin c.output := by
  obtain ⟨hreal, hfile, -, hname, hkept⟩ := (mem_templates_iff hf hc.templates).1 hp
  rw [qualifies_toString hreal.normal_eq (FileTree.isEntryName_of_isFile hf hreal hfile) hname,
    hs, hkept, Bool.not_false, Bool.and_true]

/-- Where the templates do not lie in the output directory, the files that are templates are
those with a template's name that a session notices. The templates directory is none of them,
even if it is a file that is noticed. -/
theorem mem_templates_iff_qualifies (c : Config) (s : Session) (files : FileTree) (p : Path)
    (hc : c.Rooted) (hf : files.isProper = true) (hs : s.config = c)
    (hroots : c.templates.isWithin c.output = false) (houtput : files.isFile c.output = false)
    (hp : p.normal = p) (hfile : files.isFile p = true) :
    p ∈ templates files c ↔ Naming.isTemplate p.toString = true ∧
      s.qualifies p.toString = true ∧ p ≠ c.templates := by
  constructor
  · intro hm
    obtain ⟨hreal, -, hne, hname, hkept⟩ := (mem_templates_iff hf hc.templates).1 hm
    have hnot : p ≠ c.output := by
      rintro rfl
      rw [hfile] at houtput
      cases houtput
    refine ⟨hname, ?_, hne⟩
    rw [qualifies_of_mem_templates hf hc hs hm, not_isWithin_output hroots hreal hkept hnot]
    rfl
  · rintro ⟨hname, hq, hne⟩
    rw [qualifies_toString hp (isEntryName_of_normal hf hp hfile) hname, Bool.and_eq_true,
      Bool.not_eq_true', Bool.not_eq_true', hs] at hq
    have hreal := isReal_of_not_isExcluded hc (p := p) (hp.symm ▸ hq.2)
    rw [hp] at hreal
    exact (mem_templates_iff hf hc.templates).2 ⟨hreal, hfile, hne, hname, hq.2⟩

theorem mem_templates_iff_qualifies_of_pruned :
    ⟨.root, ["t", "d", "x", "f.mdoc"]⟩ ∈ templates prunedFiles prunedConfig ∧
      ⟨.root, ["t", "out", "c.mdoc"]⟩ ∉ templates prunedFiles prunedConfig ∧
        (Session.new prunedConfig).qualifies "/t/out/c.mdoc" = false := by
  have hiff := fun p => mem_templates_iff_qualifies prunedConfig (Session.new prunedConfig)
    prunedFiles p ⟨by decide, by decide, by decide, by decide⟩ (by decide) rfl (by decide)
    (by decide)
  have hout : (Session.new prunedConfig).qualifies "/t/out/c.mdoc" = false := by decide +kernel
  refine ⟨(hiff _ (by decide) (by decide)).2 (by decide +kernel), fun hm => ?_, hout⟩
  have hq := ((hiff _ (by decide) (by decide)).1 hm).2.1
  have hpath : (⟨.root, ["t", "out", "c.mdoc"]⟩ : Path).toString = "/t/out/c.mdoc" := by
    decide +kernel
  rw [hpath, hout] at hq
  cases hq

/-- A templates directory that is a file with a template's name: the walk finds nothing in it,
but a session notices it. -/
theorem root_file_qualifies :
    ¬ ∀ (c : Config) (s : Session) (files : FileTree) (p : Path), c.Rooted →
      files.isProper = true → s.config = c → c.templates.isWithin c.output = false →
      files.isFile c.output = false → p.normal = p → files.isFile p = true →
      (p ∈ templates files c ↔
        Naming.isTemplate p.toString = true ∧ s.qualifies p.toString = true) := by
  intro h
  have hiff := h ⟨⟨.root, ["t.mdoc"]⟩, ⟨.root, ["out"]⟩, [], 100⟩
    (Session.new ⟨⟨.root, ["t.mdoc"]⟩, ⟨.root, ["out"]⟩, [], 100⟩)
    (.directory [("t.mdoc", .file "T".toUTF8)]) ⟨.root, ["t.mdoc"]⟩
    ⟨by decide, by decide, by decide, by decide⟩ (by decide) rfl (by decide) (by decide)
    (by decide) (by decide)
  exact absurd (hiff.2 (by decide +kernel)) (by decide +kernel)

/-- A template of a configuration that can be read is noticed exactly if the templates do not
lie in the output directory and the template is not that directory itself. -/
theorem qualifies_iff_of_mem_templates {base : Path} {context : String} {v : Value}
    (hv : Config.ofValue base context v = .ok c) (hf : files.isProper = true)
    (hs : s.config = c) (hp : p ∈ templates files c) :
    s.qualifies p.toString = true ↔
      c.templates.isWithin c.output = false ∧ p ≠ c.output := by
  have hc := Config.rooted_of_ofValue hv
  obtain ⟨hreal, -, -, -, hkept⟩ := (mem_templates_iff hf hc.templates).1 hp
  obtain ⟨names, hnames⟩ := exists_of_not_isExcluded hreal hkept
  rw [qualifies_of_mem_templates hf hc hs hp, Bool.not_eq_true']
  constructor
  · intro houtside
    constructor
    · rw [← Bool.not_eq_true]
      intro hwithin
      have hin := Path.isWithin_trans (hnames ▸ Path.isWithin_append c.templates names) hwithin
      rw [houtside] at hin
      cases hin
    · rintro rfl
      rw [Path.isWithin_self] at houtside
      cases houtside
  · rintro ⟨hroots, hne⟩
    exact not_isWithin_output hroots hreal hkept hne

def prunedValue : Value :=
  .mapping [(.string "templates_dir", .string "t"), (.string "outputDir", .string "t/out"),
    (.string "ignore", .list [.string "./d/old/"])]

theorem qualifies_iff_of_mem_templates_pruned :
    Config.ofValue Path.rootDirectory "mdr.yaml" prunedValue = .ok prunedConfig ∧
      (Session.new prunedConfig).qualifies "/t/a.mdoc" = true := by
  have hv : Config.ofValue Path.rootDirectory "mdr.yaml" prunedValue = .ok prunedConfig :=
    eq_ok_of_toOption (by decide +kernel)
  have hm : ⟨.root, ["t", "a.mdoc"]⟩ ∈ templates prunedFiles prunedConfig :=
    (mem_templates_iff (by decide) (by decide)).2 (by decide +kernel)
  have hpath : (⟨.root, ["t", "a.mdoc"]⟩ : Path).toString = "/t/a.mdoc" := by decide +kernel
  refine ⟨hv, ?_⟩
  rw [← hpath]
  exact (qualifies_iff_of_mem_templates hv (by decide) rfl hm).2 (by decide)

/-- Templates and generated files in one directory: a template there is not noticed. -/
theorem not_qualifies_of_shared_directory :
    ¬ ∀ (base : Path) (context : String) (v : Value) (c : Config) (s : Session)
      (files : FileTree) (p : Path), Config.ofValue base context v = .ok c →
      c.templates.isWithin c.output = true → files.isProper = true → s.config = c →
      p ∈ templates files c → s.qualifies p.toString = true := by
  intro h
  have hv : Config.ofValue Path.rootDirectory "mdr.yaml"
      (.mapping [(.string "templates_dir", .string "docs"),
        (.string "output_dir", .string "docs")]) =
      .ok ⟨⟨.root, ["docs"]⟩, ⟨.root, ["docs"]⟩, [], 100⟩ :=
    eq_ok_of_toOption (by decide +kernel)
  have hm : ⟨.root, ["docs", "a.mdoc"]⟩ ∈ templates
      (.directory [("docs", .directory [("a.mdoc", .file "A".toUTF8)])])
      ⟨⟨.root, ["docs"]⟩, ⟨.root, ["docs"]⟩, [], 100⟩ :=
    (mem_templates_iff (by decide) (by decide)).2 (by decide +kernel)
  have hq := h _ _ _ _ (Session.new ⟨⟨.root, ["docs"]⟩, ⟨.root, ["docs"]⟩, [], 100⟩) _ _ hv
    (by decide) (by decide) rfl hm
  exact absurd hq (by decide +kernel)

end Watch.Session

end DocPress
