import DocPress.Proofs.Path.Spelling

/-!
# Pruned discovery is a filter

The walk decides about one directory at a time; whether a path is excluded is told from
the whole path. Both keep the same files: the templates are the files below the templates
directory that have a template's name and are not excluded. They are listed strictly in the
order of their names.
-/

set_option autoImplicit false

namespace DocPress

namespace Path

theorem lt_of_namesLe {a b : List String} (h : namesLe a b = true) (hne : a ≠ b) : a < b := by
  induction a generalizing b with
  | nil =>
    cases b with
    | nil => exact absurd rfl hne
    | cons y b => exact List.nil_lt_cons y b
  | cons x a ih =>
    cases b with
    | nil => cases h
    | cons y b =>
      rw [namesLe] at h
      rw [List.cons_lt_cons_iff]
      by_cases hxy : x = y
      · subst hxy
        rw [if_pos rfl] at h
        exact Or.inr ⟨rfl, ih h fun e => hne (by rw [e])⟩
      · rw [if_neg hxy, decide_eq_true_iff] at h
        exact Or.inl h

end Path

namespace Naming

theorem isTemplate_toString {p : Path} (ha : p.anchor = .root) :
    isTemplate p.toString = isTemplate p.name := by
  rw [isTemplate, isTemplate, endsWith_toString ha (by decide), endsWith_toString ha (by decide)]

end Naming

namespace Discovery

variable {c : Config} {ignore : Ignore} {files : FileTree} {p : Path}

theorem isExcluded_append {names : List String}
    (hp : (c.templates ++ ⟨.relative, names⟩ : Path).IsReal) :
    isExcluded c ignore (c.templates ++ ⟨.relative, names⟩) =
      (names.dropLast.any (isExcludedDirectory c) || ignore.contains names) := by
  rw [isExcluded, hp.normal_eq, Path.below?_eq_some_iff.2 rfl]

/-- What is not excluded lies below the templates directory. -/
theorem normal_of_not_isExcluded (h : isExcluded c ignore p = false) :
    ∃ names, p.normal = c.templates ++ ⟨.relative, names⟩ := by
  unfold isExcluded at h
  split at h
  · cases h
  · rename_i names hn
    exact ⟨names, Path.below?_eq_some_iff.1 hn⟩

theorem exists_of_not_isExcluded (hp : p.IsReal) (h : isExcluded c ignore p = false) :
    ∃ names, p = c.templates ++ ⟨.relative, names⟩ := by
  obtain ⟨names, hn⟩ := normal_of_not_isExcluded h
  exact ⟨names, hp.normal_eq.symm.trans hn⟩

theorem isReal_of_not_isExcluded (hc : c.Rooted) (h : isExcluded c ignore p.normal = false) :
    p.normal.IsReal := by
  obtain ⟨names, hn⟩ := normal_of_not_isExcluded h
  rw [Path.normal_normal] at hn
  refine ⟨?_, ?_⟩
  · rw [hn]
    exact hc.templates.1
  · rw [Path.normal_parts]
    exact Path.dotdot_not_mem_normalParts _

theorem isTemplateAt_iff {names : List String} (hn : names ≠ [])
    (hp : (c.templates ++ ⟨.relative, names⟩ : Path).IsReal) :
    IsTemplateAt c ignore [] names ↔
      Naming.isTemplate (c.templates ++ ⟨.relative, names⟩ : Path).toString = true ∧
        isExcluded c ignore (c.templates ++ ⟨.relative, names⟩) = false := by
  rw [Naming.isTemplate_toString hp.1, Path.name_append hn, isExcluded_append hp,
    Bool.or_eq_false_iff]
  rfl

theorem mem_templates_iff (hf : files.isProper = true) (hc : c.templates.IsReal) :
    p ∈ templates files c ↔ p.IsReal ∧ files.isFile p = true ∧ p ≠ c.templates ∧
      Naming.isTemplate p.toString = true ∧
        isExcluded c (Ignore.ofEntries c.ignored) p = false := by
  constructor
  · intro h
    have hp := (isReal_of_mem_templates hf hc h).1
    obtain ⟨⟨names, rfl, hat⟩, hb⟩ := (mem_templates hf hc).1 h
    have hn : names ≠ [] := fun e => not_isTemplateAt_nil [] (e ▸ hat)
    have hne : c.templates ++ ⟨.relative, names⟩ ≠ c.templates := by
      intro he
      exact hn (by simpa using congrArg Path.parts he)
    exact ⟨hp, (FileTree.isFile_iff_at? hp).2 hb, hne, (isTemplateAt_iff hn hp).1 hat⟩
  · rintro ⟨hp, hfile, hne, hkept⟩
    obtain ⟨names, rfl⟩ := exists_of_not_isExcluded hp hkept.2
    have hn : names ≠ [] := by
      rintro rfl
      exact hne (by simp)
    exact (mem_templates hf hc).2
      ⟨⟨names, rfl, (isTemplateAt_iff hn hp).2 hkept⟩, (FileTree.isFile_iff_at? hp).1 hfile⟩

/-- One path stands before another in the order of their names below a directory. -/
def Precedes (root p q : Path) : Prop :=
  ∃ a b, p.below? root = some a ∧ q.below? root = some b ∧ a < b

theorem pairwise_templates (hf : files.isProper = true) (hc : c.templates.IsReal) :
    (templates files c).Pairwise (Precedes c.templates) := by
  obtain ⟨ns, hn, he⟩ := templates_eq_map hf hc
  have hsorted := (pairwise_sortNames ns).and (nodup_sortNames hn)
  rw [he, List.pairwise_map]
  exact hsorted.imp fun {a b} hab => ⟨a, b, Path.below?_eq_some_iff.2 rfl,
    Path.below?_eq_some_iff.2 rfl, Path.lt_of_namesLe hab.1 hab.2⟩

/-- The walk over the templates directory lists, each once and strictly in order, exactly the
files below it that have a template's name and are not excluded. -/
theorem templates_are_kept_files (c : Config) (files : FileTree) (hf : files.isProper = true)
    (hc : c.templates.IsReal) (hd : files.isDirectory c.templates = true) :
    (templates files c).Nodup ∧ (templates files c).Pairwise (Precedes c.templates) ∧
      ∀ p, p ∈ templates files c ↔ p.IsReal ∧ files.isFile p = true ∧
        p.isWithin c.templates = true ∧ Naming.isTemplate p.toString = true ∧
          isExcluded c (Ignore.ofEntries c.ignored) p = false := by
  refine ⟨nodup_templates hf hc, pairwise_templates hf hc, fun p => ?_⟩
  rw [mem_templates_iff hf hc]
  constructor
  · rintro ⟨hp, hfile, -, hname, hkept⟩
    obtain ⟨names, rfl⟩ := exists_of_not_isExcluded hp hkept
    exact ⟨hp, hfile, Path.isWithin_append c.templates names, hname, hkept⟩
  · rintro ⟨hp, hfile, -, hname, hkept⟩
    have hne : p ≠ c.templates := by
      rintro rfl
      unfold FileTree.isFile at hfile
      unfold FileTree.isDirectory at hd
      split at hfile <;> simp_all
    exact ⟨hp, hfile, hne, hname, hkept⟩

def prunedFiles : FileTree :=
  .directory [("t", .directory [
    ("a.mdoc", .file "A".toUTF8), ("p.p.mdoc", .file "P".toUTF8), ("n.md", .file "N".toUTF8),
    (".h", .directory [("b.mdoc", .file "B".toUTF8)]),
    ("out", .directory [("c.mdoc", .file "C".toUTF8)]),
    ("d", .directory [("old", .directory [("e.mdoc", .file "E".toUTF8)]),
      ("old.mdoc", .file "O".toUTF8), ("x", .directory [("f.mdoc", .file "F".toUTF8)])])])]

def prunedConfig : Config := ⟨⟨.root, ["t"]⟩, ⟨.root, ["t", "out"]⟩, ["./d/old/"], 100⟩

theorem templates_are_kept_files_of_pruned :
    (templates prunedFiles prunedConfig).Nodup ∧
      (templates prunedFiles prunedConfig).Pairwise (Precedes ⟨.root, ["t"]⟩) ∧
      (∀ p ∈ [["t", "a.mdoc"], ["t", "d", "old.mdoc"], ["t", "d", "x", "f.mdoc"]],
        ⟨.root, p⟩ ∈ templates prunedFiles prunedConfig) ∧
      ∀ p ∈ [["t", "p.p.mdoc"], ["t", "n.md"], ["t", ".h", "b.mdoc"], ["t", "out", "c.mdoc"],
        ["t", "d", "old", "e.mdoc"]], ⟨.root, p⟩ ∉ templates prunedFiles prunedConfig := by
  obtain ⟨hnodup, hordered, hmem⟩ := templates_are_kept_files prunedConfig prunedFiles (by decide)
    (by decide) (by decide)
  refine ⟨hnodup, hordered, ?_, ?_⟩
  · simp only [hmem]
    decide +kernel
  · simp only [hmem]
    decide +kernel

end Discovery

end DocPress
