import DocPress.Proofs.Discovery

/-!
# Templates and their generated files

A template and its generated file have the same names below two directories,
except for the suffix of the last one. So either is known from the other: no two
templates share a generated file, and the two mappings undo each other.
-/

set_option autoImplicit false

namespace DocPress

namespace Config

/-- The directories of a configuration are places that paths can lead to. -/
structure Rooted (c : Config) : Prop where
  templates : c.templates.IsReal
  output : c.output.IsReal
  templates_hasNul : c.templates.hasNul = false
  output_hasNul : c.output.hasNul = false

theorem directory_ok {base p : Path} {name : String} (h : directory base name = .ok p) :
    p.IsReal ∧ p.hasNul = false := by
  unfold directory at h
  dsimp only at h
  split at h
  · cases h
  · rename_i hn
    obtain rfl := Except.ok.inj h
    exact ⟨Path.isReal_real _, Path.hasNul_real (by simpa using hn)⟩

theorem rooted_of_ofEntries {base : Path} {context : String} {entries : Attributes} {c : Config}
    (h : ofEntries base context entries = .ok c) : c.Rooted := by
  simp only [ofEntries, bind, Except.bind, pure, Except.pure, throw, throwThe,
    MonadExceptOf.throw] at h
  split at h
  · cases h
  · split at h
    · cases h
    · split at h
      · split at h
        · cases h
        · split at h
          · cases h
          · split at h
            · cases h
            · rename_i templates ht
              split at h
              · cases h
              · rename_i output ho
                obtain rfl := Except.ok.inj h
                obtain ⟨hr, hn⟩ := directory_ok ht
                obtain ⟨hr', hn'⟩ := directory_ok ho
                exact ⟨hr, hr', hn, hn'⟩
      · cases h

/-- Every configuration that can be read has its directories rooted. -/
theorem rooted_of_ofValue {base : Path} {context : String} {v : Value} {c : Config}
    (h : ofValue base context v = .ok c) : c.Rooted := by
  unfold ofValue at h
  split at h
  · cases h
  · split at h
    · simp only [bind, Except.bind, throw, throwThe, MonadExceptOf.throw] at h
      split at h
      · cases h
      · split at h
        · cases h
        · split at h
          · exact rooted_of_ofEntries h
          · cases h
    · cases h

end Config

namespace Naming

theorem endsWith_iff {s suffix : String} :
    endsWith s suffix = true ↔ ∃ stem, s = String.ofList (stem ++ suffix.toList) := by
  unfold endsWith
  rw [List.isSuffixOf_iff_suffix]
  constructor
  · rintro ⟨stem, h⟩
    exact ⟨stem, by rw [h, String.ofList_toList]⟩
  · rintro ⟨stem, rfl⟩
    exact ⟨stem, by rw [String.toList_ofList]⟩

theorem swapSuffix?_iff {old new name swapped : String} :
    swapSuffix? old new name = some swapped ↔
      ∃ stem, name = String.ofList (stem ++ old.toList) ∧
        swapped = String.ofList (stem ++ new.toList) := by
  unfold swapSuffix?
  constructor
  · intro h
    split at h
    · rename_i he
      obtain ⟨stem, rfl⟩ := endsWith_iff.1 he
      refine ⟨stem, rfl, ?_⟩
      have hs := Option.some.inj h
      simp only [String.toList_ofList, List.length_append, Nat.add_sub_cancel,
        List.take_left] at hs
      exact hs.symm
    · cases h
  · rintro ⟨stem, rfl, rfl⟩
    rw [if_pos (endsWith_iff.2 ⟨stem, rfl⟩)]
    simp

/-- Two paths below two directories that differ in the suffix of their last name. -/
def Corresponds (source target : Path) (old new : String) (p q : Path) : Prop :=
  ∃ (names : List String) (stem : List Char),
    p = source ++ ⟨.relative, names ++ [String.ofList (stem ++ old.toList)]⟩ ∧
      q = target ++ ⟨.relative, names ++ [String.ofList (stem ++ new.toList)]⟩

section

variable {source target p p' q : Path} {old new : String}

theorem Corresponds.symm (h : Corresponds source target old new p q) :
    Corresponds target source new old q p := by
  obtain ⟨names, stem, hp, hq⟩ := h
  exact ⟨names, stem, hq, hp⟩

theorem Corresponds.unique (h : Corresponds source target old new p q)
    (h' : Corresponds source target old new p' q) : p = p' := by
  obtain ⟨names, stem, rfl, rfl⟩ := h
  obtain ⟨names', stem', rfl, he⟩ := h'
  have hparts := Discovery.append_relative_injective target he
  obtain ⟨rfl, hlast⟩ := List.append_inj' hparts rfl
  have hchars := String.ofList_injective (List.cons.inj hlast).1
  rw [List.append_cancel_right hchars]

/-- A path is mapped by its normal form, to the path that this one corresponds to. -/
theorem counterpart_normal_iff (ho : old ≠ "") :
    counterpart source target old new p = .ok q ↔
      Corresponds source target old new p.normal q := by
  unfold counterpart
  dsimp only
  constructor
  · intro h
    split at h
    · cases h
    · rename_i names hn
      rw [Path.below?_eq_some_iff] at hn
      split at h
      · cases h
      · rename_i name hs
        obtain ⟨stem, hold, rfl⟩ := swapSuffix?_iff.1 hs
        obtain rfl := Except.ok.inj h
        rcases List.eq_nil_or_concat names with rfl | ⟨front, last, rfl⟩
        · have hl := congrArg String.toList hold
          have hnil : old.toList = [] := by simp_all
          exact absurd (String.toList_eq_nil_iff.1 hnil) ho
        · simp only [List.concat_eq_append, List.getLast?_concat, Option.getD_some] at hold hn
          subst hold
          exact ⟨front, stem, hn, by simp⟩
  · rintro ⟨names, stem, hp, rfl⟩
    rw [Path.below?_eq_some_iff.2 hp]
    simp only [List.getLast?_concat, Option.getD_some, List.dropLast_concat]
    rw [swapSuffix?_iff.2 ⟨stem, rfl, rfl⟩]

theorem counterpart_iff (hp : p.IsReal) (ho : old ≠ "") :
    counterpart source target old new p = .ok q ↔ Corresponds source target old new p q := by
  rw [counterpart_normal_iff ho, hp.normal_eq]

theorem Corresponds.isReal (h : Corresponds source target old new p q) (ht : target.IsReal)
    (hp : p.IsReal) (hn : 2 < new.toList.length) : q.IsReal := by
  obtain ⟨names, stem, rfl, rfl⟩ := h
  refine ⟨ht.1, ?_⟩
  have hnames : ".." ∉ names := fun hm => hp.2 (by simp [hm])
  have hlast : ".." ≠ String.ofList (stem ++ new.toList) := by
    intro he
    have hl := congrArg (fun s : String => s.toList.length) he
    simp only [String.toList_ofList, List.length_append] at hl
    have htwo : "..".toList.length = 2 := by decide
    omega
  simp only [Path.append_relative, List.mem_append, List.mem_singleton]
  rintro (hm | hm | hm)
  · exact ht.2 hm
  · exact hnames hm
  · exact hlast hm

theorem Corresponds.hasNul (h : Corresponds source target old new p q)
    (ht : target.hasNul = false) (hp : p.hasNul = false) (hn : new.toList.contains '\x00' = false) :
    q.hasNul = false := by
  obtain ⟨names, stem, rfl, rfl⟩ := h
  simp only [Path.hasNul, Path.append_relative, List.any_append, List.any_cons, List.any_nil,
    String.toList_ofList, List.contains_eq_mem, List.mem_append, Bool.or_eq_false_iff,
    decide_eq_false_iff_not, not_or] at ht hp hn ⊢
  exact ⟨ht, hp.2.1, ⟨hp.2.2.1.1, hn⟩, trivial⟩

end

/-- A name ends with one of two suffixes of the same length at most. -/
theorem not_isOutput_of_endsWith {s : String} (h : endsWith s templateSuffix = true) :
    isOutput s = false := by
  cases ho : isOutput s with
  | false => rfl
  | true =>
    simp only [isOutput, endsWith, List.isSuffixOf_iff_suffix] at h ho
    have hs := List.suffix_of_suffix_length_le h ho (by decide)
    exact absurd hs (by decide)

theorem isPartial_of_isTemplate {s : String} (h : isTemplate s = true) : isPartial s = false := by
  rw [isTemplate, Bool.and_eq_true, Bool.not_eq_true'] at h
  exact h.2

theorem endsWith_of_isTemplate {s : String} (h : isTemplate s = true) :
    endsWith s templateSuffix = true := (Bool.and_eq_true_iff.1 h).1

end Naming

namespace Path

theorem ne_dotdot_of_isEntryName {name : String} (h : isEntryName name = true) : ".." ≠ name := by
  rintro rfl
  exact absurd h (by decide)

theorem isReal_of_isEntryName {p : Path} (ha : p.anchor = .root)
    (h : ∀ name ∈ p.parts, isEntryName name = true) : p.IsReal ∧ p.hasNul = false := by
  refine ⟨⟨ha, fun hm => ne_dotdot_of_isEntryName (h _ hm) rfl⟩, ?_⟩
  rw [hasNul, List.any_eq_false]
  intro name hm hc
  have hn := h name hm
  rw [List.contains_eq_mem, decide_eq_true_iff] at hc
  simp only [isEntryName, Bool.and_eq_true, List.all_eq_true] at hn
  exact absurd (hn.2 _ hc).2 (by decide)

theorem name_append {p : Path} {names : List String} (h : names ≠ []) :
    (p ++ ⟨.relative, names⟩ : Path).name = names.getLast?.getD "" := by
  obtain ⟨front, last, rfl⟩ := List.eq_nil_or_concat names |>.resolve_left h
  rw [List.concat_eq_append, name, append_relative]
  simp only
  rw [← List.append_assoc, List.getLast?_concat, List.getLast?_concat]

end Path

namespace Discovery

variable {c : Config} {p q : Path}

theorem isTemplate_name (h : IsTemplate c p) : Naming.isTemplate p.name = true := by
  obtain ⟨names, rfl, hat⟩ := h
  rw [Path.name_append fun e => not_isTemplateAt_nil [] (e ▸ hat)]
  exact hat.1

theorem isOutput_name (h : IsGenerated c p) : Naming.isOutput p.name = true := by
  obtain ⟨names, rfl, ho⟩ := h
  rw [Path.name_append (by rintro rfl; exact absurd ho (by decide))]
  exact ho

theorem not_isGenerated_of_isTemplate (h : IsTemplate c p) : ¬IsGenerated c p := by
  intro hg
  have hn := Naming.not_isOutput_of_endsWith (Naming.endsWith_of_isTemplate (isTemplate_name h))
  rw [isOutput_name hg] at hn
  cases hn

theorem isReal_of_mem_templates {files : FileTree} (hf : files.isProper = true)
    (hc : c.templates.IsReal) (h : p ∈ templates files c) : p.IsReal ∧ p.hasNul = false := by
  obtain ⟨⟨names, rfl, -⟩, b, hb⟩ := (mem_templates hf hc).1 h
  exact Path.isReal_of_isEntryName hc.1 (FileTree.isEntryName_of_at? hf (by rw [hb]; simp))

theorem isFile_of_mem_templates {files : FileTree} (hc : c.Rooted) (hf : files.isProper = true)
    (h : p ∈ templates files c) : files.isFile p = true :=
  (FileTree.isFile_iff_at? (isReal_of_mem_templates hf hc.templates h).1).2
    ((mem_templates hf hc.templates).1 h).2

end Discovery

/-! ## The two mappings -/

namespace Config

open Naming Discovery

variable {c : Config} {t u out : Path}

theorem outputFor_iff (ht : t.IsReal) : c.outputFor t = .ok out ↔
    Corresponds c.templates c.output templateSuffix outputSuffix t out :=
  counterpart_iff ht (by decide)

theorem templateFor_iff (ho : out.IsReal) : c.templateFor out = .ok t ↔
    Corresponds c.output c.templates outputSuffix templateSuffix out t :=
  counterpart_iff ho (by decide)

theorem isReal_of_outputFor (hc : c.Rooted) (ht : t.IsReal) (h : c.outputFor t = .ok out) :
    out.IsReal :=
  ((outputFor_iff ht).1 h).isReal hc.output ht (by decide)

theorem isReal_of_templateFor (hc : c.Rooted) (ho : out.IsReal) (h : c.templateFor out = .ok t) :
    t.IsReal :=
  ((templateFor_iff ho).1 h).isReal hc.templates ho (by decide)

theorem hasNul_of_outputFor (hc : c.Rooted) (ht : t.IsReal) (hn : t.hasNul = false)
    (h : c.outputFor t = .ok out) : out.hasNul = false :=
  ((outputFor_iff ht).1 h).hasNul hc.output_hasNul hn (by decide)

/-- What a generated file is generated from is not generated. -/
theorem not_isGenerated_of_templateFor (ho : out.IsReal) (h : c.templateFor out = .ok t) :
    ¬IsGenerated c t := by
  obtain ⟨names, stem, -, rfl⟩ := (templateFor_iff ho).1 h
  intro hg
  have hname := isOutput_name hg
  rw [Path.name_append (by simp), List.getLast?_concat, Option.getD_some,
    not_isOutput_of_endsWith (endsWith_iff.2 ⟨stem, rfl⟩)] at hname
  cases hname

theorem outputFor_inj (ht : t.IsReal) (hu : u.IsReal) (h : c.outputFor t = .ok out)
    (h' : c.outputFor u = .ok out) : t = u :=
  ((outputFor_iff ht).1 h).unique ((outputFor_iff hu).1 h')

theorem templateFor_of_outputFor (hc : c.Rooted) (ht : t.IsReal) (h : c.outputFor t = .ok out) :
    c.templateFor out = .ok t :=
  (templateFor_iff (isReal_of_outputFor hc ht h)).2 ((outputFor_iff ht).1 h).symm

theorem isGenerated_of_outputFor (ht : t.IsReal) (h : c.outputFor t = .ok out) :
    IsGenerated c out := by
  obtain ⟨names, stem, -, rfl⟩ := (outputFor_iff ht).1 h
  refine ⟨_, rfl, ?_⟩
  rw [List.getLast?_concat, Option.getD_some]
  exact endsWith_iff.2 ⟨stem, rfl⟩

def IsSourcePlace (c : Config) (t : Path) : Prop :=
  ∃ names, t.normal = c.templates ++ ⟨.relative, names⟩ ∧
    endsWith (names.getLast?.getD "") templateSuffix = true

/-- The place of the generated file is told from the real form of a path. -/
theorem outputFor_real (hc : c.Rooted) (h : t.normal.anchor = c.templates.anchor) :
    c.outputFor t.real = c.outputFor t := by
  have hnormal : t.normal = t.real := by
    rw [Path.real_eq, ← hc.templates.1, ← h, ← Path.normal_parts]
  unfold outputFor counterpart
  rw [(Path.isReal_real t).normal_eq, hnormal]

theorem outputFor_real_of_ok (hc : c.Rooted) (h : c.outputFor t = .ok out) :
    c.outputFor t.real = .ok out := by
  rw [outputFor_real hc, h]
  unfold outputFor counterpart at h
  dsimp only at h
  split at h
  · cases h
  · rename_i names hn
    rw [Path.below?_eq_some_iff.1 hn]
    rfl

/-- Every place of a template or a partial has a place for a generated file. -/
theorem IsSourcePlace.exists_outputFor (hc : c.Rooted) (h : c.IsSourcePlace t) :
    ∃ out, c.outputFor t = .ok out := by
  obtain ⟨names, ht, hname⟩ := h
  rw [← outputFor_real hc (by rw [ht]; rfl)]
  have hreal : t.real = c.templates ++ ⟨.relative, names⟩ := by
    rw [Path.real_eq, ← Path.normal_parts, ht, ← hc.templates.1]
    rfl
  obtain ⟨front, last, rfl⟩ := (List.eq_nil_or_concat names).resolve_left
    (by rintro rfl; exact absurd hname (by decide))
  rw [List.concat_eq_append, List.getLast?_concat, Option.getD_some] at hname
  obtain ⟨stem, rfl⟩ := endsWith_iff.1 hname
  rw [List.concat_eq_append] at hreal
  exact ⟨_, (outputFor_iff (Path.isReal_real t)).2 ⟨front, stem, hreal, rfl⟩⟩

theorem isSourcePlace_of_isTemplate (ht : t.IsReal) (h : IsTemplate c t) : c.IsSourcePlace t := by
  obtain ⟨names, rfl, hat⟩ := h
  exact ⟨names, ht.normal_eq, endsWith_of_isTemplate hat.1⟩

theorem exists_templateFor (ho : out.IsReal) (h : IsGenerated c out) :
    ∃ t, c.templateFor out = .ok t := by
  obtain ⟨names, rfl, hname⟩ := h
  obtain ⟨front, last, rfl⟩ := (List.eq_nil_or_concat names).resolve_left
    (by rintro rfl; exact absurd hname (by decide))
  rw [List.concat_eq_append, List.getLast?_concat, Option.getD_some] at hname
  obtain ⟨stem, rfl⟩ := endsWith_iff.1 hname
  rw [List.concat_eq_append] at ho ⊢
  exact ⟨_, (templateFor_iff ho).2 ⟨front, stem, rfl, rfl⟩⟩

end Config

end DocPress
