import DocPress.Proofs.Path.Spelling

/-!
# Exchanging suffixes

The places below a directory whose names end with one suffix and those below another
directory with another suffix are in bijection. However a path is spelled, and wherever
it is seen from, its normal form alone decides whether it has a counterpart and which.
The directories may lie in each other.
-/

set_option autoImplicit false

namespace DocPress

namespace Path

def IsNormal (p : Path) : Prop := p.normal = p

theorem isNormal_iff {p : Path} : p.IsNormal ↔ p.anchor ≠ .relative ∧ ".." ∉ p.parts := by
  constructor
  · intro h
    refine ⟨h ▸ normal_anchor p, ?_⟩
    rw [← h, normal_parts]
    exact dotdot_not_mem_normalParts p.parts
  · rintro ⟨ha, hp⟩
    rw [IsNormal, normal_eq, if_neg ha, normalParts_of_plain hp]

theorem isNormal_normal (p : Path) : p.normal.IsNormal := normal_normal p

theorem normal_append {directory : Path} (h : directory.anchor ≠ .relative) (p : Path) :
    (directory ++ p).normal = absolute directory p := by
  have hanchor : (directory ++ p).anchor ≠ .relative := by
    rw [append_eq, join]
    split
    · exact h
    · assumption
  rw [normal_eq, absolute, if_neg hanchor]

theorem isNormal_absolute {directory : Path} (h : directory.anchor ≠ .relative) (p : Path) :
    (absolute directory p).IsNormal := normal_append h p ▸ isNormal_normal _

def IsBelow (p root : Path) : Prop := ∃ names, names ≠ [] ∧ p = root ++ ⟨.relative, names⟩

end Path

namespace Naming

/-- A path below a directory whose text ends with a suffix. -/
def IsPlace (root : Path) (suffix : String) (p : Path) : Prop :=
  p.IsBelow root ∧ endsWith p.toString suffix = true

variable {source target p q : Path} {old new : String}

theorem isPlace_iff {root : Path} {suffix : String} (hr : root.anchor ≠ .relative)
    (hs : '/' ∉ suffix.toList) : IsPlace root suffix p ↔ ∃ (names : List String)
      (stem : List Char),
        p = root ++ ⟨.relative, names ++ [String.ofList (stem ++ suffix.toList)]⟩ := by
  have hname : ∀ (names : List String) (last : String),
      endsWith (root ++ ⟨.relative, names ++ [last]⟩ : Path).toString suffix =
        endsWith last suffix := by
    intro names last
    rw [endsWith_toString_of_absolute (by exact hr) hs, Path.name_append (by simp),
      List.getLast?_concat, Option.getD_some]
  constructor
  · rintro ⟨⟨names, hne, rfl⟩, hend⟩
    obtain ⟨front, last, rfl⟩ := (List.eq_nil_or_concat names).resolve_left hne
    rw [List.concat_eq_append, hname] at hend
    obtain ⟨stem, rfl⟩ := endsWith_iff.1 hend
    exact ⟨front, stem, by rw [List.concat_eq_append]⟩
  · rintro ⟨names, stem, rfl⟩
    exact ⟨⟨_, by simp, rfl⟩, by rw [hname]; exact endsWith_iff.2 ⟨stem, rfl⟩⟩

theorem exists_corresponds_iff (hs : source.anchor ≠ .relative) (ho : '/' ∉ old.toList) :
    (∃ q, Corresponds source target old new p q) ↔ IsPlace source old p := by
  rw [isPlace_iff hs ho]
  constructor
  · rintro ⟨-, names, stem, rfl, -⟩
    exact ⟨names, stem, rfl⟩
  · rintro ⟨names, stem, rfl⟩
    exact ⟨_, names, stem, rfl, rfl⟩

theorem Corresponds.isPlace (h : Corresponds source target old new p q)
    (ht : target.anchor ≠ .relative) (hn : '/' ∉ new.toList) : IsPlace target new q :=
  (exists_corresponds_iff ht hn).1 ⟨p, h.symm⟩

theorem Corresponds.isNormal (h : Corresponds source target old new p q) (ht : target.IsNormal)
    (hp : p.IsNormal) (hn : 2 < new.toList.length) : q.IsNormal := by
  obtain ⟨names, stem, rfl, rfl⟩ := h
  rw [Path.isNormal_iff] at ht hp ⊢
  have hlast : ".." ≠ String.ofList (stem ++ new.toList) := by
    intro he
    have hl := congrArg (fun s : String => s.toList.length) he
    simp only [String.toList_ofList, List.length_append] at hl
    have htwo : "..".toList.length = 2 := by decide
    omega
  have hnames : ".." ∉ names := fun hm => hp.2 (by simp [hm])
  refine ⟨ht.1, ?_⟩
  simp only [Path.append_relative, List.mem_append, List.mem_singleton, not_or]
  exact ⟨ht.2, hnames, hlast⟩

/-- What a mapping refuses: a path outside of its directory, or a wrong name below it. -/
def Refuses (root : Path) (suffix : String) (p : Path) (f : Failure) : Prop :=
  f = .outside p root ∨ ∃ names, p = root ++ ⟨.relative, names⟩ ∧
    f = .wrongSuffix suffix (Path.toString ⟨.relative, names⟩)

theorem counterpart_refuses {f : Failure} (h : counterpart source target old new p = .error f) :
    Refuses source old p.normal f := by
  unfold counterpart at h
  dsimp only at h
  split at h
  · exact .inl (Except.error.inj h).symm
  · rename_i names hn
    split at h
    · exact .inr ⟨names, Path.below?_eq_some_iff.1 hn, (Except.error.inj h).symm⟩
    · cases h

/-- Two mappings of paths that are seen from anchored directories: the places of the one suffix
go to places of the other and back, and different places stay apart; everything else is refused. -/
structure Exchanges (forth back : Path → Except Failure Path) (source target : Path)
    (old new : String) : Prop where
  maps {cwd p : Path} : cwd.anchor ≠ .relative → IsPlace source old (Path.absolute cwd p) →
    ∃ q, forth (cwd ++ p) = .ok q ∧ q.IsNormal ∧ IsPlace target new q ∧
      back q = .ok (Path.absolute cwd p)
  separates {cwd cwd' p p' : Path} : cwd.anchor ≠ .relative → cwd'.anchor ≠ .relative →
    IsPlace source old (Path.absolute cwd p) → IsPlace source old (Path.absolute cwd' p') →
    (forth (cwd ++ p) = forth (cwd' ++ p') ↔ Path.absolute cwd p = Path.absolute cwd' p')
  refuses {cwd p : Path} : cwd.anchor ≠ .relative → ¬IsPlace source old (Path.absolute cwd p) →
    ∃ f, forth (cwd ++ p) = .error f ∧ Refuses source old (Path.absolute cwd p) f

theorem exchanges_counterpart (hs : source.IsNormal) (ht : target.IsNormal)
    (ho : '/' ∉ old.toList) (hn : '/' ∉ new.toList) (hold : old ≠ "")
    (hnew : 2 < new.toList.length) :
    Exchanges (counterpart source target old new) (counterpart target source new old)
      source target old new := by
  have hsource := (Path.isNormal_iff.1 hs).1
  have htarget := (Path.isNormal_iff.1 ht).1
  have hne : new ≠ "" := by
    rintro rfl
    exact absurd hnew (by decide)
  -- a place is mapped by its normal form to what corresponds to it
  have hmaps : ∀ {cwd p : Path}, cwd.anchor ≠ .relative →
      IsPlace source old (Path.absolute cwd p) → ∃ q,
        counterpart source target old new (cwd ++ p) = .ok q ∧
          Corresponds source target old new (Path.absolute cwd p) q := by
    intro cwd p hcwd hp
    obtain ⟨q, hq⟩ : ∃ q, Corresponds source target old new (Path.absolute cwd p) q :=
      (exists_corresponds_iff hsource ho).2 hp
    exact ⟨q, (counterpart_normal_iff hold).2 (by rwa [Path.normal_append hcwd]), hq⟩
  refine ⟨fun {cwd p} hcwd hp => ?_, fun {cwd cwd' p p'} hcwd hcwd' hp hp' => ?_,
    fun {cwd p} hcwd hp => ?_⟩
  · obtain ⟨q, hok, hq⟩ := hmaps hcwd hp
    have hnormal := hq.isNormal ht (Path.isNormal_absolute hcwd p) hnew
    refine ⟨q, hok, hnormal, hq.isPlace htarget hn, (counterpart_normal_iff hne).2 ?_⟩
    rw [hnormal]
    exact hq.symm
  · obtain ⟨q, hok, hq⟩ := hmaps hcwd hp
    obtain ⟨q', hok', hq'⟩ := hmaps hcwd' hp'
    rw [hok, hok']
    constructor
    · intro he
      obtain rfl := Except.ok.inj he
      exact hq.unique hq'
    · intro he
      rw [he] at hq
      rw [hq.symm.unique hq'.symm]
  · cases hf : counterpart source target old new (cwd ++ p) with
    | ok q =>
      have hq := (counterpart_normal_iff hold).1 hf
      rw [Path.normal_append hcwd] at hq
      exact absurd ((exists_corresponds_iff hsource ho).1 ⟨q, hq⟩) hp
    | error f =>
      refine ⟨f, rfl, ?_⟩
      rw [← Path.normal_append hcwd]
      exact counterpart_refuses hf

end Naming

namespace Config

open Naming

/-- Templates and generated files are in bijection: a path whose normal form is that of a template
has a generated file, and that one leads back to the normal form; a path to a generated file has a
template in the same way; and no other path has either. -/
theorem exchanges_templates_and_outputs {c : Config} (ht : c.templates.IsNormal)
    (ho : c.output.IsNormal) :
    Exchanges c.outputFor c.templateFor c.templates c.output templateSuffix outputSuffix ∧
      Exchanges c.templateFor c.outputFor c.output c.templates outputSuffix templateSuffix :=
  ⟨exchanges_counterpart ht ho (by decide) (by decide) (by decide) (by decide),
    exchanges_counterpart ho ht (by decide) (by decide) (by decide) (by decide)⟩

/-- The generated files lie among the templates, and a hidden template without a stem is spelled
from beside them. -/
theorem exchanges_templates_and_outputs_of_nested :
    let c : Config := ⟨⟨.root, ["p"]⟩, ⟨.root, ["p", "o"]⟩, [], 0⟩
    let cwd : Path := ⟨.root, ["p", "x"]⟩
    let t : Path := .ofString "..//o/./.mdoc"
    c.templates.IsNormal ∧ c.output.IsNormal ∧ cwd.anchor ≠ .relative ∧
      IsPlace c.templates templateSuffix (Path.absolute cwd t) ∧
      ∃ q, c.outputFor (cwd ++ t) = .ok q ∧ q.IsNormal ∧ IsPlace c.output outputSuffix q ∧
        c.templateFor q = .ok ⟨.root, ["p", "o", ".mdoc"]⟩ := by
  intro c cwd t
  have htemplates : c.templates.IsNormal := rfl
  have houtput : c.output.IsNormal := rfl
  have hplace : IsPlace c.templates templateSuffix (Path.absolute cwd t) :=
    ⟨⟨["o", ".mdoc"], by decide, by decide⟩, by decide⟩
  have hcwd : cwd.anchor ≠ .relative := by decide
  exact ⟨htemplates, houtput, hcwd, hplace,
    (exchanges_templates_and_outputs htemplates houtput).1.maps hcwd hplace⟩

end Config

end DocPress
