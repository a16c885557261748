import Mathlib.Logic.Function.Basic
import DocPress.Proofs.Dependency.Closure

/-!
# Inclusion tags whose file is no text

Resolving reads any literal on an inclusion tag as its text and looks up what that names. The scan
of a document takes texts only. So it finds each partial that some text in the document leads to,
and misses one that resolving looks up exactly if only numbers and truth values lead there.
-/

set_option autoImplicit false

namespace DocPress

namespace Reporting

variable {α β : Type}

/-- The second computation ends as the first one does, after some more notices. -/
structure Gains (k : Nat) (x y : Reporting α) : Prop where
  result : y.result = x.result
  log : ∀ a, x.result = .ok a → y.log.length = x.log.length + k

theorem gains_refl (x : Reporting α) : Gains 0 x x := ⟨rfl, fun _ _ => rfl⟩

theorem Gains.bind {k m : Nat} {x y : Reporting α} {f g : α → Reporting β} (h : Gains k x y)
    (hf : ∀ a, x.result = .ok a → Gains m (f a) (g a)) : Gains (k + m) (x >>= f) (y >>= g) := by
  cases hx : x.result with
  | error e =>
    have hy := h.result.trans hx
    rw [bind_of_error _ hx, bind_of_error _ hy]
    exact ⟨rfl, nofun⟩
  | ok a =>
    have hy := h.result.trans hx
    rw [bind_of_ok _ hx, bind_of_ok _ hy]
    refine ⟨(hf a hx).result, fun b hb => ?_⟩
    simp only [List.length_append, h.log a hx, (hf a hx).log b hb]
    omega

theorem Gains.map {k : Nat} {x y : Reporting α} (f : α → β) (h : Gains k x y) :
    Gains k (f <$> x) (f <$> y) :=
  h.bind fun a _ => gains_refl (pure (f a))

end Reporting

namespace Resolution

open Reporting

/-- Resolving a document looks a name up if what is included under it matters to the outcome. -/
def LooksUp (scope : Scope) (n : Node) (s : String) : Prop :=
  ∃ answer, resolve { scope with include_ := Function.update scope.include_ s answer } n ≠
    resolve scope n

variable {scope : Scope} {n : Node} {s : String}

theorem mem_lookups_of_looksUp (h : LooksUp scope n s) : s ∈ lookups n := by
  obtain ⟨answer, hne⟩ := h
  by_contra hs
  refine hne (resolve_congr n fun t ht => ?_).symm
  have hts : t ≠ s := fun e => hs (e ▸ ht)
  rw [Function.update_of_ne hts]

/-! ## A document that resolves has looked up all of its names -/

def noting (include_ : String → Reporting Element) (s : String) : String → Reporting Element :=
  Function.update include_ s ⟨.noTemplates :: (include_ s).log, (include_ s).result⟩

theorem gains_include (include_ : String → Reporting Element) (s t : String) :
    Gains ([t].count s) (include_ t) (noting include_ s t) := by
  by_cases h : t = s
  · subst h
    rw [noting, Function.update_self, List.count_singleton_self]
    exact ⟨rfl, fun _ _ => rfl⟩
  · rw [noting, Function.update_of_ne h, List.count_singleton, if_neg (by simpa using h)]
    exact gains_refl _

theorem gains_includeFile {file : Option Path} {attributes kept : Attributes} {hasContent : Bool}
    (h : (checkedAttributes file Schema.partialSchema attributes hasContent).result = .ok kept) :
    Gains ((partialName? attributes).toList.count s)
      (includeFile scope (Attributes.get attributes "file"))
      (includeFile { scope with include_ := noting scope.include_ s }
        (Attributes.get attributes "file")) := by
  cases he : (Attributes.get attributes "file").isEncodable with
  | true =>
    rw [partialName?_of_ok h he, includeFile_of_isEncodable he, includeFile_of_isEncodable he]
    exact gains_include scope.include_ s _
  | false =>
    rw [includeFile_of_not_isEncodable he, includeFile_of_not_isEncodable he]
    exact ⟨rfl, nofun⟩

theorem gains_tag {name : Option String} {attributes : Attributes} {children : List Node}
    {content : Option String}
    (hbelow : Gains ((lookupsAll children).count s) (resolveAll scope children)
      (resolveAll { scope with include_ := noting scope.include_ s } children)) :
    Gains ((lookups ⟨.tag, name, attributes, children, content⟩).count s)
      (resolve scope ⟨.tag, name, attributes, children, content⟩)
      (resolve { scope with include_ := noting scope.include_ s }
        ⟨.tag, name, attributes, children, content⟩) := by
  rw [← Nat.zero_add (List.count _ _)]
  simp only [lookups, resolve]
  cases hf : Schema.find? (name.getD "") with
  | none =>
    have hname : name ≠ some Schema.partialTag := by
      rintro rfl
      rw [Option.getD_some, Schema.find?_partial] at hf
      cases hf
    rw [if_neg hname, Nat.zero_add]
    exact hbelow.map _
  | some tag =>
    refine (gains_refl _).bind fun kept hkept => ?_
    by_cases ht : tag.name = Schema.partialTag
    · obtain ⟨hs, rfl⟩ := Schema.find?_eq_partial hf ht
      have hname : name = some Schema.partialTag := by
        cases name with
        | none => exact absurd hs (by decide)
        | some r => rw [← hs, Option.getD_some]
      rw [if_pos hname, if_pos ht, if_pos ht]
      exact (gains_includeFile hkept).map _
    · have hname : name ≠ some Schema.partialTag := by
        rintro rfl
        exact ht (Schema.find?_of_name hf)
      rw [if_neg hname, if_neg ht, if_neg ht]
      exact hbelow.map _

mutual

/-- One more notice under a name is heard as often as the name is looked up. -/
theorem gains_resolve (scope : Scope) (s : String) : ∀ n : Node,
    Gains ((lookups n).count s) (resolve scope n)
      (resolve { scope with include_ := noting scope.include_ s } n)
  | ⟨kind, name, attributes, children, content⟩ => by
    cases kind with
    | text | function | fence | code | softBreak | image => exact gains_refl _
    | tag => exact gains_tag (gains_resolveAll scope s children)
    | _ => exact (gains_resolveAll scope s children).map _

theorem gains_resolveAll (scope : Scope) (s : String) : ∀ ns : List Node,
    Gains ((lookupsAll ns).count s) (resolveAll scope ns)
      (resolveAll { scope with include_ := noting scope.include_ s } ns)
  | [] => gains_refl _
  | n :: ns => by
    rw [lookupsAll, List.count_append, resolveAll, resolveAll]
    exact (gains_resolve scope s n).bind fun r _ =>
      (gains_resolveAll scope s ns).map fun es => r.elements ++ es

end

theorem looksUp_iff_of_ok {r : Resolved} (h : (resolve scope n).result = .ok r) :
    LooksUp scope n s ↔ s ∈ lookups n := by
  refine ⟨mem_lookups_of_looksUp, fun hs =>
    ⟨⟨.noTemplates :: (scope.include_ s).log, (scope.include_ s).result⟩, fun he => ?_⟩⟩
  have hlog := (gains_resolve scope s n).log r h
  have hpos := List.count_pos_iff.2 hs
  rw [noting, he] at hlog
  omega

end Resolution

namespace Dependency

open Compilation Resolution

def target (directory : Path) (file : String) : Path := (directory ++ Path.ofString file).real

theorem exists_partials_iff (directory : Path) (n : Node) :
    (∃ ps, partials directory n = .ok ps) ↔
      ∀ x ∈ n.walk, ∀ r, Names x r → (Attributes.get x.attributes "file").isEncodable = true ∧
        (directory ++ Path.ofString r).hasNul = false := by
  constructor
  · rintro ⟨ps, hps⟩ x hx r hr
    have hfile := (partials_eq_ok_iff.1 hps).1 _ (hr.mem_included hx)
    rwa [hr.display_eq] at hfile
  · intro h
    refine exists_partials fun file hfile => ?_
    obtain ⟨x, hx, rfl, hr⟩ := mem_filterMap_included.1 hfile
    exact ⟨_, place_eq_ok_iff.2 ⟨h x hx _ hr, rfl⟩⟩

theorem mem_partials_iff {directory : Path} {n : Node} {ps : List Path}
    (h : partials directory n = .ok ps) (p : Path) :
    p ∈ ps ↔ ∃ x ∈ n.walk, ∃ r, Names x r ∧ target directory r = p := by
  rw [mem_partials h]
  constructor
  · rintro ⟨file, hfile, hp⟩
    obtain ⟨x, hx, -, hr⟩ := mem_filterMap_included.1 hfile
    exact ⟨x, hx, file.display, hr, hp⟩
  · rintro ⟨x, hx, r, hr, rfl⟩
    exact ⟨_, hr.mem_included hx, by rw [hr.display_eq, target]⟩

/-- What resolving a document in a place looks up is spelled by a literal on one of its inclusion
tags. The scan of the document fails only if the path that a text on an inclusion tag writes has a
NUL in it, or a surrogate that cannot be encoded. It otherwise finds what is looked up exactly if a
text on some inclusion tag leads there, so always if none but texts spell it; what numbers and
truth values alone lead to is missed. -/
theorem looked_up_is_found_iff (files : FileTree) (depth : Nat) (place : Place)
    (index : Reference.Index) (n : Node) (s : String)
    (h : LooksUp (scope place index (includePartial files depth place index)) n s) :
    (∃ x ∈ n.walk, Spells x s) ∧
    ((∃ ps, partials place.directory n = .ok ps) ↔
      ∀ x ∈ n.walk, ∀ r, Names x r → (Attributes.get x.attributes "file").isEncodable = true ∧
        (place.directory ++ Path.ofString r).hasNul = false) ∧
    ∀ ps, partials place.directory n = .ok ps →
      (target place.directory s ∈ ps ↔
        ∃ x ∈ n.walk, ∃ r, Names x r ∧ target place.directory r = target place.directory s) ∧
      ((∀ x ∈ n.walk, Spells x s → Names x s) → target place.directory s ∈ ps) := by
  obtain ⟨x, hx, hspells⟩ := exists_spells_of_lookups n (mem_lookups_of_looksUp h)
  refine ⟨⟨x, hx, hspells⟩, exists_partials_iff place.directory n, fun ps hps =>
    ⟨mem_partials_iff hps _, fun htexts => ?_⟩⟩
  exact (mem_partials_iff hps _).2 ⟨x, hx, s, htexts x hx hspells, rfl⟩

def including (files : List Value) : Node where
  kind := .document
  children := files.map fun v =>
    { kind := .tag, name := some Schema.partialTag, attributes := [("file", v)] }

def docsPlace : Place := ⟨⟨.root, ["docs"]⟩, []⟩

def docsScope : Scope := scope docsPlace [] (includePartial .empty 1 docsPlace [])

theorem looksUp_including (files : List Value) {s : String}
    (h : ((resolve docsScope (including files)).result.toOption.isSome &&
      (lookups (including files)).contains s) = true) : LooksUp docsScope (including files) s := by
  rw [Bool.and_eq_true, List.contains_iff_mem] at h
  obtain ⟨r, hr⟩ := Option.isSome_iff_exists.1 h.1
  exact (looksUp_iff_of_ok (eq_ok_of_toOption hr)).2 h.2

/-- Of two partials, one named by a text and one by a number, the scan finds the first only. -/
theorem looked_up_is_found_of_text :
    ∃ ps, partials docsPlace.directory (including [.string "p.p.mdoc", .int 5]) = .ok ps ∧
      target docsPlace.directory "p.p.mdoc" ∈ ps ∧ target docsPlace.directory "5" ∉ ps := by
  obtain ⟨-, -, htext⟩ := looked_up_is_found_iff .empty 1 docsPlace [] _ "p.p.mdoc"
    (looksUp_including [.string "p.p.mdoc", .int 5] (by decide +kernel))
  obtain ⟨-, -, hnumber⟩ := looked_up_is_found_iff .empty 1 docsPlace [] _ "5"
    (looksUp_including [.string "p.p.mdoc", .int 5] (by decide +kernel))
  refine ⟨_, rfl, (htext _ rfl).1.2 ?_, fun hm => ?_⟩
  · exact ⟨_, List.mem_cons_of_mem _ (List.mem_cons_self ..), "p.p.mdoc",
      ⟨rfl, rfl, by decide⟩, rfl⟩
  · obtain ⟨x, hx, r, ⟨-, hfile, -⟩, hr⟩ := (hnumber _ rfl).1.1 hm
    simp only [including, Node.walk, Node.walkAll, List.map_cons, List.map_nil, List.append_nil,
      List.cons_append, List.nil_append, List.mem_cons, List.not_mem_nil, or_false] at hx
    rcases hx with rfl | rfl | rfl
    · cases hfile
    · obtain rfl : "p.p.mdoc" = r := Option.some.inj hfile
      exact absurd hr (by decide +kernel)
    · cases hfile

/-- A partial that is named by a number alone is looked up and not found. -/
theorem looked_up_is_missed : ¬ ∀ (files : FileTree) (depth : Nat) (place : Place)
    (index : Reference.Index) (n : Node) (s : String),
    LooksUp (scope place index (includePartial files depth place index)) n s →
      ∃ ps, partials place.directory n = .ok ps ∧ target place.directory s ∈ ps := by
  intro h
  obtain ⟨ps, hps, hmem⟩ := h .empty 1 docsPlace [] (including [.int 5]) "5"
    (looksUp_including [.int 5] (by decide +kernel))
  obtain rfl := Except.ok.inj hps
  exact absurd hmem (by decide +kernel)

end Dependency

end DocPress
