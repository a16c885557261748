import DocPress.Resolution

/-!
# What a document includes

Resolving a document looks up the partials of its inclusion tags, except of
those inside another one. The names it looks up are a function of the tree, and
nothing else of the way partials are included matters to the result.
-/

set_option autoImplicit false

namespace DocPress

namespace Schema

def partialSchema : Tag := ⟨partialTag, ["file"], ["file"], false⟩

theorem find?_partial : find? partialTag = some partialSchema := by decide

theorem find?_of_name {s : String} {tag : Tag} (h : find? s = some tag) : tag.name = s := by
  simpa using List.find?_some h

theorem find?_eq_partial {s : String} {tag : Tag} (h : find? s = some tag)
    (hn : tag.name = partialTag) : s = partialTag ∧ tag = partialSchema := by
  have hs : s = partialTag := (find?_of_name h).symm.trans hn
  rw [hs, find?_partial] at h
  exact ⟨hs, (Option.some.inj h).symm⟩

end Schema

namespace Resolution

/-- The name under which an inclusion tag looks its partial up, if it has one that can be
encoded. -/
def partialName? (attributes : Attributes) : Option String :=
  let file := Attributes.get attributes "file"
  if file.isEncodable then
    match declaredValue file with
    | .string s => if s = "" then none else some s
    | _ => none
  else none

mutual

def lookups : Node → List String
  | ⟨kind, name, attributes, children, _⟩ =>
    match kind with
    | .text | .function | .fence | .code | .softBreak | .image => []
    | .tag =>
      if name = some Schema.partialTag then (partialName? attributes).toList
      else lookupsAll children
    | _ => lookupsAll children

def lookupsAll : List Node → List String
  | [] => []
  | n :: ns => lookups n ++ lookupsAll ns

end

/-! ## The attributes of an inclusion tag -/

theorem get_declared (attributes : Attributes) :
    Attributes.get (declared Schema.partialSchema attributes) "file" =
      declaredValue (Attributes.get attributes "file") := by
  unfold Attributes.get Ordered.get? declared
  induction attributes with
  | nil => rfl
  | cons a attributes ih =>
    obtain ⟨key, v⟩ := a
    by_cases hk : key = "file"
    · subst hk
      rfl
    · have hb : (("file" : String) == key) = false := by simpa using fun e => hk (Eq.symm e)
      rw [List.filter_cons_of_neg (by simpa [Schema.partialSchema] using hk), ih, List.lookup_cons,
        hb]

theorem checkedAttributes_ok {file : Option Path} {tag : Schema.Tag} {attributes kept : Attributes}
    {hasContent : Bool} (h : (checkedAttributes file tag attributes hasContent).result = .ok kept) :
    kept = declared tag attributes ∧ missing tag (declared tag attributes) = [] := by
  unfold checkedAttributes at h
  dsimp only at h
  split at h
  · rename_i hm
    exact ⟨(Except.ok.inj h).symm, hm⟩
  · cases h

theorem isGiven_of_missing {tag : Schema.Tag} {attributes : Attributes} {key : String}
    (hk : key ∈ tag.required) (h : missing tag attributes = []) :
    isGiven attributes key = true := by
  unfold missing at h
  have hp := List.mergeSort_perm (tag.required.filter fun key => !isGiven attributes key)
    fun a b => decide (a ≤ b)
  rw [h] at hp
  have hnil := hp.nil_eq
  cases hg : isGiven attributes key with
  | true => rfl
  | false =>
    have hm : key ∈ tag.required.filter fun key => !isGiven attributes key :=
      List.mem_filter.2 ⟨hk, by simp [hg]⟩
    rw [← hnil] at hm
    cases hm

theorem declaredValue_of_ne_null {v : Value} (h : v ≠ .null) :
    declaredValue v = .string v.display := by
  cases v <;> first | rfl | exact absurd rfl h

theorem partialName?_eq_some_iff {attributes : Attributes} {s : String} :
    partialName? attributes = some s ↔
      (Attributes.get attributes "file").isEncodable = true ∧
        Attributes.get attributes "file" ≠ .null ∧
        (Attributes.get attributes "file").display = s ∧ s ≠ "" := by
  unfold partialName?
  dsimp only
  cases (Attributes.get attributes "file").isEncodable with
  | false => simp
  | true =>
    rw [if_pos rfl, and_iff_right rfl]
    by_cases hnull : Attributes.get attributes "file" = .null
    · simp [hnull, declaredValue]
    · simp only [declaredValue_of_ne_null hnull, Option.ite_none_left_eq_some, Option.some.injEq]
      grind

theorem partialName?_of_ok {file : Option Path} {attributes kept : Attributes} {hasContent : Bool}
    (h : (checkedAttributes file Schema.partialSchema attributes hasContent).result = .ok kept)
    (he : (Attributes.get attributes "file").isEncodable = true) :
    partialName? attributes = some (Attributes.get attributes "file").display := by
  obtain ⟨rfl, hm⟩ := checkedAttributes_ok h
  have hg : isGiven (declared Schema.partialSchema attributes) "file" = true :=
    isGiven_of_missing (by simp [Schema.partialSchema]) hm
  unfold isGiven at hg
  rw [get_declared] at hg
  have hnull : Attributes.get attributes "file" ≠ .null := by
    intro hn
    rw [hn] at hg
    cases hg
  rw [declaredValue_of_ne_null hnull] at hg
  exact partialName?_eq_some_iff.2 ⟨he, hnull, rfl, by simpa using hg⟩

/-! ## Including partials in another way -/

section

variable {scope : Scope} {include_ : String → Reporting Element}

theorem includeFile_of_isEncodable {file : Value} (h : file.isEncodable = true) :
    includeFile scope file = scope.include_ file.display := if_pos h

theorem includeFile_of_not_isEncodable {file : Value} (h : file.isEncodable = false) :
    includeFile scope file = .fail .unencodable := if_neg (by simp [h])

theorem include_of_includeFile {file : Value} {e : Element}
    (h : (includeFile scope file).result = .ok e) :
    file.isEncodable = true ∧ (scope.include_ file.display).result = .ok e := by
  cases he : file.isEncodable with
  | true => exact ⟨rfl, includeFile_of_isEncodable he ▸ h⟩
  | false =>
    rw [includeFile_of_not_isEncodable he] at h
    cases h

theorem includeFile_congr {file : Value} (h : file.isEncodable = true →
    scope.include_ file.display = include_ file.display) :
    includeFile scope file = includeFile { scope with include_ := include_ } file := by
  cases he : file.isEncodable with
  | true => simp only [includeFile_of_isEncodable he, h he]
  | false => simp only [includeFile_of_not_isEncodable he]

mutual

theorem resolve_congr (n : Node) (h : ∀ s ∈ lookups n, scope.include_ s = include_ s) :
    resolve scope n = resolve { scope with include_ := include_ } n := by
  obtain ⟨kind, name, attributes, children, content⟩ := n
  cases kind with
  | text | function | fence | code | softBreak | image => rfl
  | tag =>
    simp only [lookups] at h
    simp only [resolve]
    cases hf : Schema.find? (name.getD "") with
    | none =>
      have hn : name ≠ some Schema.partialTag := by
        rintro rfl
        rw [Option.getD_some, Schema.find?_partial] at hf
        cases hf
      rw [if_neg hn] at h
      simp only [resolveAll_congr children h]
    | some tag =>
      by_cases ht : tag.name = Schema.partialTag
      · obtain ⟨hs, rfl⟩ := Schema.find?_eq_partial hf ht
        have hn : name = some Schema.partialTag := by
          cases name with
          | none => exact absurd hs (by decide)
          | some s => rw [← hs, Option.getD_some]
        rw [if_pos hn] at h
        dsimp only
        cases hc : (checkedAttributes scope.file Schema.partialSchema attributes
            (!children.isEmpty)).result with
        | error f =>
          rw [Reporting.bind_of_error _ hc, Reporting.bind_of_error _ hc]
        | ok kept =>
          have hk : (Attributes.get attributes "file").isEncodable = true → _ :=
            fun he => h (Attributes.get attributes "file").display
              (by simp [partialName?_of_ok hc he])
          simp only [Reporting.bind_of_ok _ hc, if_pos ht, includeFile_congr hk]
      · have hn : name ≠ some Schema.partialTag := by
          rintro rfl
          exact ht (Schema.find?_of_name hf)
        rw [if_neg hn] at h
        simp only [if_neg ht, resolveAll_congr children h]
  | _ =>
    simp only [lookups] at h
    simp only [resolve, containerName?, resolveAll_congr children h]

theorem resolveAll_congr (ns : List Node) (h : ∀ s ∈ lookupsAll ns, scope.include_ s = include_ s) :
    resolveAll scope ns = resolveAll { scope with include_ := include_ } ns := by
  cases ns with
  | nil => rfl
  | cons n ns =>
    rw [lookupsAll] at h
    rw [resolveAll, resolveAll,
      resolve_congr n fun s hs => h s (List.mem_append_left _ hs),
      resolveAll_congr ns fun s hs => h s (List.mem_append_right _ hs)]

end

end

end Resolution

end DocPress
