import DocPress.Proofs.Resolution

/-!
# How resolving ends

The inclusion tags of a document that are not inside another one are the ones whose partials
are looked up. If each of them names a file and each call has its arguments, resolving the
document ends as its look-ups do: it succeeds if all of them succeed, and else it fails with
the failure of one of them.
-/

set_option autoImplicit false

namespace DocPress

namespace Reporting

variable {α β : Type}

theorem error_of_map {f : α → β} {x : Reporting α} {e : Failure} (h : x.result = .error e) :
    (f <$> x).result = .error e := by
  rw [map_result, h]
  rfl

theorem bind_congr_of_ok {x : Reporting α} {f g : α → Reporting β}
    (h : ∀ a, x.result = .ok a → f a = g a) : x >>= f = x >>= g := by
  cases hx : x.result with
  | ok a => rw [bind_of_ok _ hx, bind_of_ok _ hx, h a hx]
  | error e => rw [bind_of_error _ hx, bind_of_error _ hx]

end Reporting

namespace Resolution

mutual

/-- The inclusion tags of a tree that are not inside another one, in document order. -/
def outerTags : Node → List Node
  | ⟨kind, name, attributes, children, content⟩ =>
    if kind = .tag ∧ name = some Schema.partialTag then
      [⟨kind, name, attributes, children, content⟩]
    else outerTagsAll children

def outerTagsAll : List Node → List Node
  | [] => []
  | n :: ns => outerTags n ++ outerTagsAll ns

end

/-- A node without children, unless its kind is one that may have some. -/
def IsLeafless (n : Node) : Prop := n.kind ∈ leafKinds → n.children = []

mutual

theorem lookups_eq_filterMap : ∀ n : Node, (∀ m ∈ n.walk, IsLeafless m) →
    lookups n = (outerTags n).filterMap fun x => partialName? x.attributes
  | ⟨kind, name, attributes, children, content⟩, h => by
    rw [Node.walk, List.forall_mem_cons] at h
    have hbelow := lookupsAll_eq_filterMap children h.2
    rw [outerTags]
    by_cases hn : kind = .tag ∧ name = some Schema.partialTag
    · obtain ⟨rfl, rfl⟩ := hn
      cases hp : partialName? attributes <;> simp [lookups, hp]
    · rw [if_neg hn, ← hbelow]
      cases kind with
      | text | function | fence | code | softBreak | image =>
        obtain rfl : children = [] := h.1 (by simp [leafKinds])
        rfl
      | tag => rw [lookups, if_neg fun hname => hn ⟨rfl, hname⟩]
      | _ => rfl

theorem lookupsAll_eq_filterMap : ∀ ns : List Node, (∀ m ∈ Node.walkAll ns, IsLeafless m) →
    lookupsAll ns = (outerTagsAll ns).filterMap fun x => partialName? x.attributes
  | [], _ => rfl
  | n :: ns, h => by
    rw [Node.walkAll, List.forall_mem_append] at h
    rw [lookupsAll, outerTagsAll, List.filterMap_append, lookups_eq_filterMap n h.1,
      lookupsAll_eq_filterMap ns h.2]

end

/-! ## The attributes of tags -/

theorem exists_checkedAttributes_of_partialName? (file : Option Path) {attributes : Attributes}
    (hasContent : Bool) (h : (partialName? attributes).isSome = true) :
    ∃ kept, (checkedAttributes file Schema.partialSchema attributes hasContent).result =
      .ok kept := by
  have hgiven : isGiven (declared Schema.partialSchema attributes) "file" = true := by
    obtain ⟨s, hs⟩ := Option.isSome_iff_exists.1 h
    obtain ⟨-, hnull, rfl, hne⟩ := partialName?_eq_some_iff.1 hs
    rw [isGiven, get_declared, declaredValue_of_ne_null hnull]
    simpa using hne
  have hmissing : missing Schema.partialSchema (declared Schema.partialSchema attributes) = [] := by
    have hrequired : Schema.partialSchema.required = ["file"] := rfl
    rw [missing, hrequired, List.filter_cons_of_neg (by simp [hgiven])]
    simp
  exact ⟨_, by rw [checkedAttributes, hmissing]⟩

theorem isEncodable_of_partialName? {attributes : Attributes}
    (h : (partialName? attributes).isSome = true) :
    (Attributes.get attributes "file").isEncodable = true := by
  obtain ⟨s, hs⟩ := Option.isSome_iff_exists.1 h
  exact (partialName?_eq_some_iff.1 hs).1

theorem required_of_find? {s : String} {tag : Schema.Tag} (h : Schema.find? s = some tag)
    (hn : tag.name ≠ Schema.partialTag) : tag.required = [] := by
  have hm : tag ∈ Schema.tags := List.mem_of_find?_eq_some h
  simp only [Schema.tags, List.mem_cons, List.not_mem_nil, or_false] at hm
  rcases hm with rfl | rfl | rfl
  · rfl
  · rfl
  · exact absurd rfl hn

/-! ## Look-ups -/

def EndsAs {α : Type} (scope : Scope) (names : List String) (x : Reporting α) : Prop :=
  ((∃ a, x.result = .ok a) ∧ ∀ s ∈ names, ∃ e, (scope.include_ s).result = .ok e) ∨
    ∃ s ∈ names, ∃ f, (scope.include_ s).result = .error f ∧ x.result = .error f

variable {α β : Type} {scope : Scope} {names more : List String}

theorem endsAs_of_ok {x : Reporting α} (h : ∃ a, x.result = .ok a) : EndsAs scope [] x :=
  .inl ⟨h, nofun⟩

theorem EndsAs.map {x : Reporting α} (h : EndsAs scope names x) (f : α → β) :
    EndsAs scope names (f <$> x) := by
  rcases h with ⟨hok, hall⟩ | ⟨s, hs, e, he, hx⟩
  · exact .inl ⟨exists_of_map hok, hall⟩
  · exact .inr ⟨s, hs, e, he, Reporting.error_of_map hx⟩

theorem EndsAs.bind_of_ok {x : Reporting α} {f : α → Reporting β} {a : α} (hx : x.result = .ok a)
    (h : EndsAs scope names (f a)) : EndsAs scope names (x >>= f) := by
  rw [Reporting.bind_of_ok _ hx]
  exact h

theorem EndsAs.bind {x : Reporting α} {f : α → Reporting β} (hx : EndsAs scope names x)
    (hf : ∀ a, x.result = .ok a → EndsAs scope more (f a)) :
    EndsAs scope (names ++ more) (x >>= f) := by
  rcases hx with ⟨⟨a, ha⟩, hall⟩ | ⟨s, hs, e, he, hx⟩
  · rcases EndsAs.bind_of_ok ha (hf a ha) with ⟨hok, hmore⟩ | ⟨s, hs, h⟩
    · exact .inl ⟨hok, List.forall_mem_append.2 ⟨hall, hmore⟩⟩
    · exact .inr ⟨s, List.mem_append_right _ hs, h⟩
  · exact .inr ⟨s, List.mem_append_left _ hs, e, he, by rw [Reporting.bind_of_error _ hx]⟩

theorem endsAs_include (s : String) : EndsAs scope [s] (scope.include_ s) := by
  cases h : (scope.include_ s).result with
  | ok e => exact .inl ⟨⟨e, h⟩, by simpa using ⟨e, h⟩⟩
  | error f => exact .inr ⟨s, List.mem_singleton_self s, f, h, h⟩

theorem endsAs_tag {name : Option String} {attributes : Attributes} {children : List Node}
    {content : Option String}
    (hnames : ∀ x ∈ outerTags ⟨.tag, name, attributes, children, content⟩,
      (partialName? x.attributes).isSome = true)
    (hbelow : name ≠ some Schema.partialTag →
      EndsAs scope (lookupsAll children) (resolveAll scope children)) :
    EndsAs scope (lookups ⟨.tag, name, attributes, children, content⟩)
      (resolve scope ⟨.tag, name, attributes, children, content⟩) := by
  by_cases hname : name = some Schema.partialTag
  · subst hname
    have hsome := hnames _ (by rw [outerTags, if_pos ⟨rfl, rfl⟩]; exact List.mem_singleton_self _)
    obtain ⟨kept, hkept⟩ := exists_checkedAttributes_of_partialName? scope.file
      (!children.isEmpty) hsome
    have hencodable := isEncodable_of_partialName? hsome
    simp only [lookups, if_pos, partialName?_of_ok hkept hencodable, resolve, Option.getD_some,
      Schema.find?_partial, Option.toList_some, includeFile_of_isEncodable hencodable]
    exact ((endsAs_include _).map Resolved.one).bind_of_ok hkept
  · simp only [lookups, if_neg hname, resolve]
    cases hf : Schema.find? (name.getD "") with
    | none => exact (hbelow hname).map _
    | some tag =>
      have htag : tag.name ≠ Schema.partialTag := by
        intro ht
        obtain ⟨hs, -⟩ := Schema.find?_eq_partial hf ht
        cases name with
        | none => exact absurd hs (by decide)
        | some s => exact hname (by rw [← hs, Option.getD_some])
      obtain ⟨kept, hkept⟩ := exists_checkedAttributes scope.file attributes (!children.isEmpty)
        (required_of_find? hf htag)
      simp only [if_neg htag]
      exact ((hbelow hname).map _).bind_of_ok hkept

mutual

/-- A document whose outer inclusion tags name partials is resolved as its look-ups end. -/
theorem endsAs_resolve : ∀ n : Node, (∀ m ∈ n.walk, HasArguments m) →
    (∀ x ∈ outerTags n, (partialName? x.attributes).isSome = true) →
      EndsAs scope (lookups n) (resolve scope n)
  | ⟨kind, name, attributes, children, content⟩, hargs, hnames => by
    rw [Node.walk, List.forall_mem_cons] at hargs
    have hbelow : ¬(kind = .tag ∧ name = some Schema.partialTag) →
        EndsAs scope (lookupsAll children) (resolveAll scope children) := by
      intro hn
      rw [outerTags, if_neg hn] at hnames
      exact endsAs_resolveAll children hargs.2 hnames
    cases kind with
    | text | fence | code | softBreak | image => exact endsAs_of_ok ⟨_, rfl⟩
    | function => exact (endsAs_of_ok (exists_call hargs.1 rfl)).map _
    | tag => exact endsAs_tag hnames fun hname => hbelow fun h => hname h.2
    | _ => exact (hbelow nofun).map _

theorem endsAs_resolveAll : ∀ ns : List Node, (∀ m ∈ Node.walkAll ns, HasArguments m) →
    (∀ x ∈ outerTagsAll ns, (partialName? x.attributes).isSome = true) →
      EndsAs scope (lookupsAll ns) (resolveAll scope ns)
  | [], _, _ => endsAs_of_ok ⟨_, rfl⟩
  | n :: ns, hargs, hnames => by
    rw [Node.walkAll, List.forall_mem_append] at hargs
    rw [outerTagsAll, List.forall_mem_append] at hnames
    rw [lookupsAll, resolveAll]
    exact (endsAs_resolve n hargs.1 hnames.1).bind fun r _ =>
      (endsAs_resolveAll ns hargs.2 hnames.2).map fun es => r.elements ++ es

end

end Resolution

end DocPress
