import DocPress.Proofs.Element.Markers
import DocPress.Proofs.Inclusion
import DocPress.Proofs.Reference.Entries
import Mathlib.Data.List.Forall2

/-!
# What nodes become

A node of a document that includes nothing becomes an element around what its children
become, or just that, or an element without children. So the items of the render tree
are those of the document, in the same order, and the render tree is whole.
-/

set_option autoImplicit false

namespace DocPress

namespace Reporting

variable {α β : Type}

theorem map_result (f : α → β) (x : Reporting α) : (f <$> x).result = x.result.map f := by
  obtain ⟨log, result⟩ := x
  cases result <;> rfl

theorem ok_of_map {f : α → β} {x : Reporting α} {b : β} (h : (f <$> x).result = .ok b) :
    ∃ a, x.result = .ok a ∧ f a = b := by
  rw [map_result] at h
  cases hx : x.result with
  | error e => rw [hx] at h; cases h
  | ok a => rw [hx] at h; exact ⟨a, rfl, Except.ok.inj h⟩

end Reporting

namespace Resolution

open Element

def leafKinds : List NodeKind :=
  [.text, .function, .code, .fence, .softBreak, .hardBreak, .rule, .image]

def isLevel : Option Value → Bool
  | none | some (.int _) => true
  | _ => false

/-- A node as documents are read, and none that includes a partial. -/
structure IsSimple (n : Node) : Prop where
  leaf : n.kind ∈ leafKinds → n.children = []
  level : n.kind = .heading → isLevel (Ordered.get? n.attributes "level") = true
  included : n.isTagNamed Schema.partialTag = false

/-- A node that opens no list and is no item. -/
structure IsOther (n : Node) : Prop where
  listTag : n.isTagNamed Schema.listTag = false
  itemTag : n.isTagNamed Schema.itemTag = false
  list : n.kind ≠ .list
  item : n.kind ≠ .item

/-- An element without items that is whole and leaves the innermost list as it is. -/
structure IsLeaf (e : Element) : Prop where
  isWhole : e.isWhole = true
  items : e.items = []
  markers : ∀ o, markers o e = ([], o)

/-- The elements that a node becomes, by what its children became. -/
inductive Becomes (n : Node) (es : List Element) : List Element → Prop
  | listTag (attributes : Attributes) : n.isTagNamed Schema.listTag = true →
      Becomes n es [.named "ol" attributes es]
  | itemTag (attributes : Attributes) : n.isTagNamed Schema.itemTag = true →
      Becomes n es [.named "li" attributes es]
  | list (name : String) : n.kind = .list → name = "ol" ∨ name = "ul" →
      Becomes n es [.named name [] es]
  | item : n.kind = .item → Becomes n es [.named "li" [] es]
  | plain (name : String) (attributes : Attributes) : IsOther n → name ∉ specialNames →
      Becomes n es [.named name attributes es]
  | spliced : IsOther n → Becomes n es es
  | leaf (e : Element) : IsOther n → n.children = [] → IsLeaf e → Becomes n es [e]

theorem letter_not_mem_intText (k : Int) : 'r' ∉ (Value.intText k).toList := by
  have hdigit : 'r' ∉ Nat.toDigits 10 k.natAbs := fun h =>
    absurd (Nat.isDigit_of_mem_toDigits (by decide) (by decide) h) (by decide)
  unfold Value.intText
  split <;> simpa using hdigit

theorem headingName_not_special {attributes : Attributes}
    (h : isLevel (Ordered.get? attributes "level") = true) :
    headingName attributes ∉ specialNames := by
  unfold headingName
  cases hl : Ordered.get? attributes "level" with
  | none => decide
  | some v =>
    rw [hl] at h
    cases v with
    | int k =>
      have hletter := letter_not_mem_intText k
      have hd : (Value.int k).display = Value.intText k := rfl
      dsimp only
      rw [hd]
      generalize Value.intText k = s at hletter
      -- Of the special names only that of a rule starts like a heading.
      have hne : ∀ name ∈ specialNames, ("h" ++ s).toList = name.toList → 'r' ∈ s.toList := by
        simpa [specialNames] using fun he : s.toList = ['r'] => he ▸ List.mem_singleton.2 rfl
      exact fun hm => hletter (hne _ hm rfl)
    | _ => cases h

theorem isLeaf_value (v : Value) : IsLeaf (.value v) := ⟨rfl, rfl, fun _ => rfl⟩

theorem isLeaf_codeBlock (attributes : Attributes) (content : String) :
    IsLeaf (codeBlock attributes content) :=
  ⟨rfl, rfl, fun _ => rfl⟩

theorem isLeaf_code (content : String) : IsLeaf (.named "code" [] [.text content]) :=
  ⟨rfl, rfl, fun _ => rfl⟩

theorem isLeaf_empty {name : String} (attributes : Attributes)
    (h : name = "hr" ∨ name = "br" ∨ name = "img") : IsLeaf (.named name attributes []) := by
  rcases h with rfl | rfl | rfl <;> exact ⟨rfl, rfl, fun _ => rfl⟩

theorem isOther_of_kind {n : Node} (ht : n.kind ≠ .tag) (hl : n.kind ≠ .list)
    (hi : n.kind ≠ .item) : IsOther n :=
  ⟨by simp [Node.isTagNamed, ht], by simp [Node.isTagNamed, ht], hl, hi⟩

variable {scope : Scope} {n : Node} {r : Resolved}

theorem becomes_of_leaf (kind : NodeKind) {e : Element} (hn : IsSimple n) (hk : n.kind = kind)
    (hleaf : kind ∈ leafKinds) (he : IsLeaf e) (h : r = .one e) :
    ∃ es, (resolveAll scope n.children).result = .ok es ∧ Becomes n es r.elements := by
  subst hk h
  have hnil := hn.leaf hleaf
  have hother : IsOther n := by
    refine isOther_of_kind ?_ ?_ ?_ <;> intro hc <;> rw [hc] at hleaf <;> revert hleaf <;> decide
  exact ⟨[], by rw [hnil]; rfl, .leaf e hother hnil he⟩

/-- Rules and breaks are resolved with their children, but there are none. -/
theorem becomes_of_empty (kind : NodeKind) {name : String} (hn : IsSimple n) (hk : n.kind = kind)
    (hleaf : kind ∈ leafKinds) (hname : name = "hr" ∨ name = "br" ∨ name = "img")
    (h : ((fun es => Resolved.one (.named name [] es)) <$> resolveAll scope n.children).result =
      .ok r) : ∃ es, (resolveAll scope n.children).result = .ok es ∧ Becomes n es r.elements := by
  have hnil := hn.leaf (hk ▸ hleaf)
  rw [hnil] at h
  exact becomes_of_leaf kind hn hk hleaf (isLeaf_empty [] hname) (Except.ok.inj h).symm

theorem call_value {index : Reference.Index} {name : Option String} {attributes : Attributes}
    {e : Element} (h : (call index name attributes).result = .ok e) : ∃ v, e = .value v := by
  unfold call at h
  split at h
  · split at h
    · exact ⟨_, (Except.ok.inj h).symm⟩
    · cases h
  · exact ⟨_, (Except.ok.inj h).symm⟩

theorem known_of_find? {tag : Schema.Tag} (hn : IsSimple n) (hk : n.kind = .tag)
    (hf : Schema.find? (n.name.getD "") = some tag) :
    n.isTagNamed tag.name = true ∧ tag.required = [] ∧ tag.name ≠ Schema.partialTag ∧
      (tag.name = Schema.listTag ∨ tag.name = Schema.itemTag) := by
  have hm : tag ∈ Schema.tags := List.mem_of_find?_eq_some hf
  have hname : n.name = some tag.name := by
    rw [Schema.find?_of_name hf]
    cases hs : n.name with
    | none =>
      have hnone : Schema.find? ((none : Option String).getD "") = none := by decide
      rw [hs, hnone] at hf
      cases hf
    | some s => rfl
  have htag : n.isTagNamed tag.name = true := by simp [Node.isTagNamed, hk, hname]
  simp only [Schema.tags, List.mem_cons, List.not_mem_nil, or_false] at hm
  rcases hm with rfl | rfl | rfl
  · exact ⟨htag, rfl, by decide, .inl rfl⟩
  · exact ⟨htag, rfl, by decide, .inr rfl⟩
  · exact absurd htag (by rw [hn.included]; exact Bool.false_ne_true)

theorem not_isTagNamed_of_find? {s : String} (hk : n.kind = .tag)
    (hf : Schema.find? (n.name.getD "") = none) (hs : (Schema.find? s).isSome = true) :
    n.isTagNamed s = false := by
  refine Bool.eq_false_iff.2 fun hc => ?_
  have hname : n.name = some s := by simpa [Node.isTagNamed, hk] using hc
  rw [hname, Option.getD_some] at hf
  simp [hf] at hs

theorem becomes_of_tag {name : Option String} {attributes : Attributes} {children : List Node}
    {content : Option String} (hn : IsSimple ⟨.tag, name, attributes, children, content⟩)
    (h : (resolve scope ⟨.tag, name, attributes, children, content⟩).result = .ok r) :
    ∃ es, (resolveAll scope children).result = .ok es ∧
      Becomes ⟨.tag, name, attributes, children, content⟩ es r.elements := by
  cases hf : Schema.find? (name.getD "") with
  | none =>
    simp only [resolve, hf] at h
    obtain ⟨es, hes, rfl⟩ := Reporting.ok_of_map h
    exact ⟨es, hes, .spliced ⟨not_isTagNamed_of_find? rfl hf (by decide),
      not_isTagNamed_of_find? rfl hf (by decide), nofun, nofun⟩⟩
  | some tag =>
    obtain ⟨htag, -, hnot, hname⟩ := known_of_find? hn rfl hf
    simp only [resolve, hf] at h
    cases hc : (checkedAttributes scope.file tag attributes (!children.isEmpty)).result with
    | error f =>
      rw [Reporting.bind_of_error _ hc] at h
      cases h
    | ok kept =>
      rw [Reporting.bind_of_ok _ hc] at h
      simp only [if_neg hnot] at h
      obtain ⟨es, hes, rfl⟩ := Reporting.ok_of_map h
      refine ⟨es, hes, ?_⟩
      rcases hname with ht | ht
      · rw [ht] at htag
        rw [Resolved.elements, ht]
        exact .listTag kept htag
      · rw [ht] at htag
        rw [Resolved.elements, ht]
        exact .itemTag kept htag

/-- What a simple node becomes, if it can be resolved. -/
theorem becomes_of_resolve (hn : IsSimple n) (h : (resolve scope n).result = .ok r) :
    ∃ es, (resolveAll scope n.children).result = .ok es ∧ Becomes n es r.elements := by
  obtain ⟨kind, name, attributes, children, content⟩ := n
  cases kind with
  | text => exact becomes_of_leaf .text hn rfl (by decide) (isLeaf_value _) (Except.ok.inj h).symm
  | fence =>
    exact becomes_of_leaf .fence hn rfl (by decide) (isLeaf_codeBlock _ _) (Except.ok.inj h).symm
  | code => exact becomes_of_leaf .code hn rfl (by decide) (isLeaf_code _) (Except.ok.inj h).symm
  | softBreak =>
    exact becomes_of_leaf .softBreak hn rfl (by decide) (isLeaf_value _) (Except.ok.inj h).symm
  | image =>
    exact becomes_of_leaf .image hn rfl (by decide) (isLeaf_empty _ (.inr (.inr rfl)))
      (Except.ok.inj h).symm
  | hardBreak => exact becomes_of_empty .hardBreak hn rfl (by decide) (.inr (.inl rfl)) h
  | rule => exact becomes_of_empty .rule hn rfl (by decide) (.inl rfl) h
  | function =>
    obtain ⟨e, he, rfl⟩ := Reporting.ok_of_map h
    obtain ⟨v, rfl⟩ := call_value he
    exact becomes_of_leaf .function hn rfl (by decide) (isLeaf_value v) rfl
  | tag => exact becomes_of_tag hn h
  | list =>
    obtain ⟨es, hes, rfl⟩ := Reporting.ok_of_map h
    refine ⟨es, hes, .list _ rfl ?_⟩
    unfold listName
    split
    · exact .inl rfl
    · exact .inr rfl
  | item =>
    obtain ⟨es, hes, rfl⟩ := Reporting.ok_of_map h
    exact ⟨es, hes, .item rfl⟩
  | heading =>
    obtain ⟨es, hes, rfl⟩ := Reporting.ok_of_map h
    exact ⟨es, hes, .plain _ _ (isOther_of_kind nofun nofun nofun)
      (headingName_not_special (hn.level rfl))⟩
  | other label =>
    obtain ⟨es, hes, rfl⟩ := Reporting.ok_of_map h
    exact ⟨es, hes, .spliced (isOther_of_kind nofun nofun nofun)⟩
  | _ =>
    obtain ⟨es, hes, rfl⟩ := Reporting.ok_of_map h
    exact ⟨es, hes, .plain _ _ (isOther_of_kind nofun nofun nofun) (by decide)⟩

/-! ## Documents that can be resolved -/

/-- A look-up by reference is given arguments that can be told apart. -/
def HasArguments (n : Node) : Prop :=
  n.kind = .function → Schema.referenceFunctions.contains (n.name.getD "") = true →
    (arguments? ((Ordered.get? n.attributes "args").getD (.list []))).isSome = true

theorem exists_of_map {α β : Type} {f : α → β} {x : Reporting α} (h : ∃ a, x.result = .ok a) :
    ∃ b, (f <$> x).result = .ok b := by
  obtain ⟨a, ha⟩ := h
  exact ⟨f a, by rw [Reporting.map_result, ha]; rfl⟩

theorem exists_call {index : Reference.Index} (hn : HasArguments n) (hk : n.kind = .function) :
    ∃ e, (call index n.name n.attributes).result = .ok e := by
  unfold call
  split
  · next hname =>
    obtain ⟨vs, hvs⟩ := Option.isSome_iff_exists.1 (hn hk hname)
    rw [hvs]
    exact ⟨_, rfl⟩
  · exact ⟨_, rfl⟩

theorem exists_checkedAttributes (file : Option Path) {tag : Schema.Tag} (attributes : Attributes)
    (hasContent : Bool) (h : tag.required = []) :
    ∃ kept, (checkedAttributes file tag attributes hasContent).result = .ok kept := by
  have hm : missing tag (declared tag attributes) = [] := by
    simp [missing, h]
  exact ⟨_, by rw [checkedAttributes, hm]⟩

/-- A simple node can be resolved if its children can. -/
theorem exists_resolve_of_children (hn : IsSimple n) (ha : HasArguments n)
    (h : ∃ es, (resolveAll scope n.children).result = .ok es) :
    ∃ r, (resolve scope n).result = .ok r := by
  obtain ⟨kind, name, attributes, children, content⟩ := n
  cases kind with
  | text | fence | code | softBreak | image => exact ⟨_, rfl⟩
  | function => exact exists_of_map (exists_call ha rfl)
  | tag =>
    cases hf : Schema.find? (name.getD "") with
    | none =>
      simp only [resolve, hf]
      exact exists_of_map h
    | some tag =>
      obtain ⟨-, hrequired, hnot, -⟩ := known_of_find? hn rfl hf
      obtain ⟨kept, hc⟩ := exists_checkedAttributes scope.file attributes (!children.isEmpty)
        hrequired
      simp only [resolve, hf, Reporting.bind_of_ok _ hc, if_neg hnot]
      exact exists_of_map h
  | _ => exact exists_of_map h

mutual

/-- A simple document can be resolved if each look-up is given arguments. -/
theorem exists_resolve : ∀ n : Node, (∀ m ∈ n.walk, IsSimple m ∧ HasArguments m) →
    ∃ r, (resolve scope n).result = .ok r
  | ⟨kind, name, attributes, children, content⟩, hs => by
    rw [Node.walk, List.forall_mem_cons] at hs
    exact exists_resolve_of_children hs.1.1 hs.1.2 (exists_resolveAll children hs.2)

theorem exists_resolveAll : ∀ ns : List Node,
    (∀ m ∈ Node.walkAll ns, IsSimple m ∧ HasArguments m) →
    ∃ es, (resolveAll scope ns).result = .ok es
  | [], _ => ⟨_, rfl⟩
  | n :: ns, hs => by
    rw [Node.walkAll, List.forall_mem_append] at hs
    obtain ⟨r, hr⟩ := exists_resolve n hs.1
    obtain ⟨es, hes⟩ := exists_resolveAll ns hs.2
    refine ⟨r.elements ++ es, ?_⟩
    rw [resolveAll, Reporting.bind_of_ok _ hr]
    simp only [Reporting.bind_of_ok _ hes, Reporting.pure_result]

end

/-! ## Resolved documents -/

inductive BecomeAll (scope : Scope) : List Node → List Element → Prop
  | nil : BecomeAll scope [] []
  | cons {n : Node} {ns : List Node} {r : Resolved} {es gs fs : List Element} :
      (resolve scope n).result = .ok r → r.elements = gs → BecomeAll scope n.children es →
      Becomes n es gs → BecomeAll scope ns fs → BecomeAll scope (n :: ns) (gs ++ fs)

theorem resolveAll_cons_ok {ns : List Node} {es : List Element}
    (h : (resolveAll scope (n :: ns)).result = .ok es) :
    ∃ r fs, (resolve scope n).result = .ok r ∧ (resolveAll scope ns).result = .ok fs ∧
      es = r.elements ++ fs := by
  rw [resolveAll] at h
  cases hr : (resolve scope n).result with
  | error f =>
    rw [Reporting.bind_of_error _ hr] at h
    cases h
  | ok r =>
    rw [Reporting.bind_of_ok _ hr] at h
    cases hfs : (resolveAll scope ns).result with
    | error f =>
      rw [Reporting.bind_of_error _ hfs] at h
      cases h
    | ok fs =>
      rw [Reporting.bind_of_ok _ hfs] at h
      exact ⟨r, fs, rfl, rfl, (Except.ok.inj h).symm⟩

mutual

theorem becomeAll_of_resolve {r : Resolved} :
    ∀ n : Node, (∀ m ∈ n.walk, IsSimple m) → (resolve scope n).result = .ok r →
      ∃ es, BecomeAll scope n.children es ∧ Becomes n es r.elements
  | ⟨kind, name, attributes, children, content⟩, hs, h => by
    rw [Node.walk, List.forall_mem_cons] at hs
    obtain ⟨es, hes, hb⟩ := becomes_of_resolve hs.1 h
    exact ⟨es, becomeAll_of_resolveAll children hs.2 hes, hb⟩

theorem becomeAll_of_resolveAll {es : List Element} :
    ∀ ns : List Node, (∀ m ∈ Node.walkAll ns, IsSimple m) →
      (resolveAll scope ns).result = .ok es → BecomeAll scope ns es
  | [], _, h => by
    obtain rfl : [] = es := Except.ok.inj h
    exact .nil
  | n :: ns, hs, h => by
    rw [Node.walkAll, List.forall_mem_append] at hs
    obtain ⟨r, fs, hr, hfs, rfl⟩ := resolveAll_cons_ok h
    obtain ⟨es, hes, hb⟩ := becomeAll_of_resolve n hs.1 hr
    exact .cons hr rfl hes hb (becomeAll_of_resolveAll ns hs.2 hfs)

end

theorem isItem_of_listTag (h : n.isTagNamed Schema.listTag = true) : n.isItem = false := by
  simp only [Node.isTagNamed, Bool.and_eq_true, beq_iff_eq] at h
  simp only [Node.isItem, Node.isTagNamed, h.1, h.2]
  decide

theorem isItem_of_list (h : n.kind = .list) : n.isItem = false := by
  simp only [Node.isItem, Node.isTagNamed, h]
  rfl

theorem IsOther.isItem (h : IsOther n) : n.isItem = false := by
  simp [Node.isItem, h.itemTag, h.item]

theorem areWhole_append (es fs : List Element) :
    areWhole (es ++ fs) = (areWhole es && areWhole fs) := by
  induction es with
  | nil => rfl
  | cons e es ih => simp [areWhole, ih, Bool.and_assoc]

theorem Becomes.areWhole {es gs : List Element} (h : Becomes n es gs)
    (hes : Element.areWhole es = true) : Element.areWhole gs = true := by
  cases h with
  | listTag => simpa [Element.areWhole, isWhole] using hes
  | itemTag => simpa [Element.areWhole, isWhole] using hes
  | list name _ hname =>
    rcases hname with rfl | rfl <;> simpa [Element.areWhole, isWhole] using hes
  | item => simpa [Element.areWhole, isWhole] using hes
  | plain name attributes _ hname =>
    rw [Element.areWhole, isWhole_of_plain hname, hes]
    rfl
  | spliced => exact hes
  | leaf e _ _ he => simp [Element.areWhole, he.isWhole]

theorem BecomeAll.areWhole {ns : List Node} {es : List Element} (h : BecomeAll scope ns es) :
    areWhole es = true := by
  induction h with
  | nil => rfl
  | cons _ _ _ hb _ ih ihs => rw [areWhole_append, hb.areWhole ih, ihs, Bool.and_true]

/-- The items in what a node becomes are those in what its children became, after the node's own
item if it is one. So they are told by what stands for the node and for those. -/
theorem Becomes.items {α : Type} {R : α → Element → Prop} {a : α} {as : List α}
    {es gs : List Element} (h : Becomes n es gs) (hnil : n.children = [] → es = [])
    (ha : ∀ e, gs = [e] → R a e) (has : List.Forall₂ R as (itemsAll es)) :
    List.Forall₂ R (if n.isItem then a :: as else as) (itemsAll gs) := by
  cases h with
  | listTag _ hn => simpa [isItem_of_listTag hn, itemsAll, Element.items] using has
  | itemTag _ hn => simpa [Node.isItem, hn, itemsAll, Element.items] using ⟨ha _ rfl, has⟩
  | list name hn hname =>
    rcases hname with rfl | rfl <;>
      simpa [isItem_of_list hn, itemsAll, Element.items] using has
  | item hn => simpa [Node.isItem, hn, itemsAll, Element.items] using ⟨ha _ rfl, has⟩
  | plain name attributes hn hname =>
    have hli : name ≠ "li" := by rintro rfl; exact hname (by decide)
    simpa [hn.isItem, itemsAll, Element.items, hli] using has
  | spliced hn => simpa [hn.isItem] using has
  | leaf e hn hchildren he =>
    rw [hnil hchildren] at has
    simpa [hn.isItem, itemsAll, he.items] using has

def BecomesItem (scope : Scope) (m : Node) (e : Element) : Prop :=
  ∃ r, (resolve scope m).result = .ok r ∧ r.elements = [e]

/-- The items of a render tree are what the item nodes of the document become, in order. -/
theorem BecomeAll.items {ns : List Node} {es : List Element} (h : BecomeAll scope ns es) :
    List.Forall₂ (BecomesItem scope) ((Node.walkAll ns).filter Node.isItem) (itemsAll es) := by
  induction h with
  | nil => exact .nil
  | @cons n ns r es gs fs hr hgs hes hb _ ih ihs =>
    have hnil : n.children = [] → es = [] := by
      intro hchildren
      rw [hchildren] at hes
      cases hes
      rfl
    rw [Node.walkAll, List.filter_append, itemsAll_append, Node.walk_eq, List.filter_cons]
    exact List.rel_append (hb.items hnil (fun e he => ⟨r, hr, hgs.trans he⟩) ih) ihs

end Resolution

end DocPress
