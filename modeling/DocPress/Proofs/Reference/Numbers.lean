import DocPress.Proofs.Reference.Entries
import DocPress.Proofs.Text.Scanning

/-!
# The index by places

The index is told without counters: every node of a document has a place in document order,
an item belongs to the nearest list above it, and its number is one more than the number of
items before it that belong to the same list. A selector stands for the number of the last
item that registers it.
-/

set_option autoImplicit false

namespace DocPress

namespace Node

/-- A node with the nodes above it, nearest first, each with its place in document order. -/
abbrev Placed := Node × List (Nat × Node)

mutual

def placed (above : List (Nat × Node)) (place : Nat) : Node → List Placed
  | ⟨kind, name, attributes, children, content⟩ =>
    (⟨kind, name, attributes, children, content⟩, above) ::
      placedAll ((place, ⟨kind, name, attributes, children, content⟩) :: above) (place + 1) children

def placedAll (above : List (Nat × Node)) (place : Nat) : List Node → List Placed
  | [] => []
  | n :: ns => placed above place n ++ placedAll above (place + n.walk.length) ns

end

theorem placed_eq (above : List (Nat × Node)) (place : Nat) (n : Node) :
    placed above place n =
      (n, above) :: placedAll ((place, n) :: above) (place + 1) n.children := by
  cases n
  rfl

mutual

theorem map_fst_placed (above : List (Nat × Node)) (place : Nat) :
    ∀ n : Node, (n.placed above place).map Prod.fst = n.walk
  | ⟨kind, name, attributes, children, content⟩ => by
    rw [placed, walk, List.map_cons, map_fst_placedAll]

theorem map_fst_placedAll (above : List (Nat × Node)) (place : Nat) :
    ∀ ns : List Node, (placedAll above place ns).map Prod.fst = walkAll ns
  | [] => rfl
  | n :: ns => by
    rw [placedAll, walkAll, List.map_append, map_fst_placed, map_fst_placedAll]

end

theorem length_placed (above : List (Nat × Node)) (place : Nat) (n : Node) :
    (n.placed above place).length = n.walk.length := by
  rw [← map_fst_placed above place n, List.length_map]

/-- Above a node of a subtree stand nodes of the subtree and those above it. -/
def IsWithin (above : List (Nat × Node)) (place stop : Nat) (p : Placed) : Prop :=
  ∃ inner, p.2 = inner ++ above ∧ ∀ a ∈ inner, place ≤ a.1 ∧ a.1 < stop

theorem IsWithin.mono {above : List (Nat × Node)} {place place' stop stop' : Nat} {p : Placed}
    (h : IsWithin above place stop p) (hp : place' ≤ place) (hs : stop ≤ stop') :
    IsWithin above place' stop' p := by
  obtain ⟨inner, hi, hb⟩ := h
  exact ⟨inner, hi, fun a ha => ⟨Nat.le_trans hp (hb a ha).1, Nat.lt_of_lt_of_le (hb a ha).2 hs⟩⟩

mutual

theorem isWithin_placed (above : List (Nat × Node)) (place : Nat) :
    ∀ n : Node, ∀ p ∈ n.placed above place, IsWithin above place (place + n.walk.length) p
  | ⟨kind, name, attributes, children, content⟩, p, hp => by
    rw [placed, List.mem_cons] at hp
    rcases hp with rfl | hp
    · exact ⟨[], rfl, by simp⟩
    · obtain ⟨inner, hi, hb⟩ := isWithin_placedAll _ (place + 1) children p hp
      refine ⟨inner ++ [(place, _)], by rw [hi, List.append_assoc]; rfl, fun a ha => ?_⟩
      rw [walk, List.length_cons]
      rcases List.mem_append.1 ha with ha | ha
      · have := hb a ha
        omega
      · rw [List.mem_singleton.1 ha]
        simp

theorem isWithin_placedAll (above : List (Nat × Node)) (place : Nat) :
    ∀ ns : List Node, ∀ p ∈ placedAll above place ns,
      IsWithin above place (place + (walkAll ns).length) p
  | [], p, hp => by simp [placedAll] at hp
  | n :: ns, p, hp => by
    rw [walkAll, List.length_append]
    rcases List.mem_append.1 hp with hp | hp
    · exact (isWithin_placed above place n p hp).mono (Nat.le_refl _) (by omega)
    · exact (isWithin_placedAll above _ ns p hp).mono (by omega) (by omega)

end

end Node

namespace Reference

open Node Text

/-! ## Items and their selectors -/

def nearestList? (above : List (Nat × Node)) : Option (Nat × Node) :=
  above.find? fun a => a.2.isTagNamed Schema.listTag

/-- How many of some nodes are items that belong to the list at a place. -/
def itemsOf (list : Nat) (ps : List Placed) : Nat :=
  ps.countP fun p => p.1.isTagNamed Schema.itemTag && (nearestList? p.2).any (·.1 == list)

def StandsIn (n : Node) (i : Nat) (item : Node) (list : Nat × Node) : Prop :=
  ∃ above, (n.placed [] 0)[i]? = some (item, above) ∧
    item.isTagNamed Schema.itemTag = true ∧ nearestList? above = some list

/-- The text that an attribute value is taken as: what it shows, and nothing for `null`. -/
def givenText : Value → Option String
  | .null => none
  | v => some v.display

section

variable (text : Value → Option String)

def attributeText? (n : Node) (key : String) : Option String :=
  (Ordered.get? n.attributes key).bind text

def inList (list : Node) (selector : String) : String :=
  match attributeText? text list "id" with
  | none => selector
  | some s =>
    if strip s.toList = [] then selector
    else "#" ++ String.ofList (strip s.toList) ++ " " ++ selector

/-- An item of a list registers each word of its class, and its identifier. -/
inductive Registers (list item : Node) : String → Prop
  | word {s : String} {w : List Char} (hs : attributeText? text item "cl" = some s)
      (hw : w ∈ s.toList.splitOnP isBlank) (hne : w ≠ []) :
      Registers list item (inList text list ("." ++ String.ofList w))
  | identifier {s : String} (hs : attributeText? text item "id" = some s)
      (hne : strip s.toList ≠ []) :
      Registers list item (inList text list ("#" ++ String.ofList (strip s.toList)))

/-- The last item of a document, in document order, that registers a selector. -/
structure IsLastItem (n : Node) (key : String) (i : Nat) (item : Node) (list : Nat × Node) :
    Prop where
  stands : StandsIn n i item list
  registers : Registers text list.2 item key
  last : ∀ j item' list', i < j → StandsIn n j item' list' →
    ¬Registers text list'.2 item' key

end

/-! ## The selectors that the index takes -/

theorem label?_eq (n : Node) (key : String) :
    label? (Attributes.get n.attributes key) =
      ((attributeText? givenText n key).map fun s => strip s.toList).bind fun s =>
        if s = [] then none else some (String.ofList s) := by
  unfold attributeText? Attributes.get
  cases Ordered.get? n.attributes key with
  | none => rfl
  | some v => cases v <;> simp [label?, givenText, List.isEmpty_iff]

theorem qualified_eq (list : Node) (selector : String) :
    qualified (label? (Attributes.get list.attributes "id")) selector =
      inList givenText list selector := by
  rw [label?_eq, inList]
  cases attributeText? givenText list "id" with
  | none => rfl
  | some s =>
    by_cases hs : strip s.toList = []
    · simp [hs, qualified]
    · simp [hs, qualified]

theorem label?_eq_some_iff (n : Node) (key l : String) :
    label? (Attributes.get n.attributes key) = some l ↔
      ∃ s, attributeText? givenText n key = some s ∧ strip s.toList ≠ [] ∧
        l = String.ofList (strip s.toList) := by
  rw [label?_eq]
  cases attributeText? givenText n key with
  | none => simp
  | some s =>
    by_cases hs : strip s.toList = []
    · simp [hs]
    · rw [Option.map_some, Option.bind_some, if_neg hs]
      constructor
      · intro h
        exact ⟨s, rfl, hs, (Option.some.inj h).symm⟩
      · rintro ⟨_, ⟨⟩, -, rfl⟩
        rfl

/-- Trimming a text first loses none of its words. -/
theorem mem_words_iff (s w : List Char) :
    w ∈ words (strip s) ↔ w ∈ s.splitOnP isBlank ∧ w ≠ [] := by
  rw [words_strip, words_eq, List.mem_filter, decide_eq_true_iff]

theorem mem_selectors (list : Option String) (attributes : Attributes) (key : String) :
    key ∈ selectors list attributes ↔
      (∃ s, label? (Attributes.get attributes "cl") = some s ∧ ∃ w ∈ words s.toList,
        key = qualified list ("." ++ String.ofList w)) ∨
      (∃ s, label? (Attributes.get attributes "id") = some s ∧
        key = qualified list ("#" ++ s)) := by
  rw [selectors, List.mem_append]
  apply or_congr
  · cases label? (Attributes.get attributes "cl") <;> simp [eq_comm]
  · cases label? (Attributes.get attributes "id") <;> simp

/-- The selectors that the index takes for an item are those that it registers. -/
theorem mem_selectors_iff (list item : Node) (key : String) :
    key ∈ selectors (label? (Attributes.get list.attributes "id")) item.attributes ↔
      Registers givenText list item key := by
  simp only [mem_selectors, qualified_eq, label?_eq_some_iff]
  constructor
  · rintro (⟨_, ⟨s, hs, -, rfl⟩, w, hw, rfl⟩ | ⟨_, ⟨s, hs, hne, rfl⟩, rfl⟩)
    · rw [String.toList_ofList, mem_words_iff] at hw
      exact .word hs hw.1 hw.2
    · exact .identifier hs hne
  · intro h
    cases h with
    | @word s w hs hw hne =>
      have hmem := (mem_words_iff s.toList w).2 ⟨hw, hne⟩
      have hstrip : strip s.toList ≠ [] := fun he => by
        rw [he] at hmem
        cases hmem
      refine Or.inl ⟨_, ⟨s, hs, hstrip, rfl⟩, w, ?_, rfl⟩
      rwa [String.toList_ofList]
    | @identifier s hs hne => exact Or.inr ⟨_, ⟨s, hs, hne, rfl⟩, rfl⟩

/-! ## The index by places -/

/-- The innermost open list below some nodes, when so many nodes have been passed. -/
def scopeAt (passed : List Placed) (above : List (Nat × Node)) : Option Scope :=
  (nearestList? above).map fun l =>
    ⟨label? (Attributes.get l.2.attributes "id"), itemsOf l.1 passed⟩

def enter (passed : List Placed) (index : Index) (p : Placed) : Index :=
  if p.1.isTagNamed Schema.itemTag then
    match nearestList? p.2 with
    | some l =>
      register index (selectors (label? (Attributes.get l.2.attributes "id")) p.1.attributes)
        (itemsOf l.1 passed + 1)
    | none => index
  else index

def enterAll (passed : List Placed) (index : Index) : List Placed → Index
  | [] => index
  | p :: ps => enterAll (passed ++ [p]) (enter passed index p) ps

theorem enterAll_append (passed ps qs : List Placed) (index : Index) :
    enterAll passed index (ps ++ qs) =
      enterAll (passed ++ ps) (enterAll passed index ps) qs := by
  induction ps generalizing passed index with
  | nil => simp [enterAll]
  | cons p ps ih => simp [enterAll, ih]

structure IsBefore (passed : List Placed) (above : List (Nat × Node)) : Prop where
  above : ∀ a ∈ above, a.1 < passed.length
  passed : ∀ p ∈ passed, ∀ a ∈ p.2, a.1 < passed.length

variable {passed : List Placed} {above : List (Nat × Node)} {n : Node}

theorem itemsOf_append (list : Nat) (ps qs : List Placed) :
    itemsOf list (ps ++ qs) = itemsOf list ps + itemsOf list qs := List.countP_append

theorem itemsOf_eq_zero {list : Nat} {ps : List Placed}
    (h : ∀ p ∈ ps, ∀ l, nearestList? p.2 = some l → l.1 ≠ list) : itemsOf list ps = 0 := by
  rw [itemsOf, List.countP_eq_zero]
  intro p hp
  cases hl : nearestList? p.2 with
  | none => simp
  | some l => simp [h p hp l hl]

theorem mem_of_nearestList? {l : Nat × Node} (h : nearestList? above = some l) : l ∈ above :=
  List.mem_of_find?_eq_some h

theorem nearestList?_cons (place : Nat) (hn : n.isTagNamed Schema.listTag = true) :
    nearestList? ((place, n) :: above) = some (place, n) := List.find?_cons_of_pos hn

theorem nearestList?_cons_of_not (place : Nat) (hn : n.isTagNamed Schema.listTag = false) :
    nearestList? ((place, n) :: above) = nearestList? above :=
  List.find?_cons_of_neg (by simp [hn])

theorem IsBefore.push (h : IsBefore passed above) (n : Node) :
    IsBefore (passed ++ [(n, above)]) ((passed.length, n) :: above) := by
  refine ⟨fun a ha => ?_, fun p hp a ha => ?_⟩
  · rw [List.length_append, List.length_singleton]
    rcases List.mem_cons.1 ha with rfl | ha
    · exact Nat.lt_succ_self _
    · exact Nat.lt_succ_of_lt (h.above a ha)
  · rw [List.length_append, List.length_singleton]
    rcases List.mem_append.1 hp with hp | hp
    · exact Nat.lt_succ_of_lt (h.passed p hp a ha)
    · rw [List.mem_singleton.1 hp] at ha
      exact Nat.lt_succ_of_lt (h.above a ha)

theorem IsBefore.append (h : IsBefore passed above) (n : Node) :
    IsBefore (passed ++ n.placed above passed.length) above := by
  have hlength : (passed ++ n.placed above passed.length).length =
      passed.length + n.walk.length := by rw [List.length_append, length_placed]
  refine ⟨fun a ha => ?_, fun p hp a ha => ?_⟩
  · have := h.above a ha
    omega
  · rcases List.mem_append.1 hp with hp | hp
    · have := h.passed p hp a ha
      omega
    · obtain ⟨inner, hi, hb⟩ := isWithin_placed above passed.length n p hp
      rw [hi, List.mem_append] at ha
      rcases ha with ha | ha
      · exact hlength ▸ (hb a ha).2
      · have := h.above a ha
        omega

/-- What stands below a list belongs to that list or to one below it. -/
theorem nearestList?_of_isWithin {place stop : Nat} {p : Placed}
    (hn : n.isTagNamed Schema.listTag = true)
    (h : IsWithin ((place, n) :: above) (place + 1) stop p) {l : Nat × Node}
    (hl : nearestList? p.2 = some l) : place ≤ l.1 := by
  obtain ⟨inner, hi, hb⟩ := h
  rw [hi, nearestList?, List.find?_append] at hl
  cases hf : inner.find? fun a => a.2.isTagNamed Schema.listTag with
  | some a =>
    rw [hf, Option.some_or, Option.some.injEq] at hl
    rw [← hl]
    exact Nat.le_of_succ_le (hb a (List.mem_of_find?_eq_some hf)).1
  | none =>
    have hnext : ((place, n) :: above).find? (fun a => a.2.isTagNamed Schema.listTag) =
        some (place, n) := nearestList?_cons place hn
    rw [hf, Option.none_or, hnext, Option.some.injEq] at hl
    exact Nat.le_of_eq (congrArg Prod.fst hl)

/-- After a list its surroundings are counted on where they were left. -/
theorem scopeAt_placed_list (h : IsBefore passed above) (hn : n.isTagNamed Schema.listTag = true)
    (hi : n.isTagNamed Schema.itemTag = false) :
    scopeAt (passed ++ n.placed above passed.length) above = scopeAt passed above := by
  unfold scopeAt
  cases hl : nearestList? above with
  | none => rfl
  | some l =>
    have hlt := h.above l (mem_of_nearestList? hl)
    have hbelow : itemsOf l.1 (placedAll ((passed.length, n) :: above) (passed.length + 1)
        n.children) = 0 := by
      refine itemsOf_eq_zero fun p hp l' hl' => ?_
      have := nearestList?_of_isWithin hn (isWithin_placedAll _ _ _ p hp) hl'
      omega
    have hself : itemsOf l.1 [((n, above) : Placed)] = 0 := by simp [itemsOf, hi]
    rw [placed_eq, List.append_cons, Option.map_some, itemsOf_append, itemsOf_append, hbelow, hself]
    rfl

theorem scopeAt_push_list (h : IsBefore passed above) (hn : n.isTagNamed Schema.listTag = true) :
    scopeAt (passed ++ [(n, above)]) ((passed.length, n) :: above) =
      some ⟨label? (Attributes.get n.attributes "id"), 0⟩ := by
  have hzero : itemsOf passed.length (passed ++ [(n, above)]) = 0 := by
    refine itemsOf_eq_zero fun p hp l hl => ?_
    have hlt : l.1 < passed.length := by
      rcases List.mem_append.1 hp with hp | hp
      · exact h.passed p hp l (mem_of_nearestList? hl)
      · rw [List.mem_singleton.1 hp] at hl
        exact h.above l (mem_of_nearestList? hl)
    exact Nat.ne_of_lt hlt
  rw [scopeAt, nearestList?_cons _ hn, Option.map_some, hzero]

theorem scopeAt_push_of_not (hn : n.isTagNamed Schema.listTag = false) (ps : List Placed) :
    scopeAt ps ((passed.length, n) :: above) = scopeAt ps above := by
  rw [scopeAt, nearestList?_cons_of_not _ hn, scopeAt]

theorem scopeAt_concat_of_not (hi : n.isTagNamed Schema.itemTag = false) :
    scopeAt (passed ++ [(n, above)]) above = scopeAt passed above := by
  unfold scopeAt
  cases nearestList? above with
  | none => rfl
  | some l => simp [itemsOf, hi]

theorem itemsOf_concat_item (hi : n.isTagNamed Schema.itemTag = true) {l : Nat × Node}
    (hl : nearestList? above = some l) :
    itemsOf l.1 (passed ++ [(n, above)]) = itemsOf l.1 passed + 1 := by
  simp [itemsOf, hi, hl]

theorem enter_of_not (hi : n.isTagNamed Schema.itemTag = false) (index : Index) :
    enter passed index (n, above) = index := by simp [enter, hi]

theorem not_itemTag_of_listTag (h : n.isTagNamed Schema.listTag = true) :
    n.isTagNamed Schema.itemTag = false := by
  simp only [isTagNamed, Bool.and_eq_true, beq_iff_eq] at h
  simp only [isTagNamed, h.1, h.2]
  decide

section

variable {index : Index}

theorem collect_of_listTag (hn : n.isTagNamed Schema.listTag = true) (scope : Option Scope) :
    collect scope index n = (scope,
      (collectAll (some ⟨label? (Attributes.get n.attributes "id"), 0⟩) index n.children).2) := by
  obtain ⟨kind, name, attributes, children, content⟩ := n
  rw [collect.eq_def]
  exact if_pos (by simpa [isTagNamed] using hn)

theorem collect_of_itemTag (hn : n.isTagNamed Schema.itemTag = true) (s : Scope) :
    collect (some s) index n = collectAll (some ⟨s.list, s.count + 1⟩)
      (register index (selectors s.list n.attributes) (s.count + 1)) n.children := by
  have hlist : n.isTagNamed Schema.listTag = false := by
    cases h : n.isTagNamed Schema.listTag with
    | false => rfl
    | true => rw [not_itemTag_of_listTag h] at hn; cases hn
  obtain ⟨kind, name, attributes, children, content⟩ := n
  rw [collect.eq_def]
  exact (if_neg (by simpa [isTagNamed] using hlist)).trans
    (if_pos (by simpa [isTagNamed] using hn))

theorem collect_of_no_list (hn : n.isTagNamed Schema.listTag = false) :
    collect none index n = collectAll none index n.children := by
  obtain ⟨kind, name, attributes, children, content⟩ := n
  rw [collect.eq_def]
  exact (if_neg (by simpa [isTagNamed] using hn)).trans (ite_self _)

theorem collect_of_other (hl : n.isTagNamed Schema.listTag = false)
    (hi : n.isTagNamed Schema.itemTag = false) (scope : Option Scope) :
    collect scope index n = collectAll scope index n.children := by
  obtain ⟨kind, name, attributes, children, content⟩ := n
  rw [collect.eq_def]
  exact (if_neg (by simpa [isTagNamed] using hl)).trans
    (if_neg (by simpa [isTagNamed] using hi))

/-- A node is passed, and then what is below it. -/
theorem collect_scopeAt (h : IsBefore passed above) :
    let inner := collectAll (scopeAt (passed ++ [(n, above)]) ((passed.length, n) :: above))
      (enter passed index (n, above)) n.children
    collect (scopeAt passed above) index n =
      (if n.isTagNamed Schema.listTag then scopeAt passed above else inner.1, inner.2) := by
  cases hlist : n.isTagNamed Schema.listTag with
  | true =>
    have hitem := not_itemTag_of_listTag hlist
    simp only [collect_of_listTag hlist, scopeAt_push_list h hlist, enter_of_not hitem, if_true]
  | false =>
    simp only [scopeAt_push_of_not hlist, Bool.false_eq_true, if_false, Prod.eta]
    cases hitem : n.isTagNamed Schema.itemTag with
    | false => rw [collect_of_other hlist hitem, scopeAt_concat_of_not hitem, enter_of_not hitem]
    | true =>
      cases hl : nearestList? above with
      | none => simp [scopeAt, enter, hl, collect_of_no_list hlist]
      | some l =>
        simp only [scopeAt, enter, hl, hitem, Option.map_some, if_true,
          itemsOf_concat_item hitem hl, collect_of_itemTag hitem]

def IsByPlaces (passed : List Placed) (above : List (Nat × Node)) (index : Index)
    (ps : List Placed) (r : Option Scope × Index) : Prop :=
  r = (scopeAt (passed ++ ps) above, enterAll passed index ps)

theorem collect_placed_of_children (h : IsBefore passed above)
    (hc : ∀ index passed above, IsBefore passed above →
      IsByPlaces passed above index (placedAll above passed.length n.children)
        (collectAll (scopeAt passed above) index n.children)) :
    IsByPlaces passed above index (n.placed above passed.length)
      (collect (scopeAt passed above) index n) := by
  have hinner := hc (enter passed index (n, above)) _ _ (h.push n)
  have hplaces : passed ++ [(n, above)] ++ placedAll ((passed.length, n) :: above)
      (passed ++ [(n, above)]).length n.children = passed ++ n.placed above passed.length := by
    rw [placed_eq, List.length_append, List.length_singleton, ← List.append_cons]
  unfold IsByPlaces at hinner ⊢
  rw [hplaces] at hinner
  rw [collect_scopeAt h, hinner]
  cases hlist : n.isTagNamed Schema.listTag with
  | true =>
    rw [if_pos rfl, scopeAt_placed_list h hlist (not_itemTag_of_listTag hlist), placed_eq, enterAll,
      List.length_append, List.length_singleton]
  | false =>
    rw [if_neg (by simp), scopeAt_push_of_not hlist, placed_eq, enterAll, List.length_append,
      List.length_singleton]

end

mutual

/-- The counters of the index tell how many items have been passed in the innermost list. -/
theorem collect_placed (index : Index) : ∀ (n : Node) (passed : List Placed)
    (above : List (Nat × Node)), IsBefore passed above →
      IsByPlaces passed above index (n.placed above passed.length)
        (collect (scopeAt passed above) index n)
  | ⟨_, _, _, children, _⟩, _, _, h =>
    collect_placed_of_children h fun index passed above h =>
      collectAll_placed index children passed above h

theorem collectAll_placed (index : Index) : ∀ (ns : List Node) (passed : List Placed)
    (above : List (Nat × Node)), IsBefore passed above →
      IsByPlaces passed above index (placedAll above passed.length ns)
        (collectAll (scopeAt passed above) index ns)
  | [], passed, above, _ => by simp [IsByPlaces, collectAll, placedAll, enterAll]
  | n :: ns, passed, above, h => by
    have hfirst := collect_placed index n passed above h
    have hrest := collectAll_placed (enterAll passed index (n.placed above passed.length)) ns _ _
      (h.append n)
    unfold IsByPlaces at hfirst hrest ⊢
    rw [List.length_append, length_placed, List.append_assoc] at hrest
    rw [collectAll, hfirst, placedAll, enterAll_append]
    exact hrest

end

theorem ofNode_eq_enterAll (n : Node) : Index.ofNode n = enterAll [] [] (n.placed [] 0) := by
  exact congrArg Prod.snd (collect_placed [] n [] [] ⟨by simp, by simp⟩)

/-! ## The last item -/

def Enters (key : String) (p : Placed) (list : Nat × Node) : Prop :=
  p.1.isTagNamed Schema.itemTag = true ∧ nearestList? p.2 = some list ∧
    Registers givenText list.2 p.1 key

theorem get?_enter {index : Index} {p : Placed} {key : String} {m : Nat} :
    Ordered.get? (enter passed index p) key = some m ↔
      (∃ list, Enters key p list ∧ m = 1 + itemsOf list.1 passed) ∨
        ((∀ list, ¬Enters key p list) ∧ index.get? key = some m) := by
  unfold enter Enters
  cases hitem : p.1.isTagNamed Schema.itemTag with
  | false => simp
  | true =>
    cases hl : nearestList? p.2 with
    | none => simp
    | some l =>
      have hselectors := mem_selectors_iff l.2 p.1 key
      rw [if_pos rfl]
      dsimp only
      rw [get?_register]
      by_cases hk : key ∈ selectors (label? (Attributes.get l.2.attributes "id")) p.1.attributes
      · have hr := hselectors.1 hk
        rw [if_pos hk]
        constructor
        · intro h
          exact Or.inl ⟨l, ⟨rfl, rfl, hr⟩, by rw [Nat.add_comm, Option.some.inj h]⟩
        · rintro (⟨list, ⟨-, hlist, -⟩, rfl⟩ | ⟨hnone, -⟩)
          · rw [Option.some.inj hlist, Nat.add_comm]
          · exact absurd ⟨rfl, rfl, hr⟩ (hnone l)
      · have hr : ¬Registers givenText l.2 p.1 key := fun hr => hk (hselectors.2 hr)
        rw [if_neg hk]
        constructor
        · intro h
          refine Or.inr ⟨fun list ⟨_, hlist, hr'⟩ => hr ?_, h⟩
          rwa [Option.some.inj hlist]
        · rintro (⟨list, ⟨-, hlist, hr'⟩, -⟩ | ⟨-, h⟩)
          · rw [← Option.some.inj hlist] at hr'
            exact absurd hr' hr
          · exact h

theorem get?_enterAll {ps : List Placed} {index : Index} {key : String} {m : Nat} :
    Ordered.get? (enterAll passed index ps) key = some m ↔
      (∃ i p list, ps[i]? = some p ∧ Enters key p list ∧
        (∀ j q l, i < j → ps[j]? = some q → ¬Enters key q l) ∧
          m = 1 + itemsOf list.1 (passed ++ ps.take i)) ∨
        ((∀ q ∈ ps, ∀ l, ¬Enters key q l) ∧ index.get? key = some m) := by
  induction ps generalizing passed index with
  | nil => simp [enterAll]
  | cons p ps ih =>
    rw [enterAll, ih, get?_enter]
    constructor
    · rintro (⟨i, q, list, hq, he, hlast, rfl⟩ | ⟨hnone, ⟨list, he, rfl⟩ | ⟨hp, hindex⟩⟩)
      · refine Or.inl ⟨i + 1, q, list, hq, he, fun j r l hj hr => ?_, by simp⟩
        obtain ⟨j, rfl⟩ : ∃ k, j = k + 1 := ⟨j - 1, by omega⟩
        exact hlast j r l (by omega) hr
      · refine Or.inl ⟨0, p, list, rfl, he, fun j r l hj hr => ?_, by simp⟩
        obtain ⟨j, rfl⟩ : ∃ k, j = k + 1 := ⟨j - 1, by omega⟩
        exact hnone r (List.mem_of_getElem? hr) l
      · exact Or.inr ⟨List.forall_mem_cons.2 ⟨hp, hnone⟩, hindex⟩
    · rintro (⟨i, q, list, hq, he, hlast, rfl⟩ | ⟨hnone, hindex⟩)
      · cases i with
        | zero =>
          obtain rfl : p = q := by simpa using hq
          refine Or.inr ⟨fun r hr l => ?_, Or.inl ⟨list, he, by simp⟩⟩
          obtain ⟨j, hj⟩ := List.getElem?_of_mem hr
          exact hlast (j + 1) r l (by omega) (by simpa using hj)
        | succ i =>
          refine Or.inl ⟨i, q, list, by simpa using hq, he, fun j r l hj hr => ?_, by simp⟩
          exact hlast (j + 1) r l (by omega) (by simpa using hr)
      · rw [List.forall_mem_cons] at hnone
        exact Or.inr ⟨hnone.2, Or.inr ⟨hnone.1, hindex⟩⟩

theorem standsIn_iff {i : Nat} {item : Node} {list : Nat × Node} {key : String} :
    StandsIn n i item list ∧ Registers givenText list.2 item key ↔
      ∃ p, (n.placed [] 0)[i]? = some p ∧ p.1 = item ∧ Enters key p list := by
  constructor
  · rintro ⟨⟨above, hp, hitem, hl⟩, hr⟩
    exact ⟨_, hp, rfl, hitem, hl, hr⟩
  · rintro ⟨p, hp, rfl, hitem, hl, hr⟩
    exact ⟨⟨p.2, hp, hitem, hl⟩, hr⟩

/-- A selector stands for a number exactly if some item in a list registers it, and the number
is that of the last of them: one more than the items of its list before it. -/
theorem get?_ofNode_iff (n : Node) (key : String) (m : Nat) :
    Ordered.get? (Index.ofNode n) key = some m ↔
      ∃ i item list, IsLastItem givenText n key i item list ∧
        m = 1 + itemsOf list.1 ((n.placed [] 0).take i) := by
  rw [ofNode_eq_enterAll, get?_enterAll]
  constructor
  · rintro (⟨i, p, list, hp, he, hlast, rfl⟩ | ⟨-, hnone⟩)
    · obtain ⟨hstands, hregisters⟩ := standsIn_iff.2 ⟨p, hp, rfl, he⟩
      refine ⟨i, p.1, list, ⟨hstands, hregisters, fun j item' list' hj hs hr => ?_⟩, rfl⟩
      obtain ⟨q, hq, -, he'⟩ := standsIn_iff.1 ⟨hs, hr⟩
      exact hlast j q list' hj hq he'
    · cases hnone
  · rintro ⟨i, item, list, h, rfl⟩
    obtain ⟨p, hp, -, he⟩ := standsIn_iff.1 ⟨h.stands, h.registers⟩
    refine Or.inl ⟨i, p, list, hp, he, fun j q l hj hq he' => ?_, rfl⟩
    obtain ⟨hs, hr⟩ := standsIn_iff.2 ⟨q, hq, rfl, he'⟩
    exact h.last j q.1 l hj hs hr

def unnamedItem : Node :=
  { kind := .tag, name := some "li", attributes := [("id", .null)] }

def unnamedList : Node := { kind := .tag, name := some "ol", children := [unnamedItem] }

def unnamedDocument : Node := { kind := .document, children := [unnamedList] }

/-- The text that `null` is shown with is no identifier. -/
theorem not_get?_ofNode_iff_shown :
    ¬∀ (n : Node) (key : String) (m : Nat), Ordered.get? (Index.ofNode n) key = some m ↔
      ∃ i item list, IsLastItem (fun v => some v.display) n key i item list ∧
        m = 1 + itemsOf list.1 ((n.placed [] 0).take i) := by
  intro h
  have hlast : IsLastItem (fun v => some v.display) unnamedDocument "#None" 2 unnamedItem
      (1, unnamedList) := by
    refine ⟨⟨[(1, unnamedList), (0, unnamedDocument)], rfl, rfl, rfl⟩, ?_, ?_⟩
    · exact .identifier (s := "None") rfl (by decide)
    · rintro j item list hj ⟨above, hp, -, -⟩
      rw [List.getElem?_eq_none (Nat.succ_le_of_lt hj)] at hp
      cases hp
  have hget := (h unnamedDocument "#None" 1).2 ⟨_, _, _, hlast, rfl⟩
  revert hget
  decide

end Reference

end DocPress
