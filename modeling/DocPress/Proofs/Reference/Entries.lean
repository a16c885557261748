import DocPress.Reference

/-!
# The entries of an index

The index is made from the items of a document, in document order. Each item that stands
in a list has a number and registers its selectors, a later one over an earlier one, so
what is found under a selector is the number of the last item that registers it.
-/

set_option autoImplicit false

namespace DocPress

namespace Node

mutual

/-- The nodes of a tree in document order, each with the nodes above it, nearest first. -/
def lineage (above : List Node) : Node → List (Node × List Node)
  | ⟨kind, name, attributes, children, content⟩ =>
    (⟨kind, name, attributes, children, content⟩, above) ::
      lineageAll (⟨kind, name, attributes, children, content⟩ :: above) children

def lineageAll (above : List Node) : List Node → List (Node × List Node)
  | [] => []
  | n :: ns => lineage above n ++ lineageAll above ns

end

theorem lineage_eq (above : List Node) (n : Node) :
    lineage above n = (n, above) :: lineageAll (n :: above) n.children := by
  cases n
  rfl

mutual

theorem map_fst_lineage (above : List Node) : ∀ n : Node, (n.lineage above).map Prod.fst = n.walk
  | ⟨kind, name, attributes, children, content⟩ => by
    rw [lineage, walk, List.map_cons, map_fst_lineageAll]

theorem map_fst_lineageAll (above : List Node) :
    ∀ ns : List Node, (lineageAll above ns).map Prod.fst = walkAll ns
  | [] => rfl
  | n :: ns => by
    rw [lineageAll, walkAll, List.map_append, map_fst_lineage, map_fst_lineageAll]

end

/-- Whether a node becomes an item: the tag for it, or an item of a Markdown list. -/
def isItem (n : Node) : Bool := n.isTagNamed Schema.itemTag || n.kind == .item

end Node

namespace Reference

/-- An item of a document: its node, the nodes above it, the number it has if a list is
open around it, and the selectors that it registers. -/
structure Entry where
  node : Node
  above : List Node
  number : Option Nat
  keys : List String

def Entry.register (index : Index) (e : Entry) : Index :=
  match e.number with
  | some k => Reference.register index e.keys k
  | none => index

def takeNumber (scope : Option Scope) (attributes : Attributes) :
    Option Scope × Option Nat × List String :=
  match scope with
  | some s => (some ⟨s.list, s.count + 1⟩, some (s.count + 1), selectors s.list attributes)
  | none => (none, none, [])

mutual

def entries (above : List Node) (scope : Option Scope) : Node → Option Scope × List Entry
  | ⟨kind, name, attributes, children, content⟩ =>
    let n : Node := ⟨kind, name, attributes, children, content⟩
    if n.isTagNamed Schema.listTag then
      (scope, (entriesAll (n :: above)
        (some ⟨label? (Attributes.get attributes "id"), 0⟩) children).2)
    else if n.isTagNamed Schema.itemTag then
      let (scope, number, keys) := takeNumber scope attributes
      let (scope, es) := entriesAll (n :: above) scope children
      (scope, ⟨n, above, number, keys⟩ :: es)
    else if kind = .item then
      let (scope, es) := entriesAll (n :: above) scope children
      (scope, ⟨n, above, none, []⟩ :: es)
    else entriesAll (n :: above) scope children

def entriesAll (above : List Node) (scope : Option Scope) :
    List Node → Option Scope × List Entry
  | [] => (scope, [])
  | n :: ns =>
    let (scope, es) := entries above scope n
    let (scope, fs) := entriesAll above scope ns
    (scope, es ++ fs)

end

/-- One node on a walk over items that are counted in the innermost open list: what the walk below
the node comes to is counted in the list that the node opens, or in the one around it. -/
def visit (above : List Node) (scope : Option Scope) (n : Node)
    (below : Option Scope → Option Scope × List Entry) : Option Scope × List Entry :=
  if n.isTagNamed Schema.listTag then
    (scope, (below (some ⟨label? (Attributes.get n.attributes "id"), 0⟩)).2)
  else if n.isTagNamed Schema.itemTag then
    let (scope, number, keys) := takeNumber scope n.attributes
    let (scope, es) := below scope
    (scope, ⟨n, above, number, keys⟩ :: es)
  else if n.kind = .item then
    let (scope, es) := below scope
    (scope, ⟨n, above, none, []⟩ :: es)
  else below scope

theorem entries_eq (above : List Node) (scope : Option Scope) (n : Node) :
    entries above scope n =
      visit above scope n fun scope => entriesAll (n :: above) scope n.children := by
  cases n
  rfl

/-! ## The index is made from the entries -/

mutual

theorem collect_eq (above : List Node) (scope : Option Scope) (index : Index) :
    ∀ n : Node, collect scope index n =
      ((entries above scope n).1, (entries above scope n).2.foldl Entry.register index)
  | ⟨kind, name, attributes, children, content⟩ => by
    have hall := fun scope index =>
      collectAll_eq (⟨kind, name, attributes, children, content⟩ :: above) scope index children
    rw [collect.eq_def, entries]
    simp only [hall, Node.isTagNamed, Bool.and_eq_true, beq_iff_eq]
    split
    · rfl
    split
    · cases scope <;> rfl
    split <;> rfl

theorem collectAll_eq (above : List Node) (scope : Option Scope) (index : Index) :
    ∀ ns : List Node, collectAll scope index ns =
      ((entriesAll above scope ns).1, (entriesAll above scope ns).2.foldl Entry.register index)
  | [] => rfl
  | n :: ns => by
    have hns := fun scope index => collectAll_eq above scope index ns
    simp only [collectAll, entriesAll, collect_eq above scope index n, hns, List.foldl_append]

end

/-- The index of a document is made from its items in document order. -/
theorem ofNode_eq (n : Node) : Index.ofNode n = (entries [] none n).2.foldl Entry.register [] := by
  rw [Index.ofNode, collect_eq []]

/-! ## Looking up -/

def Entry.Registers (e : Entry) (s : String) : Prop := ∃ k, e.number = some k ∧ s ∈ e.keys

/-- The last of some items that registers a selector, and its place among them. -/
structure IsLast (es : List Entry) (s : String) (i : Nat) (e : Entry) : Prop where
  get : es[i]? = some e
  registers : e.Registers s
  last : ∀ j f, i < j → es[j]? = some f → ¬f.Registers s

theorem get?_register (index : Index) (keys : List String) (k : Nat) (s : String) :
    (register index keys k).get? s = if s ∈ keys then some k else index.get? s := by
  induction keys generalizing index with
  | nil => simp [register]
  | cons key keys ih =>
    unfold register at ih
    rw [register, List.foldl_cons, ih, Ordered.get?_set]
    by_cases hs : s ∈ keys
    · simp [hs]
    · simp [hs]

theorem get?_entry_register (index : Index) (e : Entry) {s : String} {k : Nat}
    (h : (e.register index).get? s = some k) :
    (e.number = some k ∧ s ∈ e.keys) ∨ (¬e.Registers s ∧ index.get? s = some k) := by
  unfold Entry.register at h
  cases hn : e.number with
  | none =>
    rw [hn] at h
    exact Or.inr ⟨fun ⟨k, hk, _⟩ => by simp [hn] at hk, h⟩
  | some number =>
    rw [hn] at h
    dsimp only at h
    rw [get?_register] at h
    by_cases hs : s ∈ e.keys
    · rw [if_pos hs] at h
      exact Or.inl ⟨h, hs⟩
    · rw [if_neg hs] at h
      exact Or.inr ⟨fun ⟨_, _, hm⟩ => hs hm, h⟩

theorem get?_foldl_register {es : List Entry} {index : Index} {s : String} {k : Nat}
    (h : Ordered.get? (es.foldl Entry.register index) s = some k) :
    (∃ i e, IsLast es s i e ∧ e.number = some k) ∨
      (∀ e ∈ es, ¬e.Registers s) ∧ index.get? s = some k := by
  induction es generalizing index with
  | nil => exact Or.inr ⟨by simp, h⟩
  | cons e es ih =>
    rcases ih h with ⟨i, f, hlast, hk⟩ | ⟨hnone, hindex⟩
    · refine Or.inl ⟨i + 1, f, ⟨hlast.get, hlast.registers, fun j g hj hg => ?_⟩, hk⟩
      obtain ⟨j, rfl⟩ : ∃ m, j = m + 1 := ⟨j - 1, by omega⟩
      exact hlast.last j g (by omega) hg
    · rcases get?_entry_register index e hindex with ⟨hk, hs⟩ | ⟨hn, hindex⟩
      · refine Or.inl ⟨0, e, ⟨rfl, ⟨k, hk, hs⟩, fun j g hj hg => ?_⟩, hk⟩
        obtain ⟨j, rfl⟩ : ∃ m, j = m + 1 := ⟨j - 1, by omega⟩
        exact hnone g (List.mem_of_getElem? hg)
      · exact Or.inr ⟨List.forall_mem_cons.2 ⟨hn, hnone⟩, hindex⟩

/-- What an index holds for a selector is the number of the last item that registers it. -/
theorem exists_isLast {n : Node} {s : String} {k : Nat}
    (h : Ordered.get? (Index.ofNode n) s = some k) :
    ∃ i e, IsLast (entries [] none n).2 s i e ∧ e.number = some k := by
  rw [ofNode_eq] at h
  rcases get?_foldl_register h with h | ⟨-, h⟩
  · exact h
  · cases h

/-! ## The items of a tree -/

mutual

theorem map_entries (above : List Node) (scope : Option Scope) :
    ∀ n : Node, (entries above scope n).2.map (fun e => (e.node, e.above)) =
      (n.lineage above).filter fun p => p.1.isItem
  | ⟨kind, name, attributes, children, content⟩ => by
    have hall := fun scope =>
      map_entriesAll (⟨kind, name, attributes, children, content⟩ :: above) scope children
    rw [entries, Node.lineage, List.filter_cons]
    simp only [Node.isItem, Bool.or_eq_true, beq_iff_eq]
    split
    · next hlist =>
      have hn : ¬((⟨kind, name, attributes, children, content⟩ : Node).isTagNamed
          Schema.itemTag = true ∨ kind = .item) := by
        simp only [Node.isTagNamed, Bool.and_eq_true, beq_iff_eq] at hlist ⊢
        rintro (⟨-, hitem⟩ | hitem)
        · exact absurd (hlist.2.symm.trans hitem) (by decide)
        · exact absurd (hlist.1.symm.trans hitem) (by decide)
      rw [if_neg hn]
      exact hall _
    split
    · next hitem =>
      rw [if_pos (Or.inl hitem), List.map_cons]
      exact congrArg _ (hall _)
    split
    · next hitem =>
      rw [if_pos (Or.inr hitem), List.map_cons]
      exact congrArg _ (hall _)
    · next hitem hkind =>
      rw [if_neg (not_or.2 ⟨hitem, hkind⟩)]
      exact hall _

theorem map_entriesAll (above : List Node) (scope : Option Scope) :
    ∀ ns : List Node, (entriesAll above scope ns).2.map (fun e => (e.node, e.above)) =
      (Node.lineageAll above ns).filter fun p => p.1.isItem
  | [] => rfl
  | n :: ns => by
    simp only [entriesAll, Node.lineageAll, List.map_append, List.filter_append,
      map_entries above scope n, map_entriesAll above _ ns]

end

theorem map_node_entries (above : List Node) (scope : Option Scope) (n : Node) :
    (entries above scope n).2.map Entry.node = n.walk.filter Node.isItem := by
  have h := congrArg (List.map Prod.fst) (map_entries above scope n)
  rw [List.map_map] at h
  rw [← Node.map_fst_lineage above, List.filter_map]
  exact h

end Reference

end DocPress
