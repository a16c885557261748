import DocPress.Dependency
import DocPress.Proofs.Document.Flattening
import DocPress.Proofs.Reference.Numbers
import DocPress.Proofs.Resolution

/-!
# Tags without a meaning

A tag that is not one of the built-in ones may be taken away wherever it stands, with its
children left in its place, and so may any number of them in each other. Neither the
numbers of items, nor the partials that are included, nor the elements that the document
becomes tell the difference. Only notices do: a tag inside an inclusion tag is ignored, and
what is ignored is noticed.
-/

set_option autoImplicit false

namespace DocPress

namespace Node

structure IsTransparent (n : Node) : Prop where
  kind : n.kind = .tag
  name : ∀ tag ∈ Schema.tags, n.name ≠ some tag.name

/-- Some nodes and the same with some transparent tags among them, and below them, replaced by
their children. -/
inductive Splices : List Node → List Node → Prop
  | nil : Splices [] []
  | keep {n : Node} {children ns ms : List Node} : Splices n.children children → Splices ns ms →
      Splices (n :: ns) ({ n with children := children } :: ms)
  | splice {n : Node} {children ns ms : List Node} : n.IsTransparent →
      Splices n.children children → Splices ns ms → Splices (n :: ns) (children ++ ms)

theorem IsTransparent.find?_eq_none {n : Node} (h : n.IsTransparent) :
    Schema.find? (n.name.getD "") = none := by
  rw [Schema.find?, List.find?_eq_none]
  intro tag ht htag
  cases hn : n.name with
  | none =>
    rw [hn] at htag
    revert tag
    decide
  | some s =>
    rw [hn, Option.getD_some, beq_iff_eq] at htag
    exact h.name tag ht (by rw [hn, htag])

theorem IsTransparent.isTagNamed {n : Node} (h : n.IsTransparent) {name : String}
    (hname : ∃ tag ∈ Schema.tags, tag.name = name) : n.isTagNamed name = false := by
  obtain ⟨tag, ht, rfl⟩ := hname
  simp [Node.isTagNamed, h.name tag ht]

theorem walkAll_append (ns ms : List Node) : walkAll (ns ++ ms) = walkAll ns ++ walkAll ms := by
  simp only [walkAll_eq_flatMap, List.flatMap_append]

end Node

open Node

/-! ## The index -/

namespace Reference

variable {n : Node} {children : List Node}

theorem collectAll_cons (scope : Option Scope) (index : Index) (n : Node) (ns : List Node) :
    collectAll scope index (n :: ns) =
      collectAll (collect scope index n).1 (collect scope index n).2 ns := rfl

theorem collectAll_append (scope : Option Scope) (index : Index) (ns ms : List Node) :
    collectAll scope index (ns ++ ms) =
      collectAll (collectAll scope index ns).1 (collectAll scope index ns).2 ms := by
  induction ns generalizing scope index with
  | nil => rfl
  | cons n ns ih => exact ih _ _

/-- Of the children of a node only what they add matters. -/
theorem collect_congr (h : ∀ scope index, collectAll scope index n.children =
      collectAll scope index children) (scope : Option Scope) (index : Index) :
    collect scope index n = collect scope index { n with children := children } := by
  obtain ⟨kind, name, attributes, old, content⟩ := n
  rw [collect.eq_def, collect.eq_def]
  simp only [h]

theorem collectAll_of_splices {ns ms : List Node} (h : Splices ns ms) (scope : Option Scope)
    (index : Index) : collectAll scope index ns = collectAll scope index ms := by
  induction h generalizing scope index with
  | nil => rfl
  | keep _ _ ih ihs => rw [collectAll_cons, collectAll_cons, collect_congr ih, ihs]
  | splice hn _ _ ih ihs =>
    rw [collectAll_cons, collectAll_append, collect_of_other (hn.isTagNamed (by decide))
      (hn.isTagNamed (by decide)), ih, ihs]

end Reference

/-! ## The partials -/

namespace Dependency

theorem included?_children (n : Node) (children : List Node) :
    included? { n with children := children } = included? n := rfl

theorem included?_of_isTransparent {n : Node} (h : n.IsTransparent) : included? n = none :=
  if_neg (by rw [h.isTagNamed (by decide), Bool.false_and]; exact Bool.false_ne_true)

theorem filterMap_included_of_splices {ns ms : List Node} (h : Splices ns ms) :
    (walkAll ns).filterMap included? = (walkAll ms).filterMap included? := by
  induction h with
  | nil => rfl
  | keep _ _ ih ihs =>
    simp only [walkAll, walk_eq, List.cons_append, List.filterMap_cons, List.filterMap_append,
      included?_children, ih, ihs]
  | splice hn _ _ ih ihs =>
    simp only [walkAll, walk_eq, walkAll_append, List.cons_append, List.filterMap_cons,
      List.filterMap_append, included?_of_isTransparent hn, ih, ihs]

theorem partials_of_splices {n : Node} {children : List Node} (h : Splices n.children children)
    (directory : Path) :
    partials directory n = partials directory { n with children := children } := by
  simp only [partials, walk_eq, List.filterMap_cons, included?_children,
    filterMap_included_of_splices h]

end Dependency

/-! ## The render tree -/

namespace Reporting

variable {α β : Type}

theorem bind_result (x : Reporting α) (f : α → Reporting β) :
    (x >>= f).result = x.result >>= fun a => (f a).result := by
  cases hx : x.result with
  | ok a => rw [bind_of_ok _ hx]; rfl
  | error e => rw [bind_of_error _ hx]; rfl

end Reporting

namespace Resolution

open Reporting

variable (scope : Scope)

theorem resolveAll_cons_result (n : Node) (ns : List Node) :
    (resolveAll scope (n :: ns)).result = (resolve scope n).result >>= fun r =>
      (resolveAll scope ns).result >>= fun es => .ok (r.elements ++ es) := by
  rw [resolveAll, bind_result]
  simp only [bind_result, pure_result]

theorem resolveAll_append_result (ns ms : List Node) :
    (resolveAll scope (ns ++ ms)).result = (resolveAll scope ns).result >>= fun es =>
      (resolveAll scope ms).result >>= fun fs => .ok (es ++ fs) := by
  induction ns with
  | nil =>
    show (resolveAll scope ms).result = (resolveAll scope ms).result >>= fun fs => .ok fs
    cases (resolveAll scope ms).result <;> rfl
  | cons n ns ih =>
    rw [List.cons_append, resolveAll_cons_result, resolveAll_cons_result, ih]
    cases (resolve scope n).result with
    | error e => rfl
    | ok r =>
      cases (resolveAll scope ns).result with
      | error e => rfl
      | ok es =>
        cases (resolveAll scope ms).result with
        | error e => rfl
        | ok fs => exact congrArg Except.ok (List.append_assoc ..).symm

/-- Whether a tag has content changes what is noticed about it, and nothing else. -/
theorem checkedAttributes_result (file : Option Path) (tag : Schema.Tag) (attributes : Attributes)
    (hasContent other : Bool) : (checkedAttributes file tag attributes hasContent).result =
      (checkedAttributes file tag attributes other).result := by
  unfold checkedAttributes
  dsimp only
  cases missing tag (declared tag attributes) <;> rfl

/-- Of the children of a node only what they become matters. -/
theorem resolve_result_congr {n : Node} {children : List Node}
    (h : (resolveAll scope n.children).result = (resolveAll scope children).result) :
    (resolve scope n).result = (resolve scope { n with children := children }).result := by
  obtain ⟨kind, name, attributes, old, content⟩ := n
  dsimp only at h
  cases kind with
  | tag =>
    simp only [resolve]
    cases Schema.find? (name.getD "") with
    | none => simp only [map_result, h]
    | some tag =>
      simp only [bind_result, checkedAttributes_result scope.file tag attributes (!old.isEmpty)
        (!children.isEmpty)]
      congr 1
      funext kept
      split
      · rfl
      · simp only [map_result, h]
  | text | function | fence | code | softBreak | image => rfl
  | _ => simp only [resolve, containerName?, map_result, h]

theorem resolve_of_isTransparent {n : Node} (h : n.IsTransparent) :
    resolve scope n = .many <$> resolveAll scope n.children := by
  have hfind := h.find?_eq_none
  obtain ⟨kind, name, attributes, children, content⟩ := n
  obtain rfl : kind = .tag := h.kind
  simp only [resolve]
  rw [hfind]

theorem resolveAll_of_splices {ns ms : List Node} (h : Splices ns ms) :
    (resolveAll scope ns).result = (resolveAll scope ms).result := by
  induction h with
  | nil => rfl
  | keep _ _ ih ihs =>
    rw [resolveAll_cons_result, resolveAll_cons_result, resolve_result_congr scope ih, ihs]
  | @splice n children ns ms hn _ _ ih ihs =>
    rw [resolveAll_cons_result, resolveAll_append_result, resolve_of_isTransparent scope hn,
      map_result, ih, ihs]
    cases (resolveAll scope children).result <;> rfl

end Resolution

namespace Compilation

open Document Reference Resolution

/-- However many transparent tags of a document are replaced by their children, its index and the
partials it includes stay the same, and so do the render tree and the compiled text that it
becomes, or the failure that it ends with, whatever can be looked up and included. -/
theorem transparent_tags_leave_no_trace {n : Node} {children : List Node}
    (h : Splices n.children children) :
    let m : Node := { n with children := children }
    Index.ofNode n = Index.ofNode m ∧
      (∀ directory, Dependency.partials directory n = Dependency.partials directory m) ∧
      (∀ scope, (resolve scope n).result = (resolve scope m).result) ∧
      ∀ files place, (Element.render <$> renderTree files place (Index.ofNode n) n).result =
        (Element.render <$> renderTree files place (Index.ofNode m) m).result := by
  intro m
  have hindex : Index.ofNode n = Index.ofNode m := by
    rw [Index.ofNode, Index.ofNode, collect_congr (collectAll_of_splices h)]
  have hresolve : ∀ scope, (resolve scope n).result = (resolve scope m).result := fun scope =>
    resolve_result_congr scope (resolveAll_of_splices scope h)
  refine ⟨hindex, Dependency.partials_of_splices h, hresolve, fun files place => ?_⟩
  simp only [renderTree, Reporting.map_result, hindex, hresolve]

def itemOf (id : String) (children : List Node) : Node :=
  tagNode Schema.itemTag [("id", .string id)] children

def includedRules : List Node := [tagNode Schema.partialTag [("file", .string "rules")] []]

def notedItems : List Node :=
  [tagNode Schema.listTag [] [tagNode "note" [] [itemOf "a" [], tagNode "note" []
    [itemOf "b" [tagNode "note" [] includedRules]]], itemOf "c" []]]

def plainItems : List Node :=
  [tagNode Schema.listTag [] [itemOf "a" [], itemOf "b" includedRules, itemOf "c" []]]

theorem splices_notedItems : Splices notedItems plainItems := by
  have hnote : ∀ children, (tagNode "note" [] children).IsTransparent := fun children =>
    ⟨rfl, show ∀ tag ∈ Schema.tags, some "note" ≠ some tag.name by decide⟩
  have hrules : Splices includedRules includedRules := .keep .nil .nil
  have hinner : Splices [itemOf "b" [tagNode "note" [] includedRules]] [itemOf "b" includedRules] :=
    .keep (.splice (hnote _) hrules .nil) .nil
  have houter : Splices
      [itemOf "a" [], tagNode "note" [] [itemOf "b" [tagNode "note" [] includedRules]]]
      [itemOf "a" [], itemOf "b" includedRules] := .keep .nil (.splice (hnote _) hinner .nil)
  exact .keep (.splice (hnote _) houter (.keep .nil .nil)) .nil

/-- The items of a list in which notes stand are numbered as without the notes. -/
theorem transparent_tags_leave_no_trace_of_notes :
    Splices notedItems plainItems ∧
      Index.ofNode { kind := .document, children := notedItems } =
        Index.ofNode { kind := .document, children := plainItems } ∧
      Index.ofNode { kind := .document, children := plainItems } =
        [("#a", 1), ("#b", 2), ("#c", 3)] :=
  ⟨splices_notedItems,
    (transparent_tags_leave_no_trace (n := { kind := .document, children := notedItems })
      splices_notedItems).1, by decide⟩

end Compilation

end DocPress
