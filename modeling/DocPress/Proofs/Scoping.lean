import Mathlib.Data.List.Nodup
import DocPress.Proofs.Compilation
import DocPress.Proofs.Inclusion.Outcome
import DocPress.Proofs.Reference.Entries

/-!
# The numbers that a document can look up

The index of an included document is laid over what its includer can look up, which in turn is
made of the documents further out. So what is handed down along a path of inclusions answers
like the indexes of the documents on the path, asked one after the other from the innermost
out, and nothing is handed back or on to the next partial.
-/

set_option autoImplicit false

namespace DocPress

/-! ## Layers -/

namespace Ordered

variable {α : Type}

theorem get?_cons (k : String) (v : α) (d : Ordered α) (key : String) :
    get? ((k, v) :: d) key = if key = k then some v else get? d key := by
  by_cases h : key = k
  · subst h
    simp [get?]
  · have hb : (key == k) = false := by simpa using h
    simp [get?, List.lookup_cons, hb, h]

theorem get?_append (d e : Ordered α) (key : String) :
    get? (d ++ e) key = (get? d key).or (get? e key) := by
  induction d with
  | nil => rfl
  | cons entry d ih =>
    rw [List.cons_append, get?_cons, get?_cons, ih]
    by_cases h : key = entry.1 <;> simp [h]

theorem get?_eq_none {d : Ordered α} {key : String} (h : key ∉ d.keys) : get? d key = none := by
  induction d with
  | nil => rfl
  | cons entry d ih =>
    rw [keys, List.map_cons, List.mem_cons, not_or] at h
    rw [get?_cons, if_neg h.1, ih h.2]

theorem keys_set (d : Ordered α) (key : String) (v : α) :
    (d.set key v).keys = if key ∈ d.keys then d.keys else d.keys ++ [key] := by
  induction d with
  | nil => rfl
  | cons entry d ih =>
    by_cases h : entry.1 = key
    · simp [set, keys, h]
    · have hne : ¬key = entry.1 := fun e => h e.symm
      unfold keys at ih
      simp only [set, h, if_false, keys, List.map_cons, ih, List.mem_cons, hne, false_or]
      split <;> rfl

theorem nodup_keys_set {d : Ordered α} (h : d.keys.Nodup) (key : String) (v : α) :
    (d.set key v).keys.Nodup := by
  rw [keys_set]
  split
  · exact h
  · next hkey => exact List.nodup_append.2 ⟨h, by simp, fun a ha b hb e => by simp_all⟩

/-- The entries that are laid over are found before those below. -/
theorem get?_overlay (d : Ordered α) {e : Ordered α} (h : e.keys.Nodup) (key : String) :
    get? (overlay d e) key = (get? e key).or (get? d key) := by
  induction e generalizing d with
  | nil => rfl
  | cons entry e ih =>
    rw [keys, List.map_cons, List.nodup_cons] at h
    have hrest : get? (overlay d (entry :: e)) key =
        (get? e key).or (get? (d.set entry.1 entry.2) key) := ih (d.set entry.1 entry.2) h.2
    rw [hrest, get?_set, get?_cons]
    by_cases hkey : key = entry.1
    · subst hkey
      rw [get?_eq_none h.1]
      simp
    · simp [hkey]

end Ordered

namespace Reference

theorem nodup_keys_register {index : Index} (h : (Ordered.keys index).Nodup) (e : Entry) :
    (Ordered.keys (e.register index)).Nodup := by
  unfold Entry.register
  cases e.number with
  | none => exact h
  | some k =>
    exact List.foldlRecOn (motive := fun index => (Ordered.keys index).Nodup) e.keys _ h
      fun _ h key _ => Ordered.nodup_keys_set h key k

theorem nodup_keys_ofNode (n : Node) : (Ordered.keys (Index.ofNode n)).Nodup := by
  rw [ofNode_eq]
  exact List.foldlRecOn (motive := fun index => (Ordered.keys index).Nodup) _ _ List.nodup_nil
    fun _ h e _ => nodup_keys_register h e

/-- What the documents on a path hold for a selector, the innermost first. -/
def nearest? (docs : List Node) (s : String) : Option Nat :=
  docs.findSome? fun n => Ordered.get? (Index.ofNode n) s

def layers (docs : List Node) : Index := docs.flatMap Index.ofNode

theorem get?_layers (docs : List Node) (s : String) :
    Ordered.get? (layers docs) s = nearest? docs s := by
  induction docs with
  | nil => rfl
  | cons n docs ih =>
    unfold layers nearest? at ih ⊢
    rw [List.flatMap_cons, Ordered.get?_append, ih, List.findSome?_cons]
    cases Ordered.get? (Index.ofNode n) s <;> rfl

def Answers (index : Index) (docs : List Node) : Prop :=
  ∀ s, Ordered.get? index s = nearest? docs s

theorem answers_ofNode (n : Node) : Answers (Index.ofNode n) [n] := by
  intro s
  unfold nearest?
  rw [List.findSome?_cons]
  cases Ordered.get? (Index.ofNode n) s <;> rfl

/-- One document further in, its own entries are found first. -/
theorem Answers.merge {index : Index} {docs : List Node} (h : Answers index docs) (n : Node) :
    Answers (index.merge (.ofNode n)) (n :: docs) := by
  intro s
  rw [Index.merge, Ordered.get?_overlay index (nodup_keys_ofNode n), h s]
  unfold nearest?
  rw [List.findSome?_cons]
  cases Ordered.get? (Index.ofNode n) s <;> rfl

end Reference

/-! ## Resolving with one index or another -/

namespace Resolution

section

variable {scope : Scope} {index : Reference.Index}

theorem call_congr (h : ∀ s, Ordered.get? scope.index s = Ordered.get? index s)
    (name : Option String) (attributes : Attributes) :
    call scope.index name attributes = call index name attributes := by
  have hlookup : ∀ v, scope.index.lookup v = index.lookup v := by
    intro v
    simp only [Reference.Index.lookup, h]
  simp only [call, hlookup]

mutual

/-- Of an index only what it answers matters. -/
theorem resolve_index_congr (h : ∀ s, Ordered.get? scope.index s = Ordered.get? index s) :
    ∀ n : Node, resolve scope n = resolve { scope with index := index } n
  | ⟨kind, name, attributes, children, content⟩ => by
    have hall := resolveAll_index_congr h children
    cases kind with
    | text | fence | code | softBreak | image => rfl
    | function => simp only [resolve, call_congr h]
    | _ => simp only [resolve, includeFile, containerName?, hall]

theorem resolveAll_index_congr (h : ∀ s, Ordered.get? scope.index s = Ordered.get? index s) :
    ∀ ns : List Node, resolveAll scope ns = resolveAll { scope with index := index } ns
  | [] => rfl
  | n :: ns => by
    rw [resolveAll, resolveAll, resolve_index_congr h n, resolveAll_index_congr h ns]

end

end

end Resolution

/-! ## Documents on a path of inclusions -/

namespace Compilation

open Resolution Reference

/-- The render tree of the partial with a name, where the documents on the path to it are known,
the innermost first, and are all that it looks numbers up in. -/
def includeAlong (files : FileTree) : Nat → Place → List Node → String → Reporting Element
  | depth, place, docs, file =>
    let written := place.directory ++ Path.ofString file
    let path := written.real
    if written.hasNul then .fail .nulInPath
    else if !files.isFile path then do
      .note (.partialNotFound path)
      pure (.value .null)
    else if place.chain.contains path then .fail (.cyclicInclusion (place.chain ++ [path]))
    else
      match depth with
      | 0 => pure (.value .null)
      | depth + 1 => do
        let n ← documentOf files path
        let docs := n :: docs
        let inner : Place := ⟨path.parent, place.chain ++ [path]⟩
        Resolved.document <$>
          resolve (scope inner (layers docs) (includeAlong files depth inner docs)) n

theorem includeAlong_succ (files : FileTree) (depth : Nat) (place : Place) (docs : List Node)
    (file : String) :
    includeAlong files (depth + 1) place docs file =
      (let written := place.directory ++ Path.ofString file
      let path := written.real
      if written.hasNul then .fail .nulInPath
      else if !files.isFile path then do
        .note (.partialNotFound path)
        pure (.value .null)
      else if place.chain.contains path then .fail (.cyclicInclusion (place.chain ++ [path]))
      else documentOf files path >>= fun n =>
        let inner : Place := ⟨path.parent, place.chain ++ [path]⟩
        Resolved.document <$>
          resolve (scope inner (layers (n :: docs)) (includeAlong files depth inner (n :: docs)))
            n) := rfl

theorem resolve_scope_layers {index : Index} {docs : List Node} (h : Answers index docs)
    (place : Place) (include_ : String → Reporting Element) (n : Node) :
    resolve (scope place index include_) n = resolve (scope place (layers docs) include_) n := by
  have hanswers : ∀ s, Ordered.get? index s = Ordered.get? (layers docs) s := by
    intro s
    rw [h s, get?_layers]
  exact resolve_index_congr hanswers n

theorem includePartial_eq_includeAlong (files : FileTree) (depth : Nat) (place : Place)
    {index : Index} {docs : List Node} (h : Answers index docs) :
    includePartial files depth place index = includeAlong files depth place docs := by
  induction depth generalizing place index docs with
  | zero => rfl
  | succ depth ih =>
    funext file
    rw [includePartial_succ, includeAlong_succ]
    simp only [ih _ (h.merge _), resolve_scope_layers (h.merge _)]

/-- The Markdown of a template, where each document looks numbers up in the documents on the
path to it. -/
def compileAlong (files : FileTree) (source : String) (directory : Path) (file : Option Path) :
    Reporting String := do
  let n ← Document.read ((file.map Path.toString).getD "") source
  let place : Place := ⟨directory, (file.map Path.real).toList⟩
  Element.render <$> Resolved.document <$> resolve (scope place (layers [n])
    (includeAlong files (files.files.length + 1) place [n])) n

theorem resolve_call_layers (docs : List Node) (place : Place)
    (include_ : String → Reporting Element) {m : Node} {s : String} {rest : List Value}
    (hkind : m.kind = .function) (hname : m.name.getD "" ∈ Schema.referenceFunctions)
    (hargs : arguments? ((Ordered.get? m.attributes "args").getD (.list [])) =
      some (.string s :: rest)) :
    resolve (scope place (layers docs) include_) m =
      pure (.one (.value (match nearest? docs s with
        | some k => .int k
        | none => .string "?"))) := by
  obtain ⟨kind, name, attributes, children, content⟩ := m
  obtain rfl : kind = .function := hkind
  have hcontains : Schema.referenceFunctions.contains (name.getD "") = true := by simpa using hname
  simp only [resolve, call, if_pos hcontains, hargs, scope, List.head?_cons, Option.getD_some,
    Index.lookup, get?_layers]
  rfl

/-- Compiling looks numbers up along the path of inclusions: in each document a call with a
selector shows what the innermost document on the path that has the selector holds for it, and
a question mark if none of them has it. -/
theorem compile_scoped (files : FileTree) :
    (∀ source directory file,
      compileText files source directory file = compileAlong files source directory file) ∧
    (∀ p, compileFile files p = do
      let source ← .ofExcept (files.load p.real)
      compileAlong files source p.real.parent (some p.real)) ∧
    ∀ (docs : List Node) (place : Place) (include_ : String → Reporting Element) (m : Node)
      (s : String) (rest : List Value), m.kind = .function →
      m.name.getD "" ∈ Schema.referenceFunctions →
      arguments? ((Ordered.get? m.attributes "args").getD (.list [])) = some (.string s :: rest) →
      resolve (scope place (layers docs) include_) m =
        pure (.one (.value (match nearest? docs s with
          | some k => .int k
          | none => .string "?"))) := by
  have htext : ∀ source directory file,
      compileText files source directory file = compileAlong files source directory file := by
    intro source directory file
    rw [compileText, compileAlong]
    refine Reporting.bind_congr_of_ok fun n _ => ?_
    have hn := answers_ofNode n
    simp only [renderTree, includePartial_eq_includeAlong files _ _ hn, resolve_scope_layers hn]
  refine ⟨htext, fun p => ?_, fun docs place include_ m s rest =>
    resolve_call_layers docs place include_⟩
  simp only [compileFile, htext]

def numbered (ids : List String) : Node :=
  let item (id : String) : Node :=
    { kind := .tag, name := some Schema.itemTag, attributes := [("id", .string id)] }
  { kind := .document,
    children := [{ kind := .tag, name := some Schema.listTag, children := ids.map item }] }

def reference (s : String) : Node :=
  { kind := .function, name := some "ref", attributes := [("args", .list [.string s])] }

/-- Two documents have an item `x`; the inner one is not seen from the outer one. -/
theorem compile_scoped_of_nested :
    let place : Place := ⟨⟨.root, []⟩, []⟩
    let shown (docs : List Node) (s : String) :=
      resolve (scope place (layers docs) fun _ => pure (.value .null)) (reference s)
    shown [numbered ["z", "w", "x"], numbered ["x", "y"]] "#x" = pure (.one (.value (.int 3))) ∧
      shown [numbered ["z", "w", "x"], numbered ["x", "y"]] "#y" = pure (.one (.value (.int 2))) ∧
      shown [numbered ["x", "y"]] "#z" = pure (.one (.value (.string "?"))) := by
  intro place shown
  obtain ⟨-, -, hcall⟩ := compile_scoped (.directory [])
  have hshown : ∀ docs s, shown docs s = pure (.one (.value (match nearest? docs s with
      | some k => .int k
      | none => .string "?"))) := by
    intro docs s
    have hname : "ref" ∈ Schema.referenceFunctions := by decide
    exact hcall docs place _ (reference s) s [] rfl hname rfl
  have hinner : nearest? [numbered ["z", "w", "x"], numbered ["x", "y"]] "#x" = some 3 := by
    decide +kernel
  have houter : nearest? [numbered ["z", "w", "x"], numbered ["x", "y"]] "#y" = some 2 := by
    decide +kernel
  have hnone : nearest? [numbered ["x", "y"]] "#z" = none := by decide +kernel
  rw [hshown, hshown, hshown, hinner, houter, hnone]
  exact ⟨rfl, rfl, rfl⟩

end Compilation

end DocPress
