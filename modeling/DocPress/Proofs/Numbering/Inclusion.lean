import DocPress.Proofs.Evaluation
import DocPress.Proofs.Inclusion.Depth
import DocPress.Proofs.Inclusion.Whole
import DocPress.Proofs.Numbering

/-!
# Numbers beside included items

The index of a document counts the document's own items. In print the items of a partial that
stand in no list of it take numbers as well, from the list around its tag. So an item of the
document is printed with the number that it has when those are counted, which is never less
than the number in the index, and the same where partials bring no such items.
-/

set_option autoImplicit false

namespace DocPress

namespace Element

mutual

/-- How many items of an element stand in no list of it. -/
def unlisted : Element → Nat
  | .value _ => 0
  | .sequence es => unlistedAll es
  | .named name _ children =>
    if name = "ol" ∨ name = "ul" then 0
    else if name = "li" then 1 + unlistedAll children
    else unlistedAll children

def unlistedAll : List Element → Nat
  | [] => 0
  | e :: es => unlisted e + unlistedAll es

end

def skipFrame (o : Option ListFrame) (k : Nat) : Option ListFrame :=
  o.map fun f => if f.numbered then { f with count := f.count + k } else f

@[simp] theorem skipFrame_zero (o : Option ListFrame) : skipFrame o 0 = o := by
  cases o <;> simp [skipFrame]

theorem skipFrame_add (o : Option ListFrame) (j k : Nat) :
    skipFrame o (j + k) = skipFrame (skipFrame o j) k := by
  cases o with
  | none => rfl
  | some f =>
    obtain ⟨numbered, count⟩ := f
    cases numbered <;> simp [skipFrame, Nat.add_assoc]

theorem takeMarker_snd (o : Option ListFrame) : (takeMarker o).2 = skipFrame o 1 := by
  cases o with
  | none => rfl
  | some f =>
    obtain ⟨numbered, count⟩ := f
    cases numbered <;> rfl

mutual

/-- An element takes as many numbers from the innermost list as it has items in no list of it. -/
theorem markers_snd (o : Option ListFrame) :
    ∀ e : Element, (markers o e).2 = skipFrame o e.unlisted
  | .value _ => (skipFrame_zero o).symm
  | .sequence items => markersAll_snd o items
  | .named name attributes children => by
    rw [markers, unlisted]
    split
    · exact (skipFrame_zero o).symm
    · split
      · rw [skipFrame_add, ← takeMarker_snd]
        exact markersAll_snd (takeMarker o).2 children
      · exact markersAll_snd o children

theorem markersAll_snd (o : Option ListFrame) :
    ∀ es : List Element, (markersAll o es).2 = skipFrame o (unlistedAll es)
  | [] => (skipFrame_zero o).symm
  | e :: es => by
    rw [markersAll_cons, markersAll_snd _ es, markers_snd o e, unlistedAll, skipFrame_add]

end

end Element

namespace Numbering

open Element Reference Resolution

/-! ## Counting what is printed -/

/-- Some more items in the innermost list. Only the tag of a list counts them. -/
def skip (above : List Node) (scope : Option Reference.Scope) (k : Nat) :
    Option Reference.Scope :=
  if (innermost? above).any (·.isTagNamed Schema.listTag) then
    scope.map fun s => { s with count := s.count + k }
  else scope

mutual

/-- The items that a tree is printed with, counted in the innermost open list. The items of a
partial have no numbers of their own here; their place is that of its tag. -/
def shown (included : Node → Element) (above : List Node) (scope : Option Reference.Scope) :
    Node → Option Reference.Scope × List Entry
  | ⟨kind, name, attributes, children, content⟩ =>
    let n : Node := ⟨kind, name, attributes, children, content⟩
    if n.isTagNamed Schema.partialTag then
      (skip above scope (included n).unlisted,
        (included n).items.map fun _ => ⟨n, above, none, []⟩)
    else visit above scope n fun scope => shownAll included (n :: above) scope children

def shownAll (included : Node → Element) (above : List Node) (scope : Option Reference.Scope) :
    List Node → Option Reference.Scope × List Entry
  | [] => (scope, [])
  | n :: ns =>
    let (scope, es) := shown included above scope n
    let (scope, fs) := shownAll included above scope ns
    (scope, es ++ fs)

end

variable {n : Node} {above : List Node} {base scope : Option Reference.Scope}
  {o : Option ListFrame} {included : Node → Element}

theorem shown_of_partial (hn : n.isTagNamed Schema.partialTag = true) :
    shown included above scope n = (skip above scope (included n).unlisted,
      (included n).items.map fun _ => ⟨n, above, none, []⟩) := by
  obtain ⟨kind, name, attributes, children, content⟩ := n
  rw [shown, if_pos hn]

theorem shown_of_not_partial (hn : n.isTagNamed Schema.partialTag = false) :
    shown included above scope n =
      visit above scope n fun scope => shownAll included (n :: above) scope n.children := by
  obtain ⟨kind, name, attributes, children, content⟩ := n
  rw [shown, if_neg (by simp [hn])]

theorem not_tagged_of_partial {s : String} (hn : n.isTagNamed Schema.partialTag = true)
    (hs : s ≠ Schema.partialTag) : n.isTagNamed s = false := by
  simp only [Node.isTagNamed, Bool.and_eq_true, beq_iff_eq] at hn
  simpa [Node.isTagNamed, hn] using fun h => hs h.symm

theorem isOther_of_partial (hn : n.isTagNamed Schema.partialTag = true) : IsOther n := by
  have hkind : n.kind = .tag := by
    simp only [Node.isTagNamed, Bool.and_eq_true, beq_iff_eq] at hn
    exact hn.1
  exact ⟨not_tagged_of_partial hn (by decide), not_tagged_of_partial hn (by decide),
    by rw [hkind]; decide, by rw [hkind]; decide⟩

/-! ## The counter of the printer -/

theorem agree_skip (h : Agree above base scope o) (k : Nat) :
    Agree above base (skip above scope k) (skipFrame o k) := by
  unfold skip
  cases hi : innermost? above with
  | none => exact ⟨h.isSome, by rw [hi]; nofun, by rw [hi]; nofun⟩
  | some a =>
    by_cases ha : a.isTagNamed Schema.listTag = true
    · obtain ⟨s, f, rfl, rfl, hf, hcount⟩ := h.counted a hi ha
      rw [Option.any_some, if_pos ha]
      refine ⟨h.isSome, fun _ _ _ => ⟨_, { f with count := f.count + k }, rfl, ?_, hf, ?_⟩,
        fun b hb hbf => ?_⟩
      · rw [skipFrame, Option.map_some, if_pos hf]
      · exact congrArg (· + k) hcount
      · rw [hi, Option.some.injEq] at hb
        subst hb
        cases ha.symm.trans hbf
    · rw [Option.any_some, if_neg ha]
      refine ⟨h.isSome, fun b hb hbt => ?_, h.rests⟩
      rw [hi, Option.some.injEq] at hb
      subst hb
      exact absurd hbt ha

theorem agrees_partial (included : Node → Element) (hn : n.isTagNamed Schema.partialTag = true)
    (h : Agree above base scope o) :
    Agrees above base (shown included above scope n) (markers o (included n)) := by
  rw [shown_of_partial hn]
  refine ⟨markers_snd o (included n) ▸ agree_skip h _, ?_⟩
  rw [List.forall₂_iff_zip]
  refine ⟨by rw [List.length_map, length_markers], fun {e m} hem => ?_⟩
  obtain ⟨item, -, rfl⟩ := List.mem_map.1 (List.of_mem_zip hem).1
  refine ⟨nofun, fun hitem => ?_⟩
  cases hitem.symm.trans (not_tagged_of_partial hn (by decide))

theorem agrees_of_yields {resolved : Resolution.Scope} {ns : List Node} {es : List Element}
    (hy : Yields resolved ns es) (h : Agree above base scope o)
    (hc : ∀ p ∈ Node.lineageAll above ns, IsCounted p.1 p.2) :
    Agrees above base (shownAll (Resolution.included resolved) above scope ns)
      (markersAll o es) := by
  induction hy generalizing above base scope o with
  | nil => exact ⟨h, .nil⟩
  | @cons n ns r es gs fs hn _ _ _ hb _ ih ihs =>
    rw [Node.lineageAll, List.forall_mem_append, Node.lineage_eq, List.forall_mem_cons] at hc
    have hleaf : n.children = [] → ∀ scope,
        shownAll (Resolution.included resolved) (n :: above) scope n.children = (scope, []) := by
      intro hnil scope
      rw [hnil, shownAll]
    have hnode := agrees_node hb hc.1.1 hleaf h fun base scope o h => ih h hc.1.2
    rw [← shown_of_not_partial hn] at hnode
    have hrest := ihs hnode.counters hc.2
    rw [markersAll_append]
    exact ⟨hrest.counters, List.rel_append hnode.marked hrest.marked⟩
  | included hn _ _ ihs =>
    rw [Node.lineageAll, List.forall_mem_append] at hc
    have hnode := agrees_partial (Resolution.included resolved) hn h
    have hrest := ihs hnode.counters hc.2
    exact ⟨hrest.counters, List.rel_append hnode.marked hrest.marked⟩

/-! ## The items of the render tree -/

/-- An item of the render tree: what an item node of the document becomes, or an item of a
partial. -/
def ComesFrom (resolved : Resolution.Scope) (e : Entry) (item : Element) : Prop :=
  if e.node.isTagNamed Schema.partialTag then
    item ∈ (Resolution.included resolved e.node).items
  else BecomesItem resolved e.node item

theorem exists_visit (above : List Node) (scope : Option Reference.Scope) (n : Node)
    (below : Option Reference.Scope → Option Reference.Scope × List Entry) :
    ∃ inner e, e.node = n ∧
      (visit above scope n below).2 =
        if n.isItem then e :: (below inner).2 else (below inner).2 := by
  unfold visit
  split
  · next hn =>
    exact ⟨_, ⟨n, above, none, []⟩, rfl, by rw [isItem_of_listTag hn]; rfl⟩
  split
  · next hn =>
    have hitem : n.isItem = true := by simp [Node.isItem, hn]
    exact ⟨(takeNumber scope n.attributes).1, ⟨n, above, _, _⟩, rfl, by rw [if_pos hitem]⟩
  split
  · next hn =>
    have hitem : n.isItem = true := by simp [Node.isItem, hn]
    exact ⟨scope, ⟨n, above, none, []⟩, rfl, by rw [if_pos hitem]⟩
  · next ht hk =>
    have hitem : ¬n.isItem = true := by simp [Node.isItem, ht, hk]
    exact ⟨scope, ⟨n, above, none, []⟩, rfl, by rw [if_neg hitem]⟩

theorem items_of_yields {resolved : Resolution.Scope} {ns : List Node} {es : List Element}
    (hy : Yields resolved ns es) (above : List Node) (scope : Option Reference.Scope) :
    List.Forall₂ (ComesFrom resolved)
      (shownAll (Resolution.included resolved) above scope ns).2 (itemsAll es) := by
  induction hy generalizing above scope with
  | nil => exact .nil
  | @cons n ns r es gs fs hn hr hgs hes hb _ ih ihs =>
    have hnil : n.children = [] → es = [] := by
      intro hchildren
      rw [hchildren] at hes
      cases hes
      rfl
    rw [shownAll, itemsAll_append, shown_of_not_partial hn]
    refine List.rel_append ?_ (ihs above _)
    obtain ⟨inner, e, rfl, hvisit⟩ := exists_visit above scope n fun scope =>
      shownAll (Resolution.included resolved) (n :: above) scope n.children
    rw [hvisit]
    refine hb.items hnil (fun item hitem => ?_) (ih _ inner)
    rw [ComesFrom, if_neg (by simp [hn])]
    exact ⟨r, hr, hgs.trans hitem⟩
  | @included n ns s fs hn _ _ ihs =>
    rw [shownAll, shown_of_partial hn, itemsAll]
    refine List.rel_append ?_ (ihs above _)
    rw [List.forall₂_map_left_iff, List.forall₂_same]
    intro item hitem
    rw [ComesFrom, if_pos hn]
    exact hitem

/-! ## The numbers of the index -/

def Beside (R : Nat → Nat → Prop) (s t : Option Reference.Scope) : Prop :=
  Option.Rel (fun a b => a.list = b.list ∧ R a.count b.count) s t

structure Numbered (R : Nat → Nat → Prop) (e f : Entry) : Prop where
  node : e.node = f.node
  above : e.above = f.above
  keys : e.keys = f.keys
  number : Option.Rel R e.number f.number

/-- What the index counts, and what is printed if the items of partials are left out. -/
structure Follows (R : Nat → Nat → Prop) (x y : Option Reference.Scope × List Entry) :
    Prop where
  counters : Beside R x.1 y.1
  numbered : List.Forall₂ (Numbered R) x.2 (y.2.filter fun e => e.node.isItem)

section

variable {R : Nat → Nat → Prop} {s t : Option Reference.Scope}

theorem beside_takeNumber (hsucc : ∀ j k, R j k → R (j + 1) (k + 1)) (h : Beside R s t)
    (attributes : Attributes) :
    Beside R (takeNumber s attributes).1 (takeNumber t attributes).1 ∧
      (takeNumber s attributes).2.2 = (takeNumber t attributes).2.2 ∧
      Option.Rel R (takeNumber s attributes).2.1 (takeNumber t attributes).2.1 := by
  cases h with
  | none => exact ⟨.none, rfl, .none⟩
  | some hab =>
    have hnext := hsucc _ _ hab.2
    exact ⟨.some ⟨hab.1, hnext⟩, congrArg (selectors · attributes) hab.1, .some hnext⟩

theorem follows_visit (hzero : R 0 0) (hsucc : ∀ j k, R j k → R (j + 1) (k + 1))
    {below later : Option Reference.Scope → Option Reference.Scope × List Entry}
    (h : Beside R s t) (ih : ∀ s t, Beside R s t → Follows R (below s) (later t)) :
    Follows R (visit above s n below) (visit above t n later) := by
  unfold visit
  split
  · exact ⟨h, (ih _ _ (.some ⟨rfl, hzero⟩)).numbered⟩
  split
  · next hn =>
    obtain ⟨hscope, hkeys, hnumber⟩ := beside_takeNumber hsucc h n.attributes
    have hbelow := ih _ _ hscope
    refine ⟨hbelow.counters, ?_⟩
    rw [List.filter_cons_of_pos (by simp [Node.isItem, hn])]
    exact .cons ⟨rfl, rfl, hkeys, hnumber⟩ hbelow.numbered
  split
  · next hn =>
    have hbelow := ih _ _ h
    refine ⟨hbelow.counters, ?_⟩
    rw [List.filter_cons_of_pos (by simp [Node.isItem, hn])]
    exact .cons ⟨rfl, rfl, rfl, .none⟩ hbelow.numbered
  · exact ih _ _ h

/-- Inclusion tags hold nothing, and what they bring into a list keeps the counts related. -/
def Keeps (R : Nat → Nat → Prop) (included : Node → Element) (p : Node × List Node) : Prop :=
  p.1.isTagNamed Schema.partialTag = true → p.1.children = [] ∧
    ((innermost? p.2).any (·.isTagNamed Schema.listTag) = true →
      ∀ j k, R j k → R j (k + (included p.1).unlisted))

theorem follows_partial (hn : n.isTagNamed Schema.partialTag = true)
    (hk : Keeps R included (n, above)) (h : Beside R s t) :
    Follows R (entries above s n) (shown included above t n) := by
  have hother := isOther_of_partial hn
  obtain ⟨hnil, hskip⟩ := hk hn
  rw [entries_eq, visit, if_neg (by simp [hother.listTag]), if_neg (by simp [hother.itemTag]),
    if_neg hother.item, hnil, shown_of_partial hn]
  constructor
  · change Beside R s (skip above t _)
    unfold skip
    split
    · next hlist =>
      cases h with
      | none => exact .none
      | some hab => exact .some ⟨hab.1, hskip hlist _ _ hab.2⟩
    · exact h
  · have hout : ((included n).items.map fun _ => (⟨n, above, none, []⟩ : Entry)).filter
        (fun e => e.node.isItem) = [] := by
      rw [List.filter_eq_nil_iff, List.forall_mem_map]
      intro _ _
      simp [hother.isItem]
    rw [hout]
    exact .nil

mutual

/-- The index and the printer come to the same items of the document, with related numbers. -/
theorem follows_shown (hzero : R 0 0) (hsucc : ∀ j k, R j k → R (j + 1) (k + 1))
    (above : List Node) {s t : Option Reference.Scope} (h : Beside R s t) :
    ∀ n : Node, (∀ p ∈ n.lineage above, Keeps R included p) →
      Follows R (entries above s n) (shown included above t n)
  | ⟨kind, name, attributes, children, content⟩, hk => by
    rw [Node.lineage, List.forall_mem_cons] at hk
    cases hn : Node.isTagNamed ⟨kind, name, attributes, children, content⟩ Schema.partialTag with
    | true => exact follows_partial hn hk.1 h
    | false =>
      rw [entries_eq, shown_of_not_partial hn]
      exact follows_visit hzero hsucc h fun s t h =>
        follows_shownAll hzero hsucc _ h children hk.2

theorem follows_shownAll (hzero : R 0 0) (hsucc : ∀ j k, R j k → R (j + 1) (k + 1))
    (above : List Node) {s t : Option Reference.Scope} (h : Beside R s t) :
    ∀ ns : List Node, (∀ p ∈ Node.lineageAll above ns, Keeps R included p) →
      Follows R (entriesAll above s ns) (shownAll included above t ns)
  | [], _ => ⟨h, .nil⟩
  | n :: ns, hk => by
    rw [Node.lineageAll, List.forall_mem_append] at hk
    have hnode := follows_shown hzero hsucc above h n hk.1
    have hrest := follows_shownAll hzero hsucc above hnode.counters ns hk.2
    refine ⟨hrest.counters, ?_⟩
    rw [entriesAll, shownAll, List.filter_append]
    exact List.rel_append hnode.numbered hrest.numbered

end

theorem Numbered.eq {e f : Entry} (h : Numbered (· = ·) e f) : e = f := by
  obtain ⟨node, above, number, keys⟩ := e
  obtain ⟨node', above', number', keys'⟩ := f
  obtain ⟨rfl, rfl, rfl, hnumber⟩ := h
  cases hnumber with
  | none => rfl
  | some hab => rw [hab]

theorem children_of_lineage
    (hempty : ∀ m ∈ n.walk, m.isTagNamed Schema.partialTag = true → m.children = [])
    {p : Node × List Node} (hp : p ∈ n.lineage [])
    (hpartial : p.1.isTagNamed Schema.partialTag = true) : p.1.children = [] :=
  hempty p.1 (Node.map_fst_lineage [] n ▸ List.mem_map_of_mem hp) hpartial

/-- Partials only add to the numbers of the items after them. -/
theorem entries_le_shown
    (hempty : ∀ m ∈ n.walk, m.isTagNamed Schema.partialTag = true → m.children = []) :
    List.Forall₂ (Numbered (· ≤ ·)) (entries [] none n).2
      ((shown included [] none n).2.filter fun e => e.node.isItem) := by
  have hfollows : Follows (· ≤ ·) (entries [] none n) (shown included [] none n) :=
    follows_shown (Nat.le_refl 0) (fun _ _ h => Nat.succ_le_succ h) [] .none n
      fun p hp hpartial =>
        ⟨children_of_lineage hempty hp hpartial, fun _ _ _ h => Nat.le_add_right_of_le h⟩
  exact hfollows.numbered

/-- Partials that bring no item into a list of the document leave all numbers as they are. -/
theorem shown_eq_entries
    (hempty : ∀ m ∈ n.walk, m.isTagNamed Schema.partialTag = true → m.children = [])
    (hzero : ∀ p ∈ n.lineage [], p.1.isTagNamed Schema.partialTag = true →
      (innermost? p.2).any (·.isTagNamed Schema.listTag) = true → (included p.1).unlisted = 0) :
    ((shown included [] none n).2.filter fun e => e.node.isItem) = (entries [] none n).2 := by
  have hfollows : Follows (· = ·) (entries [] none n) (shown included [] none n) := by
    refine follows_shown rfl (fun _ _ h => congrArg (· + 1) h) [] .none n fun p hp hpartial =>
      ⟨children_of_lineage hempty hp hpartial, fun hlist j k h => ?_⟩
    rw [hzero p hp hpartial hlist]
    exact h
  have hsame := hfollows.numbered.imp fun _ _ h => h.eq
  rw [List.forall₂_eq_eq_eq] at hsame
  exact hsame.symm

end

/-! ## Templates -/

def templateScope (files : FileTree) (t : Path) (n : Node) : Resolution.Scope :=
  let place : Compilation.Place := ⟨t.real.parent, [t.real]⟩
  Compilation.scope place (.ofNode n)
    (Compilation.includePartial files (files.files.length + 1) place (.ofNode n))

/-- A printed template: `es` are the items of its render tree in document order, and `visits` is
what the printer records of them. -/
structure ShowsItems (resolved : Resolution.Scope) (tree : Element) (es : List Entry)
    (visits : List Visit) : Prop where
  items : List.Forall₂ (ComesFrom resolved) es tree.items
  once : (visits.map Prod.snd).Perm (List.range es.length)
  number : ∀ (i : Nat) (e : Entry), es[i]? = some e → e.node.isTagNamed Schema.itemTag = true →
    (∃ a ∈ e.above, a.isTagNamed Schema.listTag = true) →
      ∃ k, e.number = some k ∧ (Nat.toDigits 10 k ++ ['.'], i) ∈ visits

theorem showsItems {resolved : Resolution.Scope} {n : Node} {tree : Element}
    (hy : Yields resolved [n] [tree]) (hc : ∀ p ∈ n.lineage [], IsCounted p.1 p.2)
    (hw : tree.isWhole = true) :
    ShowsItems resolved tree (shown (Resolution.included resolved) [] none n).2
      (trace [] [] 0 tree).2 := by
  have hagree : Agrees [] none (shownAll (Resolution.included resolved) [] none [n])
      (markersAll none [tree]) :=
    agrees_of_yields hy ⟨rfl, nofun, nofun⟩ (by simpa [Node.lineageAll] using hc)
  have hmarked : List.Forall₂ Marked (shown (Resolution.included resolved) [] none n).2
      (markers none tree).1 := by
    simpa [shownAll, markersAll] using hagree.marked
  obtain ⟨honce, hvisited⟩ := visits_of_marked hw hmarked
  refine ⟨?_, honce, fun i e he hi hlist => ?_⟩
  · simpa [shownAll, itemsAll] using items_of_yields hy [] none
  · obtain ⟨m, hm, hmark⟩ := hvisited i e he
    obtain ⟨k, hk, rfl⟩ := hmark.exists_number hi hlist
    exact ⟨k, hk, hm⟩

theorem yields_of_template {files : FileTree} {t : Path} {n : Node} {r : Resolved}
    (hn : (Compilation.documentOf files t.real).result = .ok n)
    (hr : (resolve (templateScope files t n) n).result = .ok r) :
    Yields (templateScope files t n) [n] [r.document] ∧ r.document.isWhole = true := by
  have hdoc : n.kind = .document := by
    obtain ⟨ts, rfl⟩ := Compilation.exists_of_documentOf hn
    rfl
  have hy : Yields (templateScope files t n) [n] [r.document] := by
    rw [← elements_of_document hdoc hr, ← List.append_nil r.elements]
    exact yields_of_resolve .nil n (Compilation.isTemplate_of_documentOf hn) hr
  have hall := hy.areWhole fun s e he => Compilation.isWhole_includePartial _ _ _ s e he
  exact ⟨hy, by simpa [areWhole] using hall⟩

theorem compileFile_of_renderTree {files : FileTree} {t : Path} {n : Node} {tree : Element}
    (hn : (Compilation.documentOf files t.real).result = .ok n)
    (htree : (Compilation.renderTree files ⟨t.real.parent, [t.real]⟩ (.ofNode n) n).result =
      .ok tree) : (compileFile files t).result = .ok tree.render := by
  rw [Compilation.compileFile_eq, Reporting.bind_of_ok _ hn, Reporting.map_result, htree]
  rfl

/-- In a compiled template every item is printed with the number that it has if the items of
partials that stand in no list of them are counted as well. It is never less than the number
in the index, and the same if partials bring no such items into a list. -/
theorem printed_beside_partials {files : FileTree} {t : Path} {n : Node} {tree : Element}
    (hn : (Compilation.documentOf files t.real).result = .ok n)
    (htree : (Compilation.renderTree files ⟨t.real.parent, [t.real]⟩ (.ofNode n) n).result =
      .ok tree)
    (hc : ∀ p ∈ n.lineage [], IsCounted p.1 p.2)
    (hempty : ∀ m ∈ n.walk, m.isTagNamed Schema.partialTag = true → m.children = []) :
    let included := Resolution.included (templateScope files t n)
    let es := (shown included [] none n).2
    (compileFile files t).result = .ok tree.render ∧
      (trace [] [] 0 tree).1 = print [] [] tree ∧
      ShowsItems (templateScope files t n) tree es (trace [] [] 0 tree).2 ∧
      (entries [] none n).2.foldl Entry.register [] = Index.ofNode n ∧
      List.Forall₂ (Numbered (· ≤ ·)) (entries [] none n).2 (es.filter fun e => e.node.isItem) ∧
      ((∀ p ∈ n.lineage [], p.1.isTagNamed Schema.partialTag = true →
          (innermost? p.2).any (·.isTagNamed Schema.listTag) = true →
            (included p.1).unlisted = 0) →
        (es.filter fun e => e.node.isItem) = (entries [] none n).2) := by
  intro included es
  have hcompiled := compileFile_of_renderTree hn htree
  obtain ⟨r, hr, rfl⟩ := Reporting.ok_of_map htree
  obtain ⟨hy, hwhole⟩ := yields_of_template hn hr
  exact ⟨hcompiled, trace_fst [] [] 0 r.document, showsItems hy hc hwhole, (ofNode_eq n).symm,
    entries_le_shown hempty, shown_eq_entries hempty⟩

def includingFiles : FileTree :=
  .directory [("a.mdoc", .file ("\x7b% ol %\x7d\n\x7b% li %\x7dA\x7b% /li %\x7d\n" ++
      "\x7b% partial file=\"p.p.mdoc\" /%\x7d\n\x7b% li id=\"b\" %\x7dB\x7b% /li %\x7d\n" ++
      "\x7b% /ol %\x7d").toUTF8),
    ("p.p.mdoc", .file "\x7b% li %\x7dX\x7b% /li %\x7d".toUTF8)]

def includingPath : Path := ⟨.root, ["a.mdoc"]⟩

theorem exists_including :
    ∃ n tree, (Compilation.documentOf includingFiles includingPath.real).result = .ok n ∧
      (Compilation.renderTree includingFiles ⟨includingPath.real.parent, [includingPath.real]⟩
        (.ofNode n) n).result = .ok tree ∧
      (∀ p ∈ n.lineage [], IsCounted p.1 p.2) ∧
      (∀ m ∈ n.walk, m.isTagNamed Schema.partialTag = true → m.children = []) ∧
      Ordered.get? (Index.ofNode n) "#b" = some 2 ∧
      tree.render = "1. A\n\n2. X\n\n3. B\n" := by
  have hall : ((Compilation.documentOf includingFiles includingPath.real).result.toOption.any
      fun n => (Compilation.renderTree includingFiles ⟨includingPath.real.parent,
        [includingPath.real]⟩ (.ofNode n) n).result.toOption.any fun tree =>
          decide (∀ p ∈ n.lineage [], IsCounted p.1 p.2) &&
          (n.walk.all fun m => !m.isTagNamed Schema.partialTag || m.children.isEmpty) &&
          Ordered.get? (Index.ofNode n) "#b" == some 2 &&
          tree.render == "1. A\n\n2. X\n\n3. B\n") = true := by decide +kernel
  obtain ⟨n, hn, htree⟩ := (Option.any_eq_true _ _).1 hall
  obtain ⟨tree, htree, hchecked⟩ := (Option.any_eq_true _ _).1 htree
  simp only [Bool.and_eq_true, decide_eq_true_eq, beq_iff_eq, List.all_eq_true] at hchecked
  obtain ⟨⟨⟨hcounted, hempty⟩, hindex⟩, hprinted⟩ := hchecked
  refine ⟨n, tree, eq_ok_of_toOption hn, eq_ok_of_toOption htree, hcounted, fun m hm hp => ?_,
    hindex, hprinted⟩
  simpa [hp] using hempty m hm

theorem printed_beside_partials_of_including :
    ∃ n tree, (Compilation.documentOf includingFiles includingPath.real).result = .ok n ∧
      (∀ p ∈ n.lineage [], IsCounted p.1 p.2) ∧
      (∀ m ∈ n.walk, m.isTagNamed Schema.partialTag = true → m.children = []) ∧
      (compileFile includingFiles includingPath).result = .ok tree.render ∧
      tree.render = "1. A\n\n2. X\n\n3. B\n" ∧
      ShowsItems (templateScope includingFiles includingPath n) tree
        (shown (Resolution.included (templateScope includingFiles includingPath n)) [] none n).2
        (trace [] [] 0 tree).2 := by
  obtain ⟨n, tree, hn, htree, hcounted, hempty, -, hprinted⟩ := exists_including
  obtain ⟨hcompiled, -, hshown, -⟩ := printed_beside_partials hn htree hcounted hempty
  exact ⟨n, tree, hn, hcounted, hempty, hcompiled, hprinted, hshown⟩

/-- The index has the number two for an item that is printed with the number three. -/
theorem not_printed_with_number_of_index :
    ∃ n, (Compilation.documentOf includingFiles includingPath.real).result = .ok n ∧
      Ordered.get? (Index.ofNode n) "#b" = some 2 ∧
      (compileFile includingFiles includingPath).result = .ok "1. A\n\n2. X\n\n3. B\n" := by
  obtain ⟨n, tree, hn, htree, -, -, hindex, hprinted⟩ := exists_including
  exact ⟨n, hn, hindex, hprinted ▸ compileFile_of_renderTree hn htree⟩

end Numbering

end DocPress
