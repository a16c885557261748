import DocPress.Proofs.Resolution

/-!
# Numbers in the index and in print

Two counters number the items of a list. One is kept by the index while it walks over the
document, the other by the printer in the frame of the innermost open list. They agree as
long as the innermost open list is the tag that the index counts in. Between an item and
that tag there must be no Markdown list, and items of Markdown lists must stand in one.
-/

set_option autoImplicit false

namespace DocPress.Numbering

open Element Reference Resolution

/-- The nodes above a node up to the nearest tag of a list. -/
def nearer (above : List Node) : List Node :=
  above.takeWhile fun a => !a.isTagNamed Schema.listTag

/-- An item is counted by the list that is the innermost one in print. -/
structure IsCounted (n : Node) (above : List Node) : Prop where
  itemTag : n.isTagNamed Schema.itemTag = true →
    (∃ a ∈ above, a.isTagNamed Schema.listTag = true) → ∀ a ∈ nearer above, a.kind ≠ .list
  item : n.kind = .item → ∃ a ∈ nearer above, a.kind = .list

def innermost? (above : List Node) : Option Node :=
  above.find? fun a => a.isTagNamed Schema.listTag || a.kind == .list

variable {n : Node} {above : List Node} {base scope : Option Reference.Scope}
  {o : Option ListFrame}

theorem innermost?_cons_of_list (above : List Node)
    (h : n.isTagNamed Schema.listTag = true ∨ n.kind = .list) :
    innermost? (n :: above) = some n := by
  rw [innermost?, List.find?_cons_of_pos]
  rcases h with h | h <;> simp [h]

theorem innermost?_cons_of_not (above : List Node) (ht : n.isTagNamed Schema.listTag = false)
    (hl : n.kind ≠ .list) : innermost? (n :: above) = innermost? above := by
  rw [innermost?, List.find?_cons_of_neg]
  · rfl
  · simp [ht, hl]

/-- If no Markdown list is nearer than the nearest tag of a list, that one is the innermost. -/
theorem innermost?_of_tag (h : ∃ a ∈ above, a.isTagNamed Schema.listTag = true)
    (hn : ∀ a ∈ nearer above, a.kind ≠ .list) :
    ∃ a, innermost? above = some a ∧ a.isTagNamed Schema.listTag = true := by
  induction above with
  | nil => simp at h
  | cons a above ih =>
    by_cases ha : a.isTagNamed Schema.listTag = true
    · exact ⟨a, innermost?_cons_of_list above (.inl ha), ha⟩
    · have hf : a.isTagNamed Schema.listTag = false := by simpa using ha
      rw [nearer, List.takeWhile_cons_of_pos (by simp [hf]), List.forall_mem_cons] at hn
      rw [List.exists_mem_cons_iff, or_iff_right ha] at h
      rw [innermost?_cons_of_not above hf hn.1]
      exact ih h hn.2

theorem innermost?_of_list (h : ∃ a ∈ nearer above, a.kind = .list) :
    ∃ a, innermost? above = some a ∧ a.isTagNamed Schema.listTag = false := by
  induction above with
  | nil => simp [nearer] at h
  | cons a above ih =>
    by_cases ha : a.isTagNamed Schema.listTag = true
    · rw [nearer, List.takeWhile_cons_of_neg (by simp [ha])] at h
      simp at h
    · have hf : a.isTagNamed Schema.listTag = false := by simpa using ha
      rw [nearer, List.takeWhile_cons_of_pos (by simp [hf]), List.exists_mem_cons_iff] at h
      by_cases hl : a.kind = .list
      · exact ⟨a, innermost?_cons_of_list above (.inr hl), hf⟩
      · rw [innermost?_cons_of_not above hf hl]
        exact ih (h.resolve_left hl)

/-! ## The two counters -/

/-- The counter of the index and that of the printer, below some nodes. Where the innermost
list is a tag they are the same; in a Markdown list the counter of the index rests. -/
structure Agree (above : List Node) (base scope : Option Reference.Scope)
    (o : Option ListFrame) : Prop where
  isSome : scope.isSome = above.any (·.isTagNamed Schema.listTag)
  counted : ∀ a, innermost? above = some a → a.isTagNamed Schema.listTag = true →
    ∃ s f, scope = some s ∧ o = some f ∧ f.numbered = true ∧ f.count = s.count
  rests : ∀ a, innermost? above = some a → a.isTagNamed Schema.listTag = false → scope = base

theorem not_listTag_of_itemTag (h : n.isTagNamed Schema.itemTag = true) :
    n.isTagNamed Schema.listTag = false := by
  simp only [Node.isTagNamed, Bool.and_eq_true, beq_iff_eq] at h
  simp only [Node.isTagNamed, h.1, h.2]
  decide

theorem not_list_of_itemTag (h : n.isTagNamed Schema.itemTag = true) : n.kind ≠ .list := by
  simp only [Node.isTagNamed, Bool.and_eq_true, beq_iff_eq] at h
  rw [h.1]
  decide

theorem not_tag_of_kind {name : String} (h : n.kind ≠ .tag) : n.isTagNamed name = false := by
  simp [Node.isTagNamed, h]

theorem agree_cons (ht : n.isTagNamed Schema.listTag = false) (hl : n.kind ≠ .list) :
    Agree (n :: above) base scope o ↔ Agree above base scope o := by
  have hi := innermost?_cons_of_not above ht hl
  have ha : (n :: above).any (·.isTagNamed Schema.listTag) =
      above.any (·.isTagNamed Schema.listTag) := by
    rw [List.any_cons, ht, Bool.false_or]
  constructor
  · intro h
    exact ⟨ha ▸ h.isSome, hi ▸ h.counted, hi ▸ h.rests⟩
  · intro h
    exact ⟨ha ▸ h.isSome, hi ▸ h.counted, hi ▸ h.rests⟩

/-- The number that an item has is its marker, and the tag of an item has one in a list. -/
structure Marked (e : Entry) (m : List Char) : Prop where
  marker : ∀ k, e.number = some k → m = Nat.toDigits 10 k ++ ['.']
  isSome : e.node.isTagNamed Schema.itemTag = true →
    (∃ a ∈ e.above, a.isTagNamed Schema.listTag = true) → e.number.isSome = true

/-- The items of some nodes, and the markers of what they became, counted from counters that
agree: the numbers are the markers, and the counters still agree. -/
structure Agrees (above : List Node) (base : Option Reference.Scope)
    (x : Option Reference.Scope × List Entry) (y : List (List Char) × Option ListFrame) :
    Prop where
  counters : Agree above base x.1 y.2
  marked : List.Forall₂ Marked x.2 y.1

/-- The tag of an item takes the same number from both counters, if it takes one at all. -/
theorem agree_takeNumber (h : Agree above base scope o)
    (hn : n.isTagNamed Schema.itemTag = true) (hc : IsCounted n above) :
    Agree above base (takeNumber scope n.attributes).1 (takeMarker o).2 ∧
      ∀ k, (takeNumber scope n.attributes).2.1 = some k →
        (takeMarker o).1 = Nat.toDigits 10 k ++ ['.'] := by
  cases scope with
  | none =>
    refine ⟨⟨h.isSome, fun a ha hat => ?_, h.rests⟩, nofun⟩
    obtain ⟨s, f, hs, -⟩ := h.counted a ha hat
    cases hs
  | some s =>
    have hlist : ∃ a ∈ above, a.isTagNamed Schema.listTag = true :=
      List.any_eq_true.1 h.isSome.symm
    obtain ⟨a, ha, hat⟩ := innermost?_of_tag hlist (hc.itemTag hn hlist)
    obtain ⟨s', f, hs, rfl, hf, hcount⟩ := h.counted a ha hat
    obtain rfl := Option.some.inj hs
    have hnext : f.next = (Nat.toDigits 10 (f.count + 1) ++ ['.'],
        { f with count := f.count + 1 }) := by
      rw [ListFrame.next, if_pos hf]
    refine ⟨⟨h.isSome, fun _ _ _ => ?_, fun b hb hbf => ?_⟩, fun k hk => ?_⟩
    · refine ⟨_, _, rfl, rfl, ?_, ?_⟩ <;> rw [hnext]
      · exact hf
      · exact congrArg (· + 1) hcount
    · obtain rfl := Option.some.inj (ha.symm.trans hb)
      cases hat.symm.trans hbf
    · obtain rfl : s.count + 1 = k := Option.some.inj hk
      rw [takeMarker, hnext, hcount]

/-! ## One node -/

section

variable {es : List Element} {below : Option Reference.Scope → Option Reference.Scope × List Entry}
  (h : Agree above base scope o)
  (ih : ∀ base scope o, Agree (n :: above) base scope o →
    Agrees (n :: above) base (below scope) (markersAll o es))

include h ih

theorem agrees_listTag (attributes : Attributes) (hn : n.isTagNamed Schema.listTag = true) :
    Agrees above base (visit above scope n below) (markersAll o [.named "ol" attributes es]) := by
  have hinner : Agree (n :: above) none
      (some ⟨label? (Attributes.get n.attributes "id"), 0⟩) (some (ListFrame.opened "ol")) := by
    have hi := innermost?_cons_of_list above (.inl hn)
    refine ⟨by simp [hn], fun _ _ _ => ⟨_, _, rfl, rfl, rfl, rfl⟩, fun a ha hf => ?_⟩
    obtain rfl : n = a := Option.some.inj (hi.symm.trans ha)
    cases hn.symm.trans hf
  rw [visit, if_pos hn, markersAll_singleton, markers_list (.inl rfl)]
  exact ⟨h, (ih _ _ _ hinner).marked⟩

/-- In a Markdown list nothing is counted by the index, so its counter is found again. -/
theorem agrees_list {name : String} (attributes : Attributes) (hn : n.kind = .list)
    (hname : name = "ol" ∨ name = "ul") :
    Agrees above base (visit above scope n below) (markersAll o [.named name attributes es]) := by
  have ht : ∀ s, n.isTagNamed s = false := fun s => not_tag_of_kind (by rw [hn]; decide)
  have hi := innermost?_cons_of_list above (.inr hn)
  have hinner : Agree (n :: above) scope scope (some (ListFrame.opened name)) := by
    refine ⟨by rw [List.any_cons, ht, Bool.false_or, h.isSome], fun a ha hf => ?_, fun _ _ _ => rfl⟩
    obtain rfl : n = a := Option.some.inj (hi.symm.trans ha)
    rw [ht] at hf
    cases hf
  have hkind : n.kind ≠ .item := by rw [hn]; decide
  have hafter := ih _ _ _ hinner
  rw [visit, if_neg (by simp [ht]), if_neg (by simp [ht]), if_neg hkind, markersAll_singleton,
    markers_list hname]
  exact ⟨(hafter.counters.rests n hi (ht _)).symm ▸ h, hafter.marked⟩

theorem agrees_item (attributes : Attributes) (hn : n.kind = .item)
    (hc : IsCounted n above) :
    Agrees above base (visit above scope n below) (markersAll o [.named "li" attributes es]) := by
  have ht : ∀ s, n.isTagNamed s = false := fun s => not_tag_of_kind (by rw [hn]; decide)
  have hl : n.kind ≠ .list := by rw [hn]; decide
  obtain ⟨a, ha, hf⟩ := innermost?_of_list (hc.item hn)
  -- The frame of the Markdown list does not count.
  have hinner : Agree above base scope (takeMarker o).2 := by
    refine ⟨h.isSome, fun b hb hbt => ?_, h.rests⟩
    obtain rfl := Option.some.inj (ha.symm.trans hb)
    cases hbt.symm.trans hf
  have hafter := ih _ _ _ ((agree_cons (ht _) hl).2 hinner)
  rw [visit, if_neg (by simp [ht]), if_neg (by simp [ht]), if_pos hn, markersAll_singleton,
    markers_item]
  refine ⟨(agree_cons (ht _) hl).1 hafter.counters,
    .cons ⟨fun k hk => ?_, fun hi => ?_⟩ hafter.marked⟩
  · cases hk
  · cases (ht _).symm.trans hi

theorem agrees_itemTag (attributes : Attributes) (hn : n.isTagNamed Schema.itemTag = true)
    (hc : IsCounted n above) :
    Agrees above base (visit above scope n below) (markersAll o [.named "li" attributes es]) := by
  have ht := not_listTag_of_itemTag hn
  have hl := not_list_of_itemTag hn
  obtain ⟨hinner, hmarked⟩ := agree_takeNumber h hn hc
  have hafter := ih _ _ _ ((agree_cons ht hl).2 hinner)
  rw [visit, if_neg (by simp [ht]), if_pos hn, markersAll_singleton, markers_item]
  refine ⟨(agree_cons ht hl).1 hafter.counters, .cons ⟨hmarked, fun _ hlist => ?_⟩ hafter.marked⟩
  rw [← List.any_eq_true, ← h.isSome] at hlist
  cases scope with
  | none => cases hlist
  | some s => rfl

theorem agrees_other {gs : List Element} (hn : IsOther n)
    (hm : ∀ o, markersAll o gs = markersAll o es) :
    Agrees above base (visit above scope n below) (markersAll o gs) := by
  have hafter := ih _ _ _ ((agree_cons hn.listTag hn.list).2 h)
  rw [visit, if_neg (by simp [hn.listTag]), if_neg (by simp [hn.itemTag]), if_neg hn.item, hm]
  exact ⟨(agree_cons hn.listTag hn.list).1 hafter.counters, hafter.marked⟩

end

theorem agrees_node {es gs : List Element}
    {below : Option Reference.Scope → Option Reference.Scope × List Entry} (hb : Becomes n es gs)
    (hc : IsCounted n above) (hleaf : n.children = [] → ∀ scope, below scope = (scope, []))
    (h : Agree above base scope o)
    (ih : ∀ base scope o, Agree (n :: above) base scope o →
      Agrees (n :: above) base (below scope) (markersAll o es)) :
    Agrees above base (visit above scope n below) (markersAll o gs) := by
  cases hb with
  | listTag attributes hn => exact agrees_listTag h ih attributes hn
  | itemTag attributes hn => exact agrees_itemTag h ih attributes hn hc
  | list name hn hname => exact agrees_list h ih [] hn hname
  | item hn => exact agrees_item h ih [] hn hc
  | plain name attributes hn hname =>
    refine agrees_other h ih hn fun o => ?_
    rw [markersAll_singleton, markers_of_plain hname]
  | spliced hn => exact agrees_other h ih hn fun _ => rfl
  | leaf e hn hnil he =>
    rw [visit, if_neg (by simp [hn.listTag]), if_neg (by simp [hn.itemTag]), if_neg hn.item,
      hleaf hnil, markersAll_singleton, he.markers]
    exact ⟨h, .nil⟩

/-! ## A document -/

theorem agrees_of_becomeAll {resolved : Resolution.Scope} {ns : List Node} {es : List Element}
    (hb : BecomeAll resolved ns es) (h : Agree above base scope o)
    (hc : ∀ p ∈ Node.lineageAll above ns, IsCounted p.1 p.2) :
    Agrees above base (entriesAll above scope ns) (markersAll o es) := by
  induction hb generalizing above base scope o with
  | nil => exact ⟨h, .nil⟩
  | @cons n _ _ _ _ _ _ _ _ hb _ ih ihs =>
    rw [Node.lineageAll, List.forall_mem_append, Node.lineage_eq, List.forall_mem_cons] at hc
    have hleaf : n.children = [] → ∀ scope,
        entriesAll (n :: above) scope n.children = (scope, []) := by
      intro hnil scope
      rw [hnil, entriesAll]
    have hnode := agrees_node hb hc.1.1 hleaf h fun base scope o h => ih h hc.1.2
    rw [← entries_eq] at hnode
    have hrest := ihs hnode.counters hc.2
    rw [markersAll_append]
    exact ⟨hrest.counters, List.rel_append hnode.marked hrest.marked⟩

def PrintsAs (scope : Resolution.Scope) (s : String) (text : List Char) : Prop :=
  ∀ m : Node, m.kind = .function → m.name.getD "" ∈ Schema.referenceFunctions →
    (∃ rest, Ordered.get? m.attributes "args" = some (.list (.string s :: rest))) →
      ∃ r, (resolve scope m).result = .ok r ∧
        ∀ indent frames, printAll indent frames r.elements = (text, frames)

/-- A printed document shows the numbers of its index: `es` are its items in document order,
and `visits` is what the printer records of its render tree. -/
structure ShowsIndex (scope : Resolution.Scope) (n : Node) (tree : Element) (es : List Entry)
    (visits : List Visit) : Prop where
  /-- The items of the render tree are what the item nodes of the document become. -/
  items : List.Forall₂ (BecomesItem scope) (es.map Entry.node) tree.items
  once : (visits.map Prod.snd).Perm (List.range es.length)
  number : ∀ (i : Nat) (e : Entry), es[i]? = some e → e.node.isTagNamed Schema.itemTag = true →
    (∃ a ∈ e.above, a.isTagNamed Schema.listTag = true) →
      ∃ k, e.number = some k ∧ (Nat.toDigits 10 k ++ ['.'], i) ∈ visits
  lookup : ∀ (s : String) (k : Nat), Ordered.get? (Index.ofNode n) s = some k →
    (∃ i e, IsLast es s i e ∧ (Nat.toDigits 10 k ++ ['.'], i) ∈ visits) ∧
      PrintsAs { scope with index := Index.ofNode n } s (Nat.toDigits 10 k)

theorem elements_of_document {resolved : Resolution.Scope} {r : Resolved}
    (hn : n.kind = .document) (hr : (resolve resolved n).result = .ok r) :
    r.elements = [r.document] := by
  obtain ⟨kind, name, attributes, children, content⟩ := n
  subst hn
  obtain ⟨es, -, rfl⟩ := Reporting.ok_of_map hr
  rfl

theorem printsAs_of_get? {resolved : Resolution.Scope} {s : String} {k : Nat}
    (h : Ordered.get? resolved.index s = some k) :
    PrintsAs resolved s (Nat.toDigits 10 k) := by
  rintro ⟨kind, name, attributes, children, content⟩ hk hname ⟨rest, hargs⟩
  subst hk
  have hcontains : Schema.referenceFunctions.contains (name.getD "") = true := by
    simpa using hname
  have hcall : (call resolved.index name attributes).result = .ok (.value (.int k)) := by
    rw [call, if_pos hcontains, hargs]
    simp [arguments?, Index.lookup, h]
  refine ⟨.one (.value (.int k)), ?_, fun indent frames => ?_⟩
  · rw [resolve, Reporting.map_result, hcall]
    rfl
  · simp [Resolved.elements, printAll, print, valueText, Value.intText]

theorem Marked.exists_number {e : Entry} {m : List Char} (h : Marked e m)
    (hn : e.node.isTagNamed Schema.itemTag = true)
    (hlist : ∃ a ∈ e.above, a.isTagNamed Schema.listTag = true) :
    ∃ k, e.number = some k ∧ m = Nat.toDigits 10 k ++ ['.'] := by
  obtain ⟨k, hk⟩ := Option.isSome_iff_exists.1 (h.isSome hn hlist)
  exact ⟨k, hk, h.marker k hk⟩

/-- Printing a whole element visits each item once, and prints the marker that it has. -/
theorem visits_of_marked {tree : Element} {es : List Entry} (hw : tree.isWhole = true)
    (h : List.Forall₂ Marked es (markers none tree).1) :
    ((trace [] [] 0 tree).2.map Prod.snd).Perm (List.range es.length) ∧
      ∀ (i : Nat) (e : Entry), es[i]? = some e →
        ∃ m, (m, i) ∈ (trace [] [] 0 tree).2 ∧ Marked e m := by
  have hvisits : (trace [] [] 0 tree).2.Perm ((markers none tree).1.zipIdx 0) :=
    (isVisited_of_isWhole tree hw [] 0 none [] fun _ => rfl).visits
  constructor
  · refine (hvisits.map Prod.snd).trans (.of_eq ?_)
    rw [List.zipIdx_map_snd, ← h.length_eq, List.range_eq_range']
  · intro i e he
    obtain ⟨hi, rfl⟩ := List.getElem?_eq_some_iff.1 he
    have hi' : i < (markers none tree).1.length := h.length_eq ▸ hi
    refine ⟨_, ?_, h.get hi hi'⟩
    rw [hvisits.mem_iff, List.mk_mem_zipIdx_iff_getElem?]
    exact List.getElem?_eq_getElem hi'

/-- The numbers that the index gives to items are the markers that are printed for them. -/
theorem showsIndex (scope : Resolution.Scope) (n : Node) (hdoc : n.kind = .document)
    (hs : ∀ m ∈ n.walk, IsSimple m) (hc : ∀ p ∈ n.lineage [], IsCounted p.1 p.2) {r : Resolved}
    (hr : (resolve scope n).result = .ok r) :
    ShowsIndex scope n r.document (entries [] none n).2 (trace [] [] 0 r.document).2 := by
  obtain ⟨es, hes, hb⟩ := becomeAll_of_resolve n hs hr
  have hall : BecomeAll scope [n] [r.document] := by
    rw [← elements_of_document hdoc hr, ← List.append_nil r.elements]
    exact .cons hr rfl hes hb .nil
  have hagree : Agrees [] none (entriesAll [] none [n]) (markersAll none [r.document]) :=
    agrees_of_becomeAll hall ⟨rfl, nofun, nofun⟩ (by simpa [Node.lineageAll] using hc)
  have hmarked : List.Forall₂ Marked (entries [] none n).2 (markers none r.document).1 := by
    simpa [entriesAll, markersAll] using hagree.marked
  obtain ⟨honce, hvisited⟩ := visits_of_marked (by simpa [areWhole] using hall.areWhole) hmarked
  refine ⟨?_, honce, fun i e he hi hlist => ?_, fun s k hk => ?_⟩
  · rw [map_node_entries]
    simpa [Node.walkAll, itemsAll] using hall.items
  · obtain ⟨m, hm, hmark⟩ := hvisited i e he
    obtain ⟨k, hk, rfl⟩ := hmark.exists_number hi hlist
    exact ⟨k, hk, hm⟩
  · obtain ⟨i, e, hlast, hnumber⟩ := exists_isLast hk
    obtain ⟨m, hm, hmark⟩ := hvisited i e hlast.get
    exact ⟨⟨i, e, hlast, hmark.marker k hnumber ▸ hm⟩, printsAs_of_get? hk⟩

/-- A simple document whose items are counted where they are printed can be resolved. Printing
its render tree reaches every item once, in front of each item that the index counts it prints
its number there, and so does a look-up of a selector. -/
theorem printed_as_indexed (scope : Resolution.Scope) (n : Node) (hdoc : n.kind = .document)
    (hs : ∀ m ∈ n.walk, IsSimple m) (hc : ∀ p ∈ n.lineage [], IsCounted p.1 p.2) :
    ((∀ m ∈ n.walk, HasArguments m) → ∃ r, (resolve scope n).result = .ok r) ∧
      (entries [] none n).2.foldl Entry.register [] = Index.ofNode n ∧
      (entries [] none n).2.map (fun e => (e.node, e.above)) =
        (n.lineage []).filter (fun p => p.1.isItem) ∧
      ∀ r, (resolve scope n).result = .ok r →
        (trace [] [] 0 r.document).1 = print [] [] r.document ∧
        ShowsIndex scope n r.document (entries [] none n).2 (trace [] [] 0 r.document).2 := by
  refine ⟨fun ha => exists_resolve n fun m hm => ⟨hs m hm, ha m hm⟩, (ofNode_eq n).symm,
    map_entries [] none n, fun r hr => ⟨trace_fst [] [] 0 r.document, ?_⟩⟩
  exact showsIndex scope n hdoc hs hc hr

instance (n : Node) : Decidable (IsSimple n) :=
  decidable_of_iff ((n.kind ∈ leafKinds → n.children = []) ∧
      (n.kind = .heading → isLevel (Ordered.get? n.attributes "level") = true) ∧
      n.isTagNamed Schema.partialTag = false)
    ⟨fun ⟨hleaf, hlevel, hincluded⟩ => ⟨hleaf, hlevel, hincluded⟩,
      fun h => ⟨h.leaf, h.level, h.included⟩⟩

instance (n : Node) (above : List Node) : Decidable (IsCounted n above) :=
  decidable_of_iff ((n.isTagNamed Schema.itemTag = true →
        (∃ a ∈ above, a.isTagNamed Schema.listTag = true) → ∀ a ∈ nearer above, a.kind ≠ .list) ∧
      (n.kind = .item → ∃ a ∈ nearer above, a.kind = .list))
    ⟨fun ⟨ht, hi⟩ => ⟨ht, hi⟩, fun h => ⟨h.itemTag, h.item⟩⟩

instance (n : Node) : Decidable (HasArguments n) := inferInstanceAs (Decidable (_ → _ → _))

def nestedDocument : Node :=
  { kind := .document, children := [
    { kind := .tag, name := some "ol", attributes := [("id", .string "steps")], children := [
      { kind := .tag, name := some "li", attributes := [("cl", .string "first")], children := [
        { kind := .tag, name := some "ol", children := [
          { kind := .tag, name := some "li", attributes := [("id", .string "inner")],
            children := [{ kind := .list, children := [{ kind := .item }] }] }] },
        { kind := .tag, name := some "li", attributes := [("id", .string "last")] }] }] },
    { kind := .paragraph, children := [
      { kind := .function, name := some "ref",
        attributes := [("args", .list [.string "#steps #last"])] }] }] }

theorem printed_as_indexed_of_nested :
    ∃ r, (resolve ⟨Index.ofNode nestedDocument, none, fun _ => .fail .wrongType⟩
        nestedDocument).result = .ok r ∧
      (trace [] [] 0 r.document).1 = print [] [] r.document ∧
      ShowsIndex ⟨Index.ofNode nestedDocument, none, fun _ => .fail .wrongType⟩ nestedDocument
        r.document (entries [] none nestedDocument).2 (trace [] [] 0 r.document).2 := by
  obtain ⟨hresolve, -, -, h⟩ := printed_as_indexed
    ⟨Index.ofNode nestedDocument, none, fun _ => .fail .wrongType⟩ nestedDocument rfl
    (by decide +kernel) (by decide +kernel)
  obtain ⟨r, hr⟩ := hresolve (by decide +kernel)
  exact ⟨r, hr, h r hr⟩

end DocPress.Numbering
