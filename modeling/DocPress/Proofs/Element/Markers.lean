import DocPress.Proofs.Element.Visits

/-!
# Markers in document order

The markers of the items of an element can be told without its layouts: the items are
met in document order, a list opens a frame of its own, and nothing but the innermost
frame matters. Printing visits the items in another order, the nested lists of an item
after the rest of it, and some layouts drop children. In a whole element, of which no
item is dropped, it still visits each item once, and each takes the marker that it has
in document order.
-/

set_option autoImplicit false

namespace DocPress.Element

def takeMarker : Option ListFrame → List Char × Option ListFrame
  | none => (['-'], none)
  | some f => (f.next.1, some f.next.2)

mutual

/-- The markers of the items in document order, and the innermost list after them. -/
def markers (o : Option ListFrame) : Element → List (List Char) × Option ListFrame
  | .value _ => ([], o)
  | .sequence items => markersAll o items
  | .named name _ children =>
    if name = "ol" ∨ name = "ul" then ((markersAll (some (ListFrame.opened name)) children).1, o)
    else if name = "li" then
      let (marker, o) := takeMarker o
      let (ms, o) := markersAll o children
      (marker :: ms, o)
    else markersAll o children

def markersAll (o : Option ListFrame) : List Element → List (List Char) × Option ListFrame
  | [] => ([], o)
  | e :: es =>
    let (ms, o) := markers o e
    let (ns, o) := markersAll o es
    (ms ++ ns, o)

end

def isCode : List Element → Bool
  | [.named name _ [.value _]] => name == "code"
  | _ => false

mutual

/-- Whether no layout drops an item: what drops its children has none that matter, and
no sequence stands among elements. -/
def isWhole : Element → Bool
  | .value _ => true
  | .sequence _ => false
  | .named name _ children =>
    if name = "pre" then isCode children
    else if name = "hr" ∨ name = "br" ∨ name = "img" then children.isEmpty
    else areWhole children

def areWhole : List Element → Bool
  | [] => true
  | e :: es => isWhole e && areWhole es

end

theorem areWhole_cons {e : Element} {es : List Element} (h : areWhole (e :: es) = true) :
    isWhole e = true ∧ areWhole es = true := by
  rwa [areWhole, Bool.and_eq_true] at h

theorem markersAll_singleton (o : Option ListFrame) (e : Element) :
    markersAll o [e] = markers o e := by
  simp [markersAll]

theorem markers_list {name : String} (h : name = "ol" ∨ name = "ul") (o : Option ListFrame)
    (attributes : Attributes) (children : List Element) :
    markers o (.named name attributes children) =
      ((markersAll (some (ListFrame.opened name)) children).1, o) := by
  rw [markers, if_pos h]

theorem markers_item (o : Option ListFrame) (attributes : Attributes) (children : List Element) :
    markers o (.named "li" attributes children) =
      ((takeMarker o).1 :: (markersAll (takeMarker o).2 children).1,
        (markersAll (takeMarker o).2 children).2) := by
  simp [markers]

theorem markersAll_cons (o : Option ListFrame) (e : Element) (es : List Element) :
    markersAll o (e :: es) = ((markers o e).1 ++ (markersAll (markers o e).2 es).1,
      (markersAll (markers o e).2 es).2) :=
  rfl

theorem markersAll_append (o : Option ListFrame) (es gs : List Element) :
    markersAll o (es ++ gs) = ((markersAll o es).1 ++ (markersAll (markersAll o es).2 gs).1,
      (markersAll (markersAll o es).2 gs).2) := by
  induction es generalizing o with
  | nil => rfl
  | cons e es ih => simp only [List.cons_append, markersAll_cons, ih, List.append_assoc]

theorem takeMarker_eq_none (o : Option ListFrame) : (takeMarker o).2 = none ↔ o = none := by
  cases o <;> simp [takeMarker]

mutual

theorem markers_eq_none (o : Option ListFrame) :
    ∀ e : Element, (markers o e).2 = none ↔ o = none
  | .value _ => Iff.rfl
  | .sequence items => markersAll_eq_none o items
  | .named name attributes children => by
    rw [markers]
    split
    · exact Iff.rfl
    · split
      · exact (markersAll_eq_none _ children).trans (takeMarker_eq_none o)
      · exact markersAll_eq_none o children

theorem markersAll_eq_none (o : Option ListFrame) :
    ∀ es : List Element, (markersAll o es).2 = none ↔ o = none
  | [] => Iff.rfl
  | e :: es => (markersAll_eq_none _ es).trans (markers_eq_none o e)

end

mutual

theorem length_markers (o : Option ListFrame) :
    ∀ e : Element, (markers o e).1.length = e.items.length
  | .value _ => rfl
  | .sequence items => length_markersAll o items
  | .named name attributes children => by
    rw [markers, items]
    split
    · next h =>
      have hne : name ≠ "li" := by rintro rfl; simp at h
      rw [if_neg hne]
      exact length_markersAll _ children
    · split
      · rw [List.length_cons, List.length_cons, length_markersAll]
      · exact length_markersAll o children

theorem length_markersAll (o : Option ListFrame) :
    ∀ es : List Element, (markersAll o es).1.length = (itemsAll es).length
  | [] => rfl
  | e :: es => by
    rw [markersAll_cons, itemsAll, List.length_append, List.length_append, length_markers,
      length_markersAll]

end

theorem markers_of_isList {e : Element} (h : e.isList = true) (o : Option ListFrame) :
    (markers o e).2 = o ∧ ∀ o', (markers o' e).1 = (markers o e).1 := by
  cases e with
  | value v => cases h
  | sequence items => cases h
  | named name attributes children =>
    have hn : name = "ol" ∨ name = "ul" := by simpa [isList, isNamed] using h
    rw [markers_list hn]
    exact ⟨rfl, fun o' => by rw [markers_list hn]⟩

/-! ## Layouts -/

def specialNames : List String := ["ol", "ul", "li", "pre", "hr", "br", "img"]

section

variable {name : String} {attributes : Attributes} {children : List Element}

theorem markers_of_plain (h : name ∉ specialNames) (o : Option ListFrame) :
    markers o (.named name attributes children) = markersAll o children := by
  simp only [specialNames, List.mem_cons, not_or] at h
  rw [markers, if_neg (not_or.2 ⟨h.1, h.2.1⟩), if_neg h.2.2.1]

theorem isWhole_of_plain (h : name ∉ specialNames) :
    isWhole (.named name attributes children) = areWhole children := by
  simp only [specialNames, List.mem_cons, not_or] at h
  obtain ⟨-, -, -, hpre, hhr, hbr, himg, -⟩ := h
  rw [isWhole, if_neg hpre, if_neg (by simp [hhr, hbr, himg])]

/-- All other elements print all children, or all but those that are no elements. -/
theorem layout_of_plain (h : name ∉ specialNames) (indent : List Char) (attributes : Attributes)
    (children : List Element) :
    (∃ inner finish, layout indent name attributes children = .all inner finish) ∨
      ∃ keep finish, layout indent name attributes children = .each keep finish ∧
        ∀ e, keep e = false → isElement e = false := by
  have hblank : ∀ e : Element, (!isBlankElement e) = false → isElement e = false := by
    intro e he
    cases e with
    | named => simp [isBlankElement] at he
    | value => rfl
    | sequence => rfl
  unfold layout
  split
  · exact Or.inl ⟨_, _, rfl⟩
  split
  · exact Or.inl ⟨_, _, rfl⟩
  split
  all_goals first
    | exact Or.inl ⟨_, _, rfl⟩
    | exact absurd (by decide) h
    | skip
  · split
    · exact Or.inr ⟨_, _, rfl, hblank⟩
    · exact Or.inl ⟨_, _, rfl⟩
  · exact Or.inr ⟨_, _, rfl, fun _ he => he⟩

end

/-! ## The visits of a whole element -/

/-- What a traced result says: the items take some markers, each visited once, and some
lists are open after them. -/
structure Visits {α : Type} (r : (α × List ListFrame) × List Visit) (before : Nat)
    (m : List (List Char) × Option ListFrame) (outer : List ListFrame) : Prop where
  frames : r.1.2 = m.2.toList ++ outer
  visits : r.2.Perm (m.1.zipIdx before)

def IsVisited (e : Element) : Prop :=
  ∀ indent before (o : Option ListFrame) outer, (o = none → outer = []) →
    Visits (trace indent (o.toList ++ outer) before e) before (markers o e) outer

theorem nextMarker_append {o : Option ListFrame} {outer : List ListFrame}
    (h : o = none → outer = []) :
    nextMarker (o.toList ++ outer) = ((takeMarker o).1, (takeMarker o).2.toList ++ outer) := by
  cases o with
  | none => rw [h rfl]; rfl
  | some f => rfl

section

variable {es : List Element} {o : Option ListFrame} {outer : List ListFrame}

theorem zipIdx_markers_cons (e : Element) (before : Nat) :
    (markersAll o (e :: es)).1.zipIdx before =
      (markers o e).1.zipIdx before ++
        (markersAll (markers o e).2 es).1.zipIdx (before + e.items.length) := by
  rw [markersAll, List.zipIdx_append, length_markers]

theorem visits_traceAll (h : ∀ e ∈ es, IsVisited e) (indent : List Char) (before : Nat)
    (ho : o = none → outer = []) :
    Visits (traceAll indent (o.toList ++ outer) before es) before (markersAll o es) outer := by
  induction es generalizing before o with
  | nil => exact ⟨rfl, .nil⟩
  | cons e es ih =>
    rw [List.forall_mem_cons] at h
    have he := h.1 indent before o outer ho
    have hes := ih h.2 (before + e.items.length) fun hn => ho ((markers_eq_none o e).1 hn)
    rw [← he.frames] at hes
    refine ⟨hes.frames, ?_⟩
    rw [zipIdx_markers_cons]
    exact he.visits.append hes.visits

/-- To leave out what is no element changes nothing. -/
theorem visits_traceEach (h : ∀ e ∈ es, IsVisited e) (hw : areWhole es = true)
    {keep : Element → Bool} (hk : ∀ e, keep e = false → isElement e = false)
    (indent : List Char) (before : Nat) (ho : o = none → outer = []) :
    Visits (traceEach keep indent (o.toList ++ outer) before es) before (markersAll o es)
      outer := by
  induction es generalizing before o with
  | nil => exact ⟨rfl, .nil⟩
  | cons e es ih =>
    rw [List.forall_mem_cons] at h
    obtain ⟨hwe, hw⟩ := areWhole_cons hw
    have he := h.1 indent before o outer ho
    have hes := ih h.2 hw (before + e.items.length) fun hn => ho ((markers_eq_none o e).1 hn)
    rw [traceEach]
    split
    · rw [← he.frames] at hes
      refine ⟨hes.frames, ?_⟩
      rw [zipIdx_markers_cons]
      exact he.visits.append hes.visits
    · next hkeep =>
      cases e with
      | value v => exact ⟨hes.frames, by rw [zipIdx_markers_cons]; exact hes.visits⟩
      | sequence items => cases hwe
      | named => cases hk _ (by simpa using hkeep)

/-- The nested lists may be visited after all the rest, whatever the frame they are met in. -/
theorem visits_nested (h : ∀ e ∈ es, IsVisited e) (indent : List Char) (before : Nat)
    (ho : o = none → outer = []) {o' : Option ListFrame} (ho' : o' = none → outer = []) :
    let rest := traceEach (fun c => !c.isList) indent (o.toList ++ outer) before es
    let nested := traceEach isList indent (o'.toList ++ outer) before es
    rest.1.2 = (markersAll o es).2.toList ++ outer ∧ nested.1.2 = o'.toList ++ outer ∧
      (rest.2 ++ nested.2).Perm ((markersAll o es).1.zipIdx before) := by
  induction es generalizing before o with
  | nil => exact ⟨rfl, rfl, .nil⟩
  | cons e es ih =>
    rw [List.forall_mem_cons] at h
    obtain ⟨hrest, hnested, hvisits⟩ := ih h.2 (before + e.items.length)
      fun hn => ho ((markers_eq_none o e).1 hn)
    cases hl : e.isList with
    | true =>
      obtain ⟨hsame, hmarkers⟩ := markers_of_isList hl o
      have he := h.1 indent before o' outer ho'
      have hframes : (trace indent (o'.toList ++ outer) before e).1.2 = o'.toList ++ outer := by
        rw [he.frames, (markers_of_isList hl o').1]
      rw [hsame] at hrest hvisits
      simp only [traceEach, hl, Bool.not_true, Bool.false_eq_true, if_false, if_true, hframes]
      refine ⟨by rw [hrest, markersAll_cons, hsame], hnested, ?_⟩
      rw [zipIdx_markers_cons, hsame, ← hmarkers o']
      exact List.perm_append_comm_assoc .. |>.trans (he.visits.append hvisits)
    | false =>
      have he := h.1 indent before o outer ho
      simp only [traceEach, hl, Bool.not_false, Bool.false_eq_true, if_false, if_true, he.frames]
      refine ⟨hrest, hnested, ?_⟩
      rw [zipIdx_markers_cons, List.append_assoc]
      exact he.visits.append hvisits

end

theorem eq_of_isCode {es : List Element} (h : isCode es = true) :
    ∃ attributes v, es = [.named "code" attributes [.value v]] := by
  unfold isCode at h
  split at h
  · obtain rfl := eq_of_beq h
    exact ⟨_, _, rfl⟩
  · cases h

section

variable {name : String} {attributes : Attributes} {children : List Element}

theorem isVisited_list (hn : name = "ol" ∨ name = "ul") (h : ∀ e ∈ children, e.IsVisited) :
    IsVisited (.named name attributes children) := by
  intro indent before o outer _
  have hl : layout indent name attributes children = .list := by
    rcases hn with rfl | rfl <;> rfl
  have hc : Visits (traceAll indent (ListFrame.opened name :: (o.toList ++ outer)) before children)
      before (markersAll (some (ListFrame.opened name)) children) (o.toList ++ outer) :=
    visits_traceAll (o := some (ListFrame.opened name)) h indent before nofun
  rw [trace, markers_list hn]
  simp only [hl]
  exact ⟨rfl, hc.visits⟩

theorem isVisited_item (h : ∀ e ∈ children, e.IsVisited) :
    IsVisited (.named "li" attributes children) := by
  intro indent before o outer ho
  have ho' : (takeMarker o).2 = none → outer = [] := fun hn => ho ((takeMarker_eq_none o).1 hn)
  have hl : layout indent "li" attributes children = .item := rfl
  rw [trace, markers_item]
  simp only [hl, nextMarker_append ho]
  split
  · obtain ⟨hrest, hnested, hvisits⟩ := visits_nested h indent (before + 1) ho'
      fun hn => ho' ((markersAll_eq_none _ children).1 hn)
    rw [← hrest] at hnested hvisits
    exact ⟨hnested.trans hrest, hvisits.cons _⟩
  · have hc := visits_traceAll h indent (before + 1) ho'
    exact ⟨hc.frames, hc.visits.cons _⟩

theorem isVisited_code (h : isCode children = true) :
    IsVisited (.named "pre" attributes children) := by
  obtain ⟨attributes, v, rfl⟩ := eq_of_isCode h
  exact fun _ _ _ _ _ => ⟨rfl, .nil⟩

theorem isVisited_fixed (hn : name = "hr" ∨ name = "br" ∨ name = "img") :
    IsVisited (.named name attributes []) := by
  intro indent before o outer _
  rcases hn with rfl | rfl | rfl <;> exact ⟨rfl, .nil⟩

end

/-- An element with a special name is visited as its markers say if its children are. -/
theorem isVisited_of_special {name : String} {attributes : Attributes} {children : List Element}
    (hn : name ∈ specialNames) (hw : isWhole (.named name attributes children) = true)
    (h : areWhole children = true → ∀ e ∈ children, e.IsVisited) :
    IsVisited (.named name attributes children) := by
  simp only [specialNames, List.mem_cons, List.not_mem_nil, or_false] at hn
  rcases hn with rfl | rfl | rfl | rfl | hn
  · exact isVisited_list (Or.inl rfl) (h (by simpa [isWhole] using hw))
  · exact isVisited_list (Or.inr rfl) (h (by simpa [isWhole] using hw))
  · exact isVisited_item (h (by simpa [isWhole] using hw))
  · exact isVisited_code (by simpa [isWhole] using hw)
  · have hne : name ≠ "pre" := by rintro rfl; simp at hn
    rw [isWhole, if_neg hne, if_pos hn] at hw
    rw [List.isEmpty_iff.1 hw]
    exact isVisited_fixed hn

mutual

/-- In a whole element each item is visited once, with the marker it has in document order. -/
theorem isVisited_of_isWhole : ∀ e : Element, e.isWhole = true → e.IsVisited
  | .value _, _ => fun _ _ _ _ _ => ⟨rfl, .nil⟩
  | .named name attributes children, hw => by
    by_cases hn : name ∈ specialNames
    · exact isVisited_of_special hn hw (areVisited_of_areWhole children)
    · intro indent before o outer ho
      rw [isWhole_of_plain hn] at hw
      have hall := areVisited_of_areWhole children hw
      rw [markers_of_plain hn, trace]
      rcases layout_of_plain hn indent attributes children with
        ⟨inner, finish, hl⟩ | ⟨keep, finish, hl, hk⟩
      · have h := visits_traceAll hall inner before ho
        simp only [hl]
        exact ⟨h.frames, h.visits⟩
      · have h := visits_traceEach hall hw hk indent before ho
        simp only [hl]
        exact ⟨h.frames, h.visits⟩

theorem areVisited_of_areWhole : ∀ es : List Element, areWhole es = true → ∀ e ∈ es, e.IsVisited
  | [], _ => by simp
  | e :: es, hw => by
    obtain ⟨hwe, hw⟩ := areWhole_cons hw
    exact List.forall_mem_cons.2 ⟨isVisited_of_isWhole e hwe, areVisited_of_areWhole es hw⟩

end

end DocPress.Element
