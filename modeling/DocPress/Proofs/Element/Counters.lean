import DocPress.Proofs.Element.Store

/-!
# The counters that printing moves

What printing does to a store can be told without printing. Of the lists that are open already
only the innermost one counts on, by the items that are rendered and stand in no list of the
element. All lists that the element renders get frames of their own, one after the other, which
count their own items from one.
-/

set_option autoImplicit false

namespace DocPress.Element

open Text

/-- The rendered items that stand in no rendered list, and the rendered lists in the order in
which they are opened, with the number of items of each. -/
structure Tally where
  items : Nat
  lists : List (String × Nat)

namespace Tally

instance : Zero Tally := ⟨⟨0, []⟩⟩

instance : Add Tally := ⟨fun t u => ⟨t.items + u.items, t.lists ++ u.lists⟩⟩

@[simp] theorem items_zero : (0 : Tally).items = 0 := rfl

@[simp] theorem lists_zero : (0 : Tally).lists = [] := rfl

@[simp] theorem items_add (t u : Tally) : (t + u).items = t.items + u.items := rfl

@[simp] theorem lists_add (t u : Tally) : (t + u).lists = t.lists ++ u.lists := rfl

theorem add_zero (t : Tally) : t + 0 = t := by
  obtain ⟨items, lists⟩ := t
  exact congrArg _ (List.append_nil lists)

theorem zero_add (t : Tally) : 0 + t = t := by
  obtain ⟨items, lists⟩ := t
  exact congrArg (Tally.mk · lists) (Nat.zero_add items)

def cells (t : Tally) : Store := t.lists.map fun l => (Cell.opened l.1).advanced l.2

def enclosed (name : String) (t : Tally) : Tally := ⟨0, (name, t.items) :: t.lists⟩

end Tally

mutual

/-- Rules, breaks and images render none of their children, a row only those that are elements,
and a block of code those of its first code element if it has one. An item renders the lists
among its children after the others. -/
def tally : Element → Tally
  | .value _ => 0
  | .sequence es => tallyAll es
  | .named name _ children =>
    if name = "ol" ∨ name = "ul" then (tallyAll children).enclosed name
    else if name = "li" then
      ⟨1, []⟩ + (tallyEach (fun c => !c.isList) children + tallyEach isList children)
    else if name = "hr" ∨ name = "br" ∨ name = "img" then 0
    else if name = "tr" then tallyEach isElement children
    else if name = "pre" then (tallyCode children).getD (tallyAll children)
    else tallyAll children

def tallyEach (keep : Element → Bool) : List Element → Tally
  | [] => 0
  | e :: es => if keep e then tally e + tallyEach keep es else tallyEach keep es

def tallyAll : List Element → Tally
  | [] => 0
  | e :: es => tally e + tallyAll es

def tallyCode : List Element → Option Tally
  | [] => none
  | .named name _ children :: es =>
    if name = "code" then some (tallyAll children) else tallyCode es
  | _ :: es => tallyCode es

end

theorem tallyEach_eq_tallyAll {keep : Element → Bool} {es : List Element}
    (h : ∀ e ∈ es, keep e = false → tally e = 0) : tallyEach keep es = tallyAll es := by
  induction es with
  | nil => rfl
  | cons e es ih =>
    rw [List.forall_mem_cons] at h
    rw [tallyEach, tallyAll, ih h.2]
    split
    · rfl
    · next hkeep => rw [h.1 (by simpa using hkeep), Tally.zero_add]

theorem tallyEach_eq_zero {keep : Element → Bool} {es : List Element}
    (h : ∀ e ∈ es, keep e = false) : tallyEach keep es = 0 := by
  induction es with
  | nil => rfl
  | cons e es ih =>
    rw [List.forall_mem_cons] at h
    rw [tallyEach, if_neg (by simp [h.1]), ih h.2]

def advancedFrames (n : Nat) (frames : List ListFrame) : List ListFrame :=
  frames.modifyHead (ListFrame.advanced n)

/-- The frames that stand at some places of a store, the innermost one as it is there: of the
others only their number matters. -/
structure Stands (places : List Nat) (store : Store) (frames : List ListFrame) : Prop where
  within : ∀ a ∈ places, a < store.length
  depth : frames.length = places.length
  innermost : frames.head? = places.head?.bind fun a => store[a]?.map Cell.frame

/-- Two results of printing are the same text, and both have counted the items of a tally. -/
structure Counts {α : Type} (places : List Nat) (store : Store) (frames : List ListFrame)
    (t : Tally) (r : α × Store) (s : α × List ListFrame) : Prop where
  text : r.1 = s.1
  frames : s.2 = advancedFrames t.items frames
  store : r.2 = advancedAt store places.head? t.items ++ t.cells

section

variable {α β γ : Type} {places : List Nat} {store : Store} {frames : List ListFrame}
  {t u : Tally} {r : α × Store} {s : α × List ListFrame}

theorem Stands.head (h : Stands places store frames) : ∀ a ∈ places.head?, a < store.length :=
  fun a ha => h.within a (List.mem_of_mem_head? ha)

theorem Stands.opened (h : Stands places store frames) (name : String) :
    Stands (store.length :: places) (store ++ [Cell.opened name])
      (ListFrame.opened name :: frames) := by
  refine ⟨fun a ha => ?_, congrArg (· + 1) h.depth, by simp [Cell.opened]⟩
  rw [List.length_append, List.length_singleton]
  rcases List.mem_cons.1 ha with rfl | ha
  · exact Nat.lt_succ_self _
  · exact Nat.lt_succ_of_lt (h.within a ha)

theorem Counts.stands (hp : Stands places store frames) (h : Counts places store frames t r s) :
    Stands places r.2 s.2 := by
  refine ⟨fun a ha => ?_, ?_, ?_⟩
  · rw [h.store, List.length_append, length_advancedAt]
    exact Nat.lt_of_lt_of_le (hp.within a ha) (Nat.le_add_right ..)
  · rw [h.frames, advancedFrames, List.length_modifyHead, hp.depth]
  · have hhead := hp.innermost
    rw [h.frames, h.store, advancedFrames, List.head?_modifyHead, hhead]
    cases hplace : places.head? with
    | none => rfl
    | some a =>
      have ha := hp.head a hplace
      rw [Option.bind_some, Option.bind_some,
        List.getElem?_append_left (by rwa [length_advancedAt]), getElem?_advancedAt, if_pos rfl,
        Option.map_map, Option.map_map]
      rfl

theorem counts_zero (x : α) : Counts places store frames 0 (x, store) (x, frames) := by
  refine ⟨rfl, ?_, by simp [Tally.cells]⟩
  cases frames <;> simp [advancedFrames]

theorem Counts.map (f : α → β) (h : Counts places store frames t r s) :
    Counts places store frames t (f r.1, r.2) (f s.1, s.2) :=
  ⟨congrArg f h.text, h.frames, h.store⟩

theorem Counts.and {r' : β × Store} {s' : β × List ListFrame} (f : α → β → γ)
    (hp : Stands places store frames) (h : Counts places store frames t r s)
    (h' : Counts places r.2 s.2 u r' s') :
    Counts places store frames (t + u) (f r.1 r'.1, r'.2) (f s.1 s'.1, s'.2) := by
  refine ⟨by rw [h.text, h'.text], ?_, ?_⟩
  · rw [h'.frames, h.frames]
    cases frames with
    | nil => rfl
    | cons f frames => simp [advancedFrames, ListFrame.advanced_advanced]
  · rw [h'.store, h.store, advancedAt_append (by simpa using hp.head), advancedAt_advancedAt]
    simp [Tally.cells]

theorem Counts.enclosed {name : String}
    (h : Counts (store.length :: places) (store ++ [Cell.opened name])
      (ListFrame.opened name :: frames) t r s) :
    Counts places store frames (t.enclosed name) r (s.1, frames) := by
  refine ⟨h.text, ?_, ?_⟩
  · cases frames <;> simp [advancedFrames, Tally.enclosed]
  · rw [h.store, List.head?_cons, advancedAt_concat]
    simp [Tally.cells, Tally.enclosed]

theorem counts_take (hp : Stands places store frames) :
    Counts places store frames ⟨1, []⟩ (takeAt store places.head?) (nextMarker frames) := by
  have hinnermost := hp.innermost
  rw [takeAt_eq hp.head, ← hinnermost]
  cases frames with
  | nil => exact ⟨rfl, rfl, by simp [Tally.cells]⟩
  | cons f frames =>
    exact ⟨rfl, by simp [nextMarker, advancedFrames, ListFrame.next_eq], by simp [Tally.cells]⟩

theorem itemIndent_eq (hp : Stands places store frames) :
    itemIndent frames = (List.replicate (places.length - 1) listIndent).flatten := by
  rw [itemIndent, hp.depth]

end

/-- All other elements render all their children, or all but blank ones. -/
theorem layout_of_common {name : String}
    (h : name ∉ ["ol", "ul", "li", "hr", "br", "img", "tr", "pre"]) (indent : List Char)
    (attributes : Attributes) (children : List Element) :
    (∃ inner finish, layout indent name attributes children = .all inner finish) ∨
      ∃ finish, layout indent name attributes children =
        .each (fun c => !isBlankElement c) finish := by
  unfold layout
  split
  · exact Or.inl ⟨_, _, rfl⟩
  split
  · exact Or.inl ⟨_, _, rfl⟩
  split
  all_goals first
    | exact Or.inl ⟨_, _, rfl⟩
    | exact absurd (by decide) h
    | skip
  split
  · exact Or.inr ⟨_, rfl⟩
  · exact Or.inl ⟨_, _, rfl⟩

theorem tally_of_common {name : String}
    (h : name ∉ ["ol", "ul", "li", "hr", "br", "img", "tr", "pre"]) (attributes : Attributes)
    (children : List Element) : tally (.named name attributes children) = tallyAll children := by
  simp only [List.mem_cons, List.not_mem_nil, or_false, not_or] at h
  simp [tally, h]

theorem tallyEach_nonblank (es : List Element) :
    tallyEach (fun c => !isBlankElement c) es = tallyAll es := by
  refine tallyEach_eq_tallyAll fun e _ he => ?_
  cases e with
  | value v => rfl
  | sequence items => simp [isBlankElement] at he
  | named => simp [isBlankElement] at he

/-- The items of a list item: without nested lists they are those of all its children. -/
theorem tally_item (attributes : Attributes) (children : List Element) :
    tally (.named "li" attributes children) = ⟨1, []⟩ + (if children.any isList then
      tallyEach (fun c => !c.isList) children + tallyEach isList children
      else tallyAll children) := by
  have hli : ¬("li" = "ol" ∨ "li" = "ul") := by decide
  rw [tally, if_neg hli, if_pos rfl]
  split
  · rfl
  · next h =>
    have hnone : ∀ e ∈ children, e.isList = false := by simpa using h
    rw [tallyEach_eq_zero hnone, Tally.add_zero, tallyEach_eq_tallyAll fun e he hkept => ?_]
    simp [hnone e he] at hkept

section

variable {places : List Nat} {store : Store} {frames : List ListFrame} {indent : List Char}
  {attributes : Attributes} {children : List Element}

theorem counts_item (hp : Stands places store frames)
    (hall : ∀ {store frames}, Stands places store frames →
      Counts places store frames (tallyAll children) (printAllIn indent places store children)
        (printAll indent frames children))
    (heach : ∀ keep store frames, Stands places store frames →
      Counts places store frames (tallyEach keep children)
        (printEachIn keep indent places store children) (printEach keep indent frames children)) :
    Counts places store frames (tally (.named "li" attributes children))
      (printIn indent places store (.named "li" attributes children))
      (print indent frames (.named "li" attributes children)) := by
  have hl : layout indent "li" attributes children = .item := rfl
  have htake := counts_take hp
  have hp' := htake.stands hp
  rw [tally_item, printIn, print, hl]
  generalize takeAt store places.head? = taken at htake hp' ⊢
  generalize nextMarker frames = next at htake hp' ⊢
  obtain ⟨marker, store'⟩ := taken
  obtain ⟨marker', frames'⟩ := next
  obtain rfl : marker = marker' := htake.text
  dsimp only at hp' ⊢
  rw [itemIndent_eq hp']
  generalize (List.replicate (places.length - 1) listIndent).flatten ++ marker ++ [' '] = start
  split
  · have hrest := heach (fun c => !c.isList) _ _ hp'
    have hnested := heach isList _ _ (hrest.stands hp')
    have h := htake.and (fun _ (ss : List (List Char) × List (List Char)) =>
      start ++ strip ss.1.flatten ++ ['\n'] ++ ss.2.flatten) hp (hrest.and Prod.mk hp' hnested)
    -- Named, the results are compared as they are and not computed.
    generalize printEachIn (fun c => !c.isList) indent places store' children = r at h ⊢
    generalize printEach (fun c => !c.isList) indent frames' children = s at h ⊢
    generalize printEachIn isList indent places r.2 children = r' at h ⊢
    generalize printEach isList indent s.2 children = s' at h ⊢
    exact h
  · have h := htake.and (fun _ s => start ++ joinLines (strip s) ++ ['\n']) hp (hall hp')
    generalize printAllIn indent places store' children = r at h ⊢
    generalize printAll indent frames' children = s at h ⊢
    exact h

theorem counts_code
    (hcode : (tallyCode children = none ∧ printCodeIn indent places store children = none ∧
        printCode indent frames children = none) ∨
      ∃ t language r s, tallyCode children = some t ∧
        printCodeIn indent places store children = some (language, r) ∧
        printCode indent frames children = some (language, s) ∧
        Counts places store frames t r s)
    (hall : Counts places store frames (tallyAll children)
      (printAllIn indent places store children) (printAll indent frames children)) :
    Counts places store frames (tally (.named "pre" attributes children))
      (printIn indent places store (.named "pre" attributes children))
      (print indent frames (.named "pre" attributes children)) := by
  have hl : layout indent "pre" attributes children = .code := rfl
  have ht : tally (.named "pre" attributes children) =
      (tallyCode children).getD (tallyAll children) := by simp [tally]
  rw [ht, printIn, print, hl]
  rcases hcode with ⟨htally, hin, hout⟩ | ⟨t, language, r, s, htally, hin, hout, h⟩
  · simp only [htally, hin, hout]
    exact hall.map (codeBlock [])
  · simp only [htally, hin, hout]
    exact h.map (codeBlock language)

end

mutual

/-- Printing with a store prints the same text, and both ways count the items of the tally. -/
theorem counts_print (indent : List Char) {places : List Nat} {store : Store}
    {frames : List ListFrame} (hp : Stands places store frames) :
    ∀ e : Element, Counts places store frames (tally e) (printIn indent places store e)
      (print indent frames e)
  | .value v => counts_zero _
  | .sequence items => counts_printAll indent hp items
  | .named name attributes children => by
    by_cases hcommon : name ∈ ["ol", "ul", "li", "hr", "br", "img", "tr", "pre"]
    · simp only [List.mem_cons, List.not_mem_nil, or_false] at hcommon
      rcases hcommon with rfl | rfl | rfl | rfl | rfl | rfl | rfl | rfl
      · exact (counts_printAll indent (hp.opened "ol") children).enclosed
      · exact (counts_printAll indent (hp.opened "ul") children).enclosed
      · exact counts_item hp (fun hp => counts_printAll indent hp children)
          fun keep _ _ hp => counts_printEach keep indent hp children
      · exact counts_zero _
      · exact counts_zero _
      · exact counts_zero _
      · exact (counts_printEach isElement indent hp children).map fun cells =>
          rowText cells (children.any (·.isNamed ["th"]))
      · exact counts_code (counts_printCode indent hp children) (counts_printAll indent hp children)
    · rw [tally_of_common hcommon, printIn, print]
      rcases layout_of_common hcommon indent attributes children with
        ⟨inner, finish, hl⟩ | ⟨finish, hl⟩
      · rw [hl]
        exact (counts_printAll inner hp children).map finish
      · rw [hl, ← tallyEach_nonblank]
        exact (counts_printEach _ indent hp children).map finish

theorem counts_printEach (keep : Element → Bool) (indent : List Char) {places : List Nat}
    {store : Store} {frames : List ListFrame} (hp : Stands places store frames) :
    ∀ es : List Element, Counts places store frames (tallyEach keep es)
      (printEachIn keep indent places store es) (printEach keep indent frames es)
  | [] => counts_zero _
  | e :: es => by
    rw [tallyEach, printEachIn, printEach]
    split
    · have he := counts_print indent hp e
      exact he.and List.cons hp (counts_printEach keep indent (he.stands hp) es)
    · exact counts_printEach keep indent hp es

theorem counts_printAll (indent : List Char) {places : List Nat} {store : Store}
    {frames : List ListFrame} (hp : Stands places store frames) :
    ∀ es : List Element, Counts places store frames (tallyAll es)
      (printAllIn indent places store es) (printAll indent frames es)
  | [] => counts_zero _
  | e :: es => by
    have he := counts_print indent hp e
    exact he.and List.append hp (counts_printAll indent (he.stands hp) es)

theorem counts_printCode (indent : List Char) {places : List Nat} {store : Store}
    {frames : List ListFrame} (hp : Stands places store frames) :
    ∀ es : List Element,
      (tallyCode es = none ∧ printCodeIn indent places store es = none ∧
        printCode indent frames es = none) ∨
      ∃ t language r s, tallyCode es = some t ∧
        printCodeIn indent places store es = some (language, r) ∧
        printCode indent frames es = some (language, s) ∧ Counts places store frames t r s
  | [] => Or.inl ⟨rfl, rfl, rfl⟩
  | .value _ :: es => counts_printCode indent hp es
  | .sequence _ :: es => counts_printCode indent hp es
  | .named name attributes children :: es => by
    rw [tallyCode, printCodeIn, printCode]
    split
    · exact Or.inr ⟨_, _, _, _, rfl, rfl, rfl, counts_printAll indent hp children⟩
    · exact counts_printCode indent hp es

end

/-! ## What is seen of the counters -/

def framesAt (store : Store) (places : List Nat) : List ListFrame :=
  places.filterMap fun a => store[a]?.map Cell.frame

theorem framesAt_cons {store : Store} {a : Nat} {places : List Nat} (ha : a < store.length) :
    framesAt store (a :: places) = store[a].frame :: framesAt store places := by
  simp [framesAt, ha]

theorem length_framesAt {store : Store} {places : List Nat} (hp : ∀ a ∈ places, a < store.length) :
    (framesAt store places).length = places.length := by
  induction places with
  | nil => rfl
  | cons a places ih =>
    rw [List.forall_mem_cons] at hp
    rw [framesAt_cons hp.1, List.length_cons, List.length_cons, ih hp.2]

theorem head?_framesAt {store : Store} {places : List Nat} (hp : ∀ a ∈ places, a < store.length) :
    (framesAt store places).head? = places.head?.bind fun a => store[a]?.map Cell.frame := by
  cases places with
  | nil => rfl
  | cons a places =>
    have ha := (List.forall_mem_cons.1 hp).1
    simp [framesAt_cons ha, ha]

/-- Any frames of the same number, the innermost one the same, stand for those at some places. -/
theorem stands_framesAt {store store' : Store} {places places' : List Nat}
    (hp : ∀ a ∈ places, a < store.length) (hp' : ∀ a ∈ places', a < store'.length)
    (hlength : places'.length = places.length)
    (hhead : (framesAt store' places').head? = (framesAt store places).head?) :
    Stands places' store' (framesAt store places) :=
  ⟨hp', (length_framesAt hp).trans hlength.symm, by rw [← hhead, head?_framesAt hp']⟩

theorem given_cells (t : Tally) :
    t.cells.map Cell.given = t.lists.map fun l => (List.range l.2).map fun k =>
      if l.1 = "ol" then Nat.toDigits 10 (k + 1) ++ ['.'] else ['-'] := by
  simp [Tally.cells, Cell.advanced, Cell.opened, ListFrame.opened, ListFrame.markerAfter,
    Function.comp_def]

theorem render_renderIn (store : Store) (e : Element) : (renderIn store e).1 = render e := by
  have hp : Stands [] store [] := ⟨by simp, rfl, rfl⟩
  rw [render, ← (counts_print [] hp e).text]
  rfl

/-- Lists count alone. Printing an element moves no counter but that of the innermost open list,
and that one, if it is numbered, by the items that are rendered in no list of the element. The
text knows the lists around only by their number. Each list that is rendered gives markers of its
own, from one on without gap, one for each of its items. So a document is the same text whenever
it is printed. -/
theorem lists_count_alone (indent : List Char) (places : List Nat) (store : Store) (e : Element)
    (hp : ∀ a ∈ places, a < store.length) :
    (printIn indent places store e).1 = (print indent (framesAt store places) e).1 ∧
    (∀ a, a < store.length → places.head? ≠ some a →
      (printIn indent places store e).2[a]? = store[a]?) ∧
    (∀ a c, places.head? = some a → store[a]? = some c →
      ∃ c', (printIn indent places store e).2[a]? = some c' ∧
        c'.frame.numbered = c.frame.numbered ∧
        c'.frame.count = c.frame.count + if c.frame.numbered then (tally e).items else 0) ∧
    (∀ places' store', (∀ a ∈ places', a < store'.length) → places'.length = places.length →
      (framesAt store' places').head? = (framesAt store places).head? →
      (printIn indent places' store' e).1 = (printIn indent places store e).1) ∧
    ((printIn indent places store e).2.drop store.length).map Cell.given =
      ((tally e).lists.map fun l => (List.range l.2).map fun k =>
        if l.1 = "ol" then Nat.toDigits 10 (k + 1) ++ ['.'] else ['-']) ∧
    (renderIn store e).1 = render e ∧
    (renderIn (renderIn store e).2 e).1 = (renderIn store e).1 := by
  have h := counts_print indent (stands_framesAt hp hp rfl rfl) e
  have hat : ∀ a, a < store.length → (printIn indent places store e).2[a]? =
      (advancedAt store places.head? (tally e).items)[a]? := fun a ha => by
    rw [h.store, List.getElem?_append_left (by rwa [length_advancedAt])]
  refine ⟨h.text, fun a ha hne => ?_, fun a c hplace hc => ?_,
    fun places' store' hp' hlength hhead => ?_, ?_, render_renderIn store e, ?_⟩
  · rw [hat a ha, getElem?_advancedAt, if_neg hne]
  · obtain ⟨ha, -⟩ := List.getElem?_eq_some_iff.1 hc
    refine ⟨c.advanced (tally e).items, ?_, ListFrame.advanced_numbered .., ?_⟩
    · rw [hat a ha, getElem?_advancedAt, if_pos hplace, hc, Option.map_some]
    · rw [Cell.advanced, ListFrame.advanced]
      split <;> rfl
  · exact (counts_print indent (stands_framesAt hp hp' hlength hhead) e).text.trans h.text.symm
  · rw [h.store, List.drop_left' (length_advancedAt ..), given_cells]
  · rw [render_renderIn, render_renderIn]

def nestedStore : Store := [⟨⟨true, 4⟩, []⟩, ⟨⟨true, 2⟩, []⟩]

def nestedItem : Element :=
  .named "li" [] [.named "ol" [] [.named "li" [] [], .named "li" [] []], .value (.string "a")]

/-- An item that holds a list is the third one of its own list, whose outer list stays at four. -/
theorem lists_count_alone_of_nested :
    (printIn [] [1, 0] nestedStore nestedItem).2[0]? = nestedStore[0]? ∧
      (∃ c, (printIn [] [1, 0] nestedStore nestedItem).2[1]? = some c ∧ c.frame.count = 3) ∧
      ((printIn [] [1, 0] nestedStore nestedItem).2.drop 2).map Cell.given =
        [[['1', '.'], ['2', '.']]] := by
  obtain ⟨-, houter, hinner, -, hgiven, -⟩ :=
    lists_count_alone [] [1, 0] nestedStore nestedItem (by decide)
  obtain ⟨c, hc, -, hcount⟩ := hinner 1 _ rfl rfl
  exact ⟨houter 0 (by decide) (by decide), ⟨c, hc, hcount⟩, hgiven⟩

end DocPress.Element
