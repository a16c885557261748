import DocPress.Proofs.Element.Counters

/-!
# The lines of nested items

An item starts its line with three spaces for each list around its own, and its marker.
So the items of a list stand three columns behind those of the list around, however long
the markers there are: as far in as the text of an item whose marker has two characters.
Where an item stands in a paragraph of text, a cell, a quotation or a block of code, its
text becomes part of theirs and starts no line of its own.
-/

set_option autoImplicit false

namespace DocPress.Element

open Text

/-! ## Lines that items start -/

/-- A line that an item starts: the text before it, the lists that are open, and the marker. -/
structure ItemLine where
  before : List Char
  depth : Nat
  marker : List Char
  deriving DecidableEq

namespace ItemLine

def indent (x : ItemLine) : Nat := 3 * (x.depth - 1)

def textColumn (x : ItemLine) : Nat := x.indent + x.marker.length + 1

def after (s : List Char) (x : ItemLine) : ItemLine := { x with before := s ++ x.before }

def IsIn (x : ItemLine) (s : List Char) : Prop :=
  ∃ rest, s = x.before ++ (List.replicate x.indent ' ' ++ x.marker ++ ' ' :: rest)

end ItemLine

def EndsLine (s : List Char) : Prop := s.getLast?.all (· == '\n') = true

/-- What stands before the text of its children in an element that keeps that text as it is. -/
def lead? (name : String) : Option (List Char) :=
  match headingLevel? name with
  | some level => some (List.replicate level '#' ++ [' '])
  | none =>
  match inlineMark? name with
  | some mark => some mark
  | none =>
  if name = "a" then some ['[']
  else if name ∈ ["p", "pre", "blockquote", "hr", "br", "img", "tr", "th", "td"] then none
  else some []

def ownLine (frames : List ListFrame) : ItemLine := ⟨[], frames.length, (nextMarker frames).1⟩

mutual

/-- The lines that the items in an element start, in the order of the text. -/
def itemLines (indent : List Char) (frames : List ListFrame) : Element → List ItemLine
  | .value _ => []
  | .sequence es => itemLinesEach (fun _ => true) indent frames es
  | .named name _ children =>
    if name = "ol" ∨ name = "ul" then
      itemLinesEach (fun _ => true) indent (ListFrame.opened name :: frames) children
    else if name = "li" then
      let (marker, taken) := nextMarker frames
      let (inner, next) := printEach (fun c => !c.isList) indent taken children
      let start := itemIndent taken ++ marker ++ [' '] ++ strip inner.flatten ++ ['\n']
      ownLine frames ::
        (itemLinesEach isList indent next children).map (ItemLine.after start)
    else if name = "p" then
      if isItemParagraph children then
        itemLinesEach (fun c => !isBlankElement c) indent frames children
      else []
    else
      match lead? name with
      | some s => (itemLinesEach (fun _ => true) indent frames children).map (ItemLine.after s)
      | none => []

def itemLinesEach (keep : Element → Bool) (indent : List Char) (frames : List ListFrame) :
    List Element → List ItemLine
  | [] => []
  | e :: es =>
    if keep e then
      let (s, next) := print indent frames e
      itemLines indent frames e ++
        (itemLinesEach keep indent next es).map (ItemLine.after s)
    else itemLinesEach keep indent frames es

end

variable {indent : List Char} {frames : List ListFrame} {x : ItemLine} {s t : List Char}

theorem ItemLine.IsIn.append (h : x.IsIn s) (t : List Char) : x.IsIn (s ++ t) := by
  obtain ⟨rest, rfl⟩ := h
  exact ⟨rest ++ t, by simp⟩

theorem ItemLine.IsIn.after (h : x.IsIn s) (t : List Char) : (x.after t).IsIn (t ++ s) := by
  obtain ⟨rest, rfl⟩ := h
  exact ⟨rest, by simp [ItemLine.after, ItemLine.indent]⟩

theorem itemIndent_eq_replicate (frames : List ListFrame) :
    itemIndent frames = List.replicate (3 * (frames.length - 1)) ' ' := by
  rw [itemIndent, show listIndent = List.replicate 3 ' ' from rfl, List.flatten_replicate_replicate,
    Nat.mul_comm]

theorem isIn_start (frames : List ListFrame) (marker rest : List Char) :
    ItemLine.IsIn ⟨[], frames.length, marker⟩ (itemIndent frames ++ marker ++ [' '] ++ rest) :=
  ⟨rest, by simp [itemIndent_eq_replicate, ItemLine.indent]⟩

theorem printAll_eq_printEach (indent : List Char) (frames : List ListFrame) (es : List Element) :
    printAll indent frames es = ((printEach (fun _ => true) indent frames es).1.flatten,
      (printEach (fun _ => true) indent frames es).2) := by
  induction es generalizing frames with
  | nil => rfl
  | cons e es ih => simp only [printAll, printEach, ih, if_true, List.flatten_cons]

/-- An element that keeps the text of its children is printed around it. -/
theorem layout_of_lead {name : String} (h : lead? name = some s) (hli : name ≠ "li")
    (hl : ¬(name = "ol" ∨ name = "ul")) (indent : List Char) (attributes : Attributes)
    (children : List Element) :
    ∃ finish, layout indent name attributes children = .all indent finish ∧
      ∀ u, ∃ rest, finish u = s ++ u ++ rest ∧ (s = [] → EndsLine rest) := by
  cases hlevel : headingLevel? name with
  | some level =>
    simp only [lead?, hlevel, Option.some_inj] at h
    subst h
    simp only [layout, hlevel]
    exact ⟨_, rfl, fun u => ⟨['\n', '\n'], by simp, by simp⟩⟩
  | none =>
    cases hmark : inlineMark? name with
    | some mark =>
      simp only [lead?, hlevel, hmark, Option.some_inj] at h
      subst h
      simp only [layout, hlevel, hmark]
      refine ⟨_, rfl, fun u => ⟨mark, by simp, fun hnil => ?_⟩⟩
      subst hnil
      unfold inlineMark? at hmark
      split at hmark <;> cases hmark
    | none =>
      simp only [lead?, hlevel, hmark] at h
      by_cases ha : name = "a"
      · subst ha
        obtain rfl := Option.some.inj h
        exact ⟨_, rfl, fun u => ⟨_, by simp only [List.append_assoc]; rfl, nofun⟩⟩
      rw [if_neg ha] at h
      split at h
      · cases h
      · next hother =>
        obtain rfl := Option.some.inj h
        simp only [List.mem_cons, List.not_mem_nil, or_false, not_or] at hother
        simp only [layout, hlevel, hmark]
        split <;> first
          | (exfalso; simp_all; done)
          | exact ⟨_, rfl, fun u => ⟨['\n'], rfl, fun _ => by simp [EndsLine]⟩⟩
          | exact ⟨_, rfl, fun u => ⟨[], by simp, fun _ => by simp [EndsLine]⟩⟩

theorem layout_paragraph (indent : List Char) (attributes : Attributes) (children : List Element) :
    layout indent "p" attributes children =
      if isItemParagraph children then
        .each (fun c => !isBlankElement c) fun ss => ss.flatten ++ ['\n']
      else .all indent fun s =>
        if (strip s).isEmpty then [] else indent ++ strip s ++ ['\n', '\n'] :=
  rfl

/-! ## The lines are in the text -/

@[simp] theorem length_nextMarker (frames : List ListFrame) :
    (nextMarker frames).2.length = frames.length := by
  cases frames <;> rfl

def itemStart (indent : List Char) (frames : List ListFrame) (children : List Element) :
    List Char :=
  itemIndent (nextMarker frames).2 ++ (nextMarker frames).1 ++ [' '] ++
    strip (printEach (fun c => !c.isList) indent (nextMarker frames).2 children).1.flatten ++ ['\n']

def nestedLines (indent : List Char) (frames : List ListFrame) (children : List Element) :
    List ItemLine :=
  (itemLinesEach isList indent
    (printEach (fun c => !c.isList) indent (nextMarker frames).2 children).2 children).map
      (ItemLine.after (itemStart indent frames children))

theorem itemLines_item (indent : List Char) (frames : List ListFrame) (attributes : Attributes)
    (children : List Element) : itemLines indent frames (.named "li" attributes children) =
      ownLine frames :: nestedLines indent frames children := by
  simp [itemLines, nestedLines, itemStart]

theorem print_item {children : List Element} (h : children.any isList = true) (indent : List Char)
    (frames : List ListFrame) (attributes : Attributes) :
    (print indent frames (.named "li" attributes children)).1 =
      itemStart indent frames children ++ (printEach isList indent
        (printEach (fun c => !c.isList) indent (nextMarker frames).2 children).2
          children).1.flatten := by
  have hl : layout indent "li" attributes children = .item := rfl
  rw [print, hl]
  simp only [h, if_true, itemStart]

theorem itemLinesEach_eq_nil {keep : Element → Bool} {es : List Element}
    (h : ∀ e ∈ es, keep e = false) : itemLinesEach keep indent frames es = [] := by
  induction es with
  | nil => rfl
  | cons e es ih =>
    rw [List.forall_mem_cons] at h
    rw [itemLinesEach, if_neg (by simp [h.1]), ih h.2]

/-- Every item prints its own line first. -/
theorem isIn_item (indent : List Char) (frames : List ListFrame) (attributes : Attributes)
    (children : List Element) :
    (ownLine frames).IsIn (print indent frames (.named "li" attributes children)).1 := by
  have hl : layout indent "li" attributes children = .item := rfl
  rw [print, hl, ownLine, ← length_nextMarker]
  dsimp only
  split
  · have h := isIn_start (nextMarker frames).2 (nextMarker frames).1
      (strip (printEach (fun c => !c.isList) indent (nextMarker frames).2 children).1.flatten ++
        ['\n'] ++ (printEach isList indent (printEach (fun c => !c.isList) indent
          (nextMarker frames).2 children).2 children).1.flatten)
    simpa using h
  · have h := isIn_start (nextMarker frames).2 (nextMarker frames).1
      (joinLines (strip (printAll indent (nextMarker frames).2 children).1) ++ ['\n'])
    simpa using h

mutual

/-- Each line that an item starts is in the text that is printed. -/
theorem isIn_print (indent : List Char) (frames : List ListFrame) :
    ∀ e : Element, ∀ x ∈ itemLines indent frames e, x.IsIn (print indent frames e).1
  | .value _ => by simp [itemLines]
  | .sequence es => by
    rw [itemLines, print, printAll_eq_printEach]
    exact isIn_printEach _ indent frames es
  | .named name attributes children => by
    by_cases hlist : name = "ol" ∨ name = "ul"
    · have hl : layout indent name attributes children = .list := by
        rcases hlist with rfl | rfl <;> rfl
      rw [itemLines, if_pos hlist, print, hl]
      dsimp only
      rw [printAll_eq_printEach]
      exact isIn_printEach _ indent _ children
    by_cases hitem : name = "li"
    · subst hitem
      rw [itemLines_item, List.forall_mem_cons]
      refine ⟨isIn_item indent frames attributes children, fun x hx => ?_⟩
      obtain ⟨y, hy, rfl⟩ := List.mem_map.1 hx
      cases hany : children.any isList with
      | true =>
        rw [print_item hany]
        exact (isIn_printEach isList indent _ children y hy).after _
      | false =>
        rw [itemLinesEach_eq_nil (by simpa using hany)] at hy
        cases hy
    by_cases hp : name = "p"
    · subst hp
      rw [itemLines, if_neg hlist, if_neg hitem, if_pos rfl, print, layout_paragraph]
      split
      · exact fun x hx => (isIn_printEach _ indent frames children x hx).append _
      · simp
    · rw [itemLines, if_neg hlist, if_neg hitem, if_neg hp]
      cases hlead : lead? name with
      | none => simp
      | some s =>
        obtain ⟨finish, hl, hfinish⟩ := layout_of_lead hlead hitem hlist indent attributes children
        obtain ⟨rest, hrest, -⟩ := hfinish (printAll indent frames children).1
        rw [print, hl]
        dsimp only
        rw [hrest, printAll_eq_printEach]
        intro x hx
        obtain ⟨y, hy, rfl⟩ := List.mem_map.1 hx
        exact ((isIn_printEach _ indent frames children y hy).after s).append rest

theorem isIn_printEach (keep : Element → Bool) (indent : List Char) (frames : List ListFrame) :
    ∀ es : List Element, ∀ x ∈ itemLinesEach keep indent frames es,
      x.IsIn (printEach keep indent frames es).1.flatten
  | [] => by simp [itemLinesEach]
  | e :: es => by
    rw [itemLinesEach, printEach]
    split
    · intro x hx
      rcases List.mem_append.1 hx with hx | hx
      · exact (isIn_print indent frames e x hx).append _
      · obtain ⟨y, hy, rfl⟩ := List.mem_map.1 hx
        exact (isIn_printEach keep indent _ es y hy).after _
    · exact isIn_printEach keep indent frames es

end

/-! ## How far the lines stand in -/

theorem stands_self (frames : List ListFrame) :
    Stands (List.range frames.length) (frames.map fun f => ⟨f, []⟩) frames := by
  refine ⟨fun a ha => by simpa using ha, List.length_range.symm, ?_⟩
  cases frames with
  | nil => rfl
  | cons f frames => simp [List.head?_range]

@[simp] theorem length_print (indent : List Char) (frames : List ListFrame) (e : Element) :
    (print indent frames e).2.length = frames.length := by
  rw [(counts_print indent (stands_self frames) e).frames, advancedFrames, List.length_modifyHead]

@[simp] theorem length_printEach (keep : Element → Bool) (indent : List Char)
    (frames : List ListFrame) (es : List Element) :
    (printEach keep indent frames es).2.length = frames.length := by
  rw [(counts_printEach keep indent (stands_self frames) es).frames, advancedFrames,
    List.length_modifyHead]

mutual

/-- The items of an element stand in all lists that are open. -/
theorem depth_itemLines (indent : List Char) (frames : List ListFrame) :
    ∀ e : Element, ∀ x ∈ itemLines indent frames e, frames.length ≤ x.depth
  | .value _ => by simp [itemLines]
  | .sequence es => by
    rw [itemLines]
    exact depth_itemLinesEach _ indent frames es
  | .named name attributes children => by
    by_cases hitem : name = "li"
    · subst hitem
      rw [itemLines_item, List.forall_mem_cons]
      refine ⟨Nat.le_refl _, fun x hx => ?_⟩
      obtain ⟨y, hy, rfl⟩ := List.mem_map.1 hx
      have hdepth := depth_itemLinesEach _ indent _ children y hy
      rwa [length_printEach, length_nextMarker] at hdepth
    rw [itemLines, if_neg hitem]
    split
    · intro x hx
      exact Nat.le_of_succ_le (depth_itemLinesEach _ indent _ children x hx)
    · split
      · split
        · exact depth_itemLinesEach _ indent frames children
        · simp
      · split
        · intro x hx
          obtain ⟨y, hy, rfl⟩ := List.mem_map.1 hx
          exact depth_itemLinesEach _ indent frames children y hy
        · simp

theorem depth_itemLinesEach (keep : Element → Bool) (indent : List Char)
    (frames : List ListFrame) : ∀ es : List Element, ∀ x ∈ itemLinesEach keep indent frames es,
      frames.length ≤ x.depth
  | [] => by simp [itemLinesEach]
  | e :: es => by
    rw [itemLinesEach]
    split
    · intro x hx
      rcases List.mem_append.1 hx with hx | hx
      · exact depth_itemLines indent frames e x hx
      · obtain ⟨y, hy, rfl⟩ := List.mem_map.1 hx
        have hdepth := depth_itemLinesEach keep indent _ es y hy
        rwa [length_print] at hdepth
    · exact depth_itemLinesEach keep indent frames es

end

theorem depth_of_lists (indent : List Char) (frames : List ListFrame) (es : List Element) :
    ∀ x ∈ itemLinesEach isList indent frames es, frames.length < x.depth := by
  induction es generalizing frames with
  | nil => simp [itemLinesEach]
  | cons e es ih =>
    rw [itemLinesEach]
    split
    · next hlist =>
      intro x hx
      rcases List.mem_append.1 hx with hx | hx
      · cases e with
        | value => cases hlist
        | sequence => cases hlist
        | named name attributes children =>
          have hname : name = "ol" ∨ name = "ul" := by simpa [isList, isNamed] using hlist
          rw [itemLines, if_pos hname] at hx
          exact depth_itemLinesEach _ indent _ children x hx
      · obtain ⟨y, hy, rfl⟩ := List.mem_map.1 hx
        have hdepth := ih _ y hy
        rwa [length_print] at hdepth
    · exact ih frames

theorem depth_nestedLines (indent : List Char) (frames : List ListFrame)
    (children : List Element) :
    ∀ x ∈ nestedLines indent frames children, frames.length < x.depth := by
  intro x hx
  obtain ⟨y, hy, rfl⟩ := List.mem_map.1 hx
  have hdepth := depth_of_lists indent _ children y hy
  rwa [length_printEach, length_nextMarker] at hdepth

/-! ## Where the lines start -/

theorem endsLine_nil : EndsLine [] := by simp [EndsLine]

theorem endsLine_append_feed (s : List Char) : EndsLine (s ++ ['\n']) := by simp [EndsLine]

theorem EndsLine.append (hs : EndsLine s) (ht : EndsLine t) : EndsLine (s ++ t) := by
  by_cases h : t = []
  · rwa [h, List.append_nil]
  · rw [EndsLine, List.getLast?_append]
    cases hlast : t.getLast? with
    | none => exact absurd (List.getLast?_eq_none_iff.1 hlast) h
    | some c => simpa [EndsLine, hlast] using ht

mutual

/-- Whether an element consists of whole lines: what its items are printed in does not go on
where another text has started a line. -/
def isBlock : Element → Bool
  | .value v => (valueText v).getLast?.all (· == '\n')
  | .sequence es => areBlocks (fun _ => true) es
  | .named name _ children =>
    if name = "li" then areBlocks isList children
    else if name = "ol" ∨ name = "ul" then areBlocks (fun _ => true) children
    else if name = "p" then
      !isItemParagraph children || areBlocks (fun c => !isBlankElement c) children
    else if name ∈ ["pre", "blockquote", "hr", "br"] then true
    else lead? name == some [] && areBlocks (fun _ => true) children

def areBlocks (keep : Element → Bool) : List Element → Bool
  | [] => true
  | e :: es => (!keep e || isBlock e) && areBlocks keep es

end

/-- Whether a text ends a line, and so does what is before each of some lines in it. -/
structure AreLined (lines : List ItemLine) (s : List Char) : Prop where
  ends : EndsLine s
  starts : ∀ x ∈ lines, EndsLine x.before

theorem AreLined.append {xs ys : List ItemLine} (h : AreLined xs s) (h' : AreLined ys t) :
    AreLined (xs ++ ys.map (ItemLine.after s)) (s ++ t) := by
  refine ⟨h.ends.append h'.ends, fun x hx => ?_⟩
  rcases List.mem_append.1 hx with hx | hx
  · exact h.starts x hx
  · obtain ⟨y, hy, rfl⟩ := List.mem_map.1 hx
    exact h.ends.append (h'.starts y hy)

theorem areLined_nil (h : EndsLine s) : AreLined [] s := ⟨h, by simp⟩

/-- The text of an item ends its line before the lists in it start. -/
theorem areLined_item {attributes : Attributes} {children : List Element}
    (h : ∀ {frames}, AreLined (itemLinesEach isList indent frames children)
      (printEach isList indent frames children).1.flatten) :
    AreLined (itemLines indent frames (.named "li" attributes children))
      (print indent frames (.named "li" attributes children)).1 := by
  have hown : AreLined [ownLine frames] (itemStart indent frames children) :=
    ⟨endsLine_append_feed _, by simp [ownLine, endsLine_nil]⟩
  rw [itemLines_item]
  cases hany : children.any isList with
  | true =>
    rw [print_item hany]
    exact hown.append h
  | false =>
    have hl : layout indent "li" attributes children = .item := rfl
    rw [nestedLines, itemLinesEach_eq_nil (by simpa using hany), print, hl]
    simp only [hany, Bool.false_eq_true, if_false]
    exact ⟨endsLine_append_feed _, hown.starts⟩

/-- A paragraph ends its line, and only one of items has lines that these start. -/
theorem areLined_paragraph {attributes : Attributes} {children : List Element}
    (h : isItemParagraph children = true →
      AreLined (itemLinesEach (fun c => !isBlankElement c) indent frames children)
        (printEach (fun c => !isBlankElement c) indent frames children).1.flatten) :
    AreLined (itemLines indent frames (.named "p" attributes children))
      (print indent frames (.named "p" attributes children)).1 := by
  rw [itemLines, if_neg (by decide), if_neg (by decide), if_pos rfl, print, layout_paragraph]
  cases hitems : isItemParagraph children with
  | true =>
    simp only [if_true]
    simpa using (h hitems).append (areLined_nil (s := ['\n']) (by simp [EndsLine]))
  | false =>
    simp only [Bool.false_eq_true, if_false]
    refine areLined_nil ?_
    split
    · exact endsLine_nil
    · simp [EndsLine]

/-- A block of code, a quotation, a rule and a break are lines that no item starts. -/
theorem areLined_of_whole {name : String} {attributes : Attributes} {children : List Element}
    (h : name ∈ ["pre", "blockquote", "hr", "br"]) :
    AreLined (itemLines indent frames (.named name attributes children))
      (print indent frames (.named name attributes children)).1 := by
  have hcode : ∀ language body, EndsLine (codeBlock language body) := by
    intro language body
    rw [codeBlock, EndsLine, List.getLast?_append]
    rfl
  simp only [List.mem_cons, List.not_mem_nil, or_false] at h
  rcases h with rfl | rfl | rfl | rfl
  · have hl : layout indent "pre" attributes children = .code := rfl
    have hnone : itemLines indent frames (.named "pre" attributes children) = [] := by
      simp [itemLines, lead?, headingLevel?, inlineMark?]
    rw [hnone, print, hl]
    refine areLined_nil ?_
    dsimp only
    split <;> exact hcode _ _
  · have hnone : itemLines indent frames (.named "blockquote" attributes children) = [] := by
      simp [itemLines, lead?, headingLevel?, inlineMark?]
    have hl : layout indent "blockquote" attributes children =
      .all ['>', ' '] fun s => quoteLines s ++ ['\n', '\n'] := rfl
    rw [hnone, print, hl]
    exact areLined_nil (by simp [EndsLine])
  · exact areLined_nil rfl
  · exact areLined_nil rfl

mutual

theorem areLined_of_isBlock (indent : List Char) (frames : List ListFrame) :
    ∀ e : Element, isBlock e = true →
      AreLined (itemLines indent frames e) (print indent frames e).1
  | .value v, h => by
    rw [itemLines]
    exact areLined_nil (by simpa [isBlock, print, EndsLine] using h)
  | .sequence es, h => by
    rw [itemLines, print, printAll_eq_printEach]
    exact areLined_of_areBlocks _ indent frames es h
  | .named name attributes children, h => by
    rw [isBlock] at h
    split at h
    · next hitem =>
      subst hitem
      exact areLined_item (areLined_of_areBlocks isList indent _ children h)
    next hitem =>
    split at h
    · next hlist =>
      have hl : layout indent name attributes children = .list := by
        rcases hlist with rfl | rfl <;> rfl
      rw [itemLines, if_pos hlist, print, hl]
      dsimp only
      rw [printAll_eq_printEach]
      exact areLined_of_areBlocks _ indent _ children h
    next hlist =>
    split at h
    · next hp =>
      subst hp
      refine areLined_paragraph fun hitems => ?_
      exact areLined_of_areBlocks _ indent frames children (by simpa [hitems] using h)
    next hp =>
    split at h
    · next hwhole =>
      exact areLined_of_whole hwhole
    next hwhole =>
    rw [Bool.and_eq_true, beq_iff_eq] at h
    obtain ⟨finish, hl, hfinish⟩ := layout_of_lead h.1 hitem hlist indent attributes children
    obtain ⟨rest, hrest, hends⟩ := hfinish (printAll indent frames children).1
    have hlined := areLined_of_areBlocks _ indent frames children h.2
    rw [itemLines, if_neg hlist, if_neg hitem, if_neg hp, h.1, print, hl]
    dsimp only
    rw [hrest, printAll_eq_printEach, List.nil_append]
    rw [show ItemLine.after [] = id from rfl, List.map_id]
    simpa using hlined.append (areLined_nil (hends rfl))

theorem areLined_of_areBlocks (keep : Element → Bool) (indent : List Char)
    (frames : List ListFrame) : ∀ es : List Element, areBlocks keep es = true →
      AreLined (itemLinesEach keep indent frames es) (printEach keep indent frames es).1.flatten
  | [], _ => areLined_nil endsLine_nil
  | e :: es, h => by
    rw [areBlocks, Bool.and_eq_true] at h
    rw [itemLinesEach, printEach]
    split
    · next hkeep =>
      have he : isBlock e = true := by simpa [hkeep] using h.1
      exact (areLined_of_isBlock indent frames e he).append
        (areLined_of_areBlocks keep indent _ es h.2)
    · exact areLined_of_areBlocks keep indent frames es h.2

end

/-! ## Nested lists -/

/-- Whether the next item of the innermost open list is an item of an unordered list, or one of
the first nine items of an ordered one. -/
def HasShortMarker (frames : List ListFrame) : Prop :=
  ∀ f ∈ frames.head?, f.numbered = true → f.count < 9

theorem hasShortMarker_iff (frames : List ListFrame) :
    HasShortMarker frames ↔ (nextMarker frames).1.length ≤ 2 := by
  cases frames with
  | nil => simp [HasShortMarker, nextMarker]
  | cons f frames =>
    rw [HasShortMarker, nextMarker, ListFrame.next]
    simp only [List.head?_cons, Option.mem_some_iff, forall_eq']
    split
    · next h =>
      have hdigits := Nat.length_toDigits_le_iff (b := 10) (n := f.count + 1) (k := 1)
        (by omega) (by omega)
      simp only [List.length_append, List.length_singleton, h, forall_const]
      omega
    · next h => simp [h]

/-- The text of an item starts three columns behind its indent if its marker is short, else
further in. -/
theorem textColumn_ownLine_le_iff (frames : List ListFrame) :
    (ownLine frames).textColumn ≤ (ownLine frames).indent + 3 ↔ HasShortMarker frames := by
  have hmarker : (ownLine frames).marker = (nextMarker frames).1 := rfl
  rw [hasShortMarker_iff, ItemLine.textColumn, hmarker]
  omega

/-- An item in a list, printed wherever it stands, starts with its own line: the spaces of its
depth, its marker and a space. Each line that an item of a list among its children starts, or an
item deeper in, stands at least three spaces further in, and exactly three if it is an item of
that list itself. So all of them reach the column where the text of the outer item starts if that
one is in an unordered list or among the first nine; behind a longer marker the items of the list
itself fall short. Where the lists among the children consist of whole lines, each of these lines
starts one. -/
theorem nested_lines_indent (indent : List Char) (frames : List ListFrame)
    (attributes : Attributes) (children : List Element) (hf : frames ≠ []) :
    itemLines indent frames (.named "li" attributes children) =
      ownLine frames :: nestedLines indent frames children ∧
    (∀ x ∈ itemLines indent frames (.named "li" attributes children),
      x.IsIn (print indent frames (.named "li" attributes children)).1) ∧
    (areBlocks isList children = true →
      ∀ x ∈ itemLines indent frames (.named "li" attributes children), EndsLine x.before) ∧
    ∀ x ∈ nestedLines indent frames children,
      frames.length < x.depth ∧ (ownLine frames).indent + 3 ≤ x.indent ∧
      (HasShortMarker frames → (ownLine frames).textColumn ≤ x.indent) ∧
      (x.depth = frames.length + 1 → x.indent = (ownLine frames).indent + 3 ∧
        ((ownLine frames).textColumn ≤ x.indent ↔ HasShortMarker frames)) := by
  have hopen : 0 < frames.length := List.length_pos_iff.2 hf
  refine ⟨itemLines_item .., isIn_print indent frames _,
    fun h => (areLined_item (areLined_of_areBlocks isList indent _ children h)).starts,
    fun x hx => ?_⟩
  have hdepth := depth_nestedLines indent frames children x hx
  have hindent : (ownLine frames).indent + 3 ≤ x.indent := by
    simp only [ItemLine.indent, ownLine]
    omega
  refine ⟨hdepth, hindent,
    fun h => Nat.le_trans ((textColumn_ownLine_le_iff frames).2 h) hindent, fun h => ?_⟩
  have hexact : x.indent = (ownLine frames).indent + 3 := by
    simp only [ItemLine.indent, ownLine]
    omega
  exact ⟨hexact, by rw [hexact, textColumn_ownLine_le_iff]⟩

def textItem (s : String) : Element := .named "li" [] [.text s]

def holdingChildren : List Element := [.text "b", .named "ul" [] [textItem "c"]]

def heldLine (before : String) : ItemLine := ⟨before.toList, 2, ['-']⟩

theorem nested_lines_indent_of_third :
    (heldLine "3. b\n").IsIn
      (print [] [⟨true, 2⟩] (.named "li" [] holdingChildren)).1 ∧
    EndsLine (heldLine "3. b\n").before ∧
    (ownLine [⟨true, 2⟩]).textColumn ≤ (heldLine "3. b\n").indent := by
  obtain ⟨hlines, hin, hstarts, hnested⟩ :=
    nested_lines_indent [] [⟨true, 2⟩] [] holdingChildren (by simp)
  have hx : heldLine "3. b\n" ∈ nestedLines [] [⟨true, 2⟩] holdingChildren := by decide
  have hx' := hlines ▸ List.mem_cons_of_mem (ownLine [⟨true, 2⟩]) hx
  obtain ⟨-, -, hshort, -⟩ := hnested _ hx
  exact ⟨hin _ hx', hstarts (by decide) _ hx', hshort (by simp [HasShortMarker])⟩

def tenItems : Element :=
  .named "ol" [] (List.replicate 9 (textItem "a") ++ [.named "li" [] holdingChildren])

def mixedParagraph : Element :=
  .named "ul" [] [.named "li" [] [.text "b", .named "ul" [] [.named "p" []
    [textItem "c", .named "strong" [] [.text "d"]]]]]

/-- Behind the marker of a tenth item a list falls one column short of the text, and an item in
a paragraph of text loses its indent. -/
theorem not_nested_under_tenth :
    (¬∀ (indent : List Char) (frames : List ListFrame) (children : List Element), frames ≠ [] →
      ∀ x ∈ nestedLines indent frames children, (ownLine frames).textColumn ≤ x.indent) ∧
    render tenItems =
      "1. a\n2. a\n3. a\n4. a\n5. a\n6. a\n7. a\n8. a\n9. a\n10. b\n   - c\n" ∧
    render mixedParagraph = "- b\n- c\n**d**\n" := by
  refine ⟨fun h => ?_, by decide +kernel, by decide +kernel⟩
  exact absurd (h [] [⟨true, 9⟩] holdingChildren (by simp) (heldLine "10. b\n") (by decide))
    (by decide)

end DocPress.Element
