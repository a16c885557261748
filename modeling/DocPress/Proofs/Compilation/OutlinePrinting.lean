import DocPress.Proofs.Compilation.Plain
import DocPress.Proofs.Element.OwnText
import DocPress.Proofs.Markdown.Outline

/-!
# Printing outlines

The render tree of an outline and the lines it is printed as: a phrase and a blank line for each
paragraph, then one line for each item, three spaces further in for each list around it, and no
blank line between or behind lists.
-/

set_option autoImplicit false

namespace DocPress

namespace Element

theorem joinLines_of_no_feed {s : List Char} (h : '\n' ∉ s) : joinLines s = s := by
  induction s with
  | nil => rfl
  | cons c s ih =>
    simp only [List.mem_cons, not_or] at h
    rw [joinLines, ih h.2]
    · exact fun _ hc _ => h.1 hc.symm
    · exact fun hc => h.1 hc.symm

end Element

namespace Markdown

open Text Element

/-! ## Elements -/

def Phrase.element (t : Phrase) : Element := .text (String.ofList t.text)

mutual

def Entries.elements : Entries → List Element
  | .last t ordered below => [.named "li" [] (t.element :: below.elements ordered)]
  | .more t ordered below others =>
    .named "li" [] (t.element :: below.elements ordered) :: others.elements

def Lists.elements (ordered : Bool) : Lists → List Element
  | .none => []
  | .list items others =>
    .named (if ordered then "ol" else "ul") [] items.elements :: others.elements !ordered

end

def Phrase.paragraph (t : Phrase) : Element := .named "p" [] [t.element]

/-! ## Lines -/

def itemLine (depth : Nat) (f : ListFrame) (t : Phrase) : List Char :=
  List.replicate (3 * depth) ' ' ++ (f.next.1 ++ ' ' :: t.text)

mutual

def Entries.lines (depth : Nat) (f : ListFrame) : Entries → List (List Char)
  | .last t ordered below => itemLine depth f t :: below.lines (depth + 1) ordered
  | .more t ordered below others =>
    itemLine depth f t :: (below.lines (depth + 1) ordered ++ others.lines depth f.next.2)

def Lists.lines (depth : Nat) (ordered : Bool) : Lists → List (List Char)
  | .none => []
  | .list items others => items.lines depth ⟨ordered, 0⟩ ++ others.lines depth !ordered

end

def feedLines (ls : List (List Char)) : List Char := ls.flatMap fun l => l ++ ['\n']

theorem feedLines_append (ls ms : List (List Char)) :
    feedLines (ls ++ ms) = feedLines ls ++ feedLines ms := List.flatMap_append

/-! ## Printing -/

section

variable (indent : List Char) (frames : List ListFrame)

theorem print_phrase (t : Phrase) : print indent frames t.element = (t.text, frames) := by
  rw [Phrase.element, Element.text, print, valueText, String.toList_ofList]

theorem print_list (ordered : Bool) (es : List Element) :
    print indent frames (.named (if ordered then "ol" else "ul") [] es) =
      ((printAll indent (⟨ordered, 0⟩ :: frames) es).1, frames) := by
  cases ordered <;> rfl

theorem isList_elements (lists : Lists) (ordered : Bool) :
    ∀ e ∈ lists.elements ordered, e.isList = true := by
  cases lists with
  | none => nofun
  | list items others =>
    rw [Lists.elements, List.forall_mem_cons]
    exact ⟨by cases ordered <;> rfl, isList_elements others !ordered⟩

variable {indent frames} in
theorem print_entry {f : ListFrame} {t : Phrase} {ordered : Bool} {below : Lists}
    (hbelow : printAll indent (f.next.2 :: frames) (below.elements ordered) =
      (feedLines (below.lines (frames.length + 1) ordered), f.next.2 :: frames)) :
    print indent (f :: frames) (.named "li" [] (t.element :: below.elements ordered)) =
      (feedLines (itemLine frames.length f t :: below.lines (frames.length + 1) ordered),
        f.next.2 :: frames) := by
  have hmarker : nextMarker (f :: frames) = (f.next.1, f.next.2 :: frames) := rfl
  have hindent : itemIndent (f.next.2 :: frames) = List.replicate (3 * frames.length) ' ' := by
    rw [itemIndent_eq_replicate, List.length_cons, Nat.add_sub_cancel]
  have hfeed : '\n' ∉ t.text := t.isPhrase.not_mem rfl (by decide)
  have hlayout : layout indent "li" [] (t.element :: below.elements ordered) = .item := rfl
  have hlists := isList_elements below ordered
  have htext : t.element.isList = false := rfl
  rw [print, hlayout]
  dsimp only
  rw [hmarker]
  dsimp only
  rw [hindent]
  by_cases hnone : below = .none
  · subst hnone
    have hany : (t.element :: Lists.none.elements ordered).any isList = false := rfl
    rw [hany, if_neg (by simp), printAll, print_phrase]
    simp only [Lists.elements, printAll, List.append_nil]
    rw [t.isPhrase.strip_eq, joinLines_of_no_feed hfeed]
    simp [feedLines, itemLine, Lists.lines]
  · have hany : (t.element :: below.elements ordered).any isList = true := by
      cases below with
      | none => exact absurd rfl hnone
      | list items others => cases ordered <;> rfl
    have htexts : printEach (fun e => !e.isList) indent (f.next.2 :: frames)
        (t.element :: below.elements ordered) = ([t.text], f.next.2 :: frames) := by
      rw [printEach, htext, Bool.not_false, if_pos rfl, print_phrase]
      dsimp only
      rw [printEach_eq_nil fun e he => by rw [hlists e he]; rfl]
    have hnested : printEach isList indent (f.next.2 :: frames)
        (t.element :: below.elements ordered) =
        printEach (fun _ => true) indent (f.next.2 :: frames) (below.elements ordered) := by
      rw [printEach, htext, if_neg (by simp), printEach_congr hlists]
    rw [hany, if_pos rfl, htexts]
    dsimp only
    rw [hnested]
    rw [printAll_eq_printEach] at hbelow
    obtain ⟨hprinted, hframes⟩ := Prod.mk.inj hbelow
    rw [hprinted, hframes, List.flatten_singleton, t.isPhrase.strip_eq]
    simp [feedLines, itemLine]

mutual

theorem printAll_entries : ∀ (items : Entries) (f : ListFrame) (frames : List ListFrame),
    ∃ f', printAll indent (f :: frames) items.elements =
      (feedLines (items.lines frames.length f), f' :: frames)
  | .last t ordered below, f, frames => by
    have hbelow := printAll_lists below ordered (f.next.2 :: frames)
    refine ⟨f.next.2, ?_⟩
    rw [Entries.elements, printAll, print_entry hbelow]
    simp [printAll, Entries.lines]
  | .more t ordered below others, f, frames => by
    have hbelow := printAll_lists below ordered (f.next.2 :: frames)
    obtain ⟨f', hothers⟩ := printAll_entries others f.next.2 frames
    refine ⟨f', ?_⟩
    rw [Entries.elements, printAll, print_entry hbelow]
    dsimp only
    rw [hothers, Entries.lines, ← List.cons_append, feedLines_append]

theorem printAll_lists : ∀ (lists : Lists) (ordered : Bool) (frames : List ListFrame),
    printAll indent frames (lists.elements ordered) =
      (feedLines (lists.lines frames.length ordered), frames)
  | .none, _, _ => rfl
  | .list items others, ordered, frames => by
    obtain ⟨f', hitems⟩ := printAll_entries items ⟨ordered, 0⟩ frames
    have hothers := printAll_lists others (!ordered) frames
    rw [Lists.elements, printAll, print_list, hitems]
    dsimp only
    rw [hothers, Lists.lines, feedLines_append]

end

end

/-! ## Documents -/

namespace Outline

def elements (o : Outline) : List Element :=
  o.paragraphs.map Phrase.paragraph ++ o.lists.elements o.ordered

def linesBefore (more : List (List Char)) : List Phrase → List (List Char)
  | [] => more
  | t :: ts =>
    if ts.isEmpty && more.isEmpty then [t.text] else t.text :: [] :: linesBefore more ts

def lines (o : Outline) : List (List Char) :=
  linesBefore (o.lists.lines 0 o.ordered) o.paragraphs

def text (o : Outline) : List Char := if o.lines.isEmpty then ['\n'] else feedLines o.lines

end Outline

/-! ## The text of a document -/

theorem isPlain_of_isDigit {c : Char} (h : c.isDigit = true) : isPlain c = true := by
  simp [isPlain, Char.isAlphanum, h]

theorem mem_next (f : ListFrame) : ∀ c ∈ f.next.1, isPlain c = true ∨ c = '-' ∨ c = '.' := by
  rw [ListFrame.next]
  split
  · have hdigits : ∀ c ∈ Nat.toDigits 10 (f.count + 1), isPlain c = true ∨ c = '-' ∨ c = '.' :=
      fun c hc => .inl (isPlain_of_isDigit (Nat.isDigit_of_mem_toDigits (by decide) (by decide) hc))
    exact List.forall_mem_append.2 ⟨hdigits, by simp⟩
  · simp

theorem next_ne_nil (f : ListFrame) : f.next.1 ≠ [] := by
  rw [ListFrame.next]
  split <;> simp

theorem itemLine_last (depth : Nat) (f : ListFrame) (t : Phrase) :
    itemLine depth f t ≠ [] ∧ Stops isBlank (itemLine depth f t).reverse := by
  have hne : t.text.reverse ≠ [] := List.reverse_ne_nil_iff.2 t.isPhrase.ne_nil
  have hlast := t.isPhrase.stops_reverse isPlain_of_isBlank
  refine ⟨by simp [itemLine], ?_⟩
  rw [itemLine, List.reverse_append, List.reverse_append, List.reverse_cons, List.append_assoc,
    List.append_assoc]
  exact hlast.append hne _

theorem itemLine_first (f : ListFrame) (t : Phrase) : Stops isBlank (itemLine 0 f t) := by
  obtain ⟨c, r, hcr⟩ := List.exists_cons_of_ne_nil (next_ne_nil f)
  have hblank : isBlank c = false := by
    rcases mem_next f c (by simp [hcr]) with hc | rfl | rfl
    · exact Bool.eq_false_iff.2 fun hb => ne_of_isPlain hc (isPlain_of_isBlank c hb) rfl
    · decide
    · decide
  simpa [itemLine, hcr] using hblank

mutual

theorem mem_entries_lines : ∀ (items : Entries) (depth : Nat) (f : ListFrame),
    ∀ l ∈ items.lines depth f, ∃ d f' t, l = itemLine d f' t
  | .last t ordered below, depth, f =>
    List.forall_mem_cons.2 ⟨⟨depth, f, t, rfl⟩, mem_lists_lines below (depth + 1) ordered⟩
  | .more t ordered below others, depth, f =>
    List.forall_mem_cons.2 ⟨⟨depth, f, t, rfl⟩, List.forall_mem_append.2
      ⟨mem_lists_lines below (depth + 1) ordered, mem_entries_lines others depth f.next.2⟩⟩

theorem mem_lists_lines : ∀ (lists : Lists) (depth : Nat) (ordered : Bool),
    ∀ l ∈ lists.lines depth ordered, ∃ d f t, l = itemLine d f t
  | .none, _, _ => nofun
  | .list items others, depth, ordered => List.forall_mem_append.2
    ⟨mem_entries_lines items depth ⟨ordered, 0⟩, mem_lists_lines others depth !ordered⟩

end

theorem entries_lines_cons (items : Entries) (depth : Nat) (f : ListFrame) :
    ∃ t more, items.lines depth f = itemLine depth f t :: more := by
  cases items <;> exact ⟨_, _, rfl⟩

theorem lists_lines_eq_nil {lists : Lists} {depth : Nat} {ordered : Bool} :
    lists.lines depth ordered = [] ↔ lists = .none := by
  cases lists with
  | none => simp [Lists.lines]
  | list items others =>
    obtain ⟨t, more, hcons⟩ := entries_lines_cons items depth ⟨ordered, 0⟩
    simp [Lists.lines, hcons]

/-- Lines that end with text are a text that does, and a line feed. -/
theorem exists_feedLines {l : List Char} {ls : List (List Char)}
    (h : ∀ m ∈ l :: ls, m ≠ [] ∧ Stops isBlank m.reverse) :
    ∃ s, feedLines (l :: ls) = (l ++ s) ++ ['\n'] ∧ Stops isBlank (l ++ s).reverse := by
  induction ls generalizing l with
  | nil => exact ⟨[], by simp [feedLines], by simpa using (h l List.mem_cons_self).2⟩
  | cons m ls ih =>
    obtain ⟨⟨hne, -⟩, hmore⟩ := List.forall_mem_cons.1 h
    obtain ⟨s, hs, hstops⟩ := ih hmore
    refine ⟨'\n' :: (m ++ s), ?_, ?_⟩
    · have hfirst : feedLines (l :: m :: ls) = l ++ ['\n'] ++ feedLines (m :: ls) := rfl
      rw [hfirst, hs]
      simp
    · rw [List.reverse_append, List.reverse_cons, List.append_assoc]
      refine hstops.append ?_ _
      simp [(List.forall_mem_cons.1 hmore).1.1]

theorem outline_lines_eq_nil (o : Outline) :
    o.lines = [] ↔ o.paragraphs = [] ∧ o.lists = .none := by
  obtain ⟨ts, ordered, lists⟩ := o
  cases ts with
  | nil => exact lists_lines_eq_nil.trans (by simp)
  | cons t ts =>
    rw [Outline.lines, Outline.linesBefore]
    split <;> simp

open Compilation in
/-- The lines of a document are a text without white space at its edges, and a line feed. -/
theorem exists_outline_text (o : Outline) (hne : o.lines ≠ []) :
    ∃ s, IsTrimmed s ∧ feedLines o.lines = s ++ ['\n'] := by
  obtain ⟨ts, ordered, lists⟩ := o
  have htrimmed : ∀ t : Phrase, IsTrimmed t.text := fun t =>
    ⟨t.isPhrase.ne_nil, t.isPhrase.stops isPlain_of_isBlank,
      t.isPhrase.stops_reverse isPlain_of_isBlank⟩
  induction ts with
  | nil =>
    have hlines : Outline.lines ⟨[], ordered, lists⟩ = lists.lines 0 ordered := rfl
    cases lists with
    | none => exact absurd rfl hne
    | list items others =>
      obtain ⟨t, more, hcons⟩ := entries_lines_cons items 0 ⟨ordered, 0⟩
      have hall := mem_lists_lines (.list items others) 0 ordered
      rw [Lists.lines, hcons, List.cons_append] at hall hlines
      obtain ⟨s, hs, hstops⟩ := exists_feedLines fun l hl => by
        obtain ⟨d, f, t, rfl⟩ := hall l hl
        exact itemLine_last d f t
      refine ⟨_, ⟨?_, ?_, hstops⟩, hlines ▸ hs⟩
      · simp [itemLine]
      · exact (itemLine_first _ t).append (itemLine_last 0 _ t).1 s
  | cons t ts ih =>
    by_cases hlast : (ts.isEmpty && (lists.lines 0 ordered).isEmpty) = true
    · refine ⟨t.text, htrimmed t, ?_⟩
      rw [Outline.lines, Outline.linesBefore, if_pos hlast]
      simp [feedLines]
    · have hlines : Outline.lines ⟨t :: ts, ordered, lists⟩ =
          t.text :: [] :: Outline.lines ⟨ts, ordered, lists⟩ := if_neg hlast
      have hne' : Outline.lines ⟨ts, ordered, lists⟩ ≠ [] := fun h => hlast (by
        obtain ⟨rfl, rfl⟩ := (outline_lines_eq_nil _).1 h
        rfl)
      obtain ⟨s, hs, htext⟩ := ih hne'
      refine ⟨_, (htrimmed t).append hs ['\n', '\n'], ?_⟩
      rw [hlines]
      simp only [feedLines, List.flatMap_cons] at htext ⊢
      simp [htext]

theorem printAll_outline (o : Outline) : ∃ blank, isBlankText blank = true ∧
    (printAll [] [] o.elements).1 = feedLines o.lines ++ blank := by
  obtain ⟨ts, ordered, lists⟩ := o
  induction ts with
  | nil =>
    refine ⟨[], rfl, ?_⟩
    rw [List.append_nil]
    exact congrArg Prod.fst (printAll_lists [] lists ordered [])
  | cons t ts ih =>
    obtain ⟨blank, hblank, hprinted⟩ := ih
    have hfirst := Compilation.print_paragraph t.isPhrase.strip_eq t.isPhrase.ne_nil []
    have hcons : (printAll [] [] (Outline.elements ⟨t :: ts, ordered, lists⟩)).1 =
        t.text ++ ['\n', '\n'] ++ (printAll [] [] (Outline.elements ⟨ts, ordered, lists⟩)).1 := by
      rw [Outline.elements, List.map_cons, List.cons_append, printAll, Phrase.paragraph,
        Phrase.element, hfirst]
      rfl
    rw [hcons, hprinted, Outline.lines, Outline.lines]
    dsimp only
    rw [Outline.linesBefore]
    split
    · next hlast =>
      rw [Bool.and_eq_true, List.isEmpty_iff, List.isEmpty_iff] at hlast
      obtain ⟨rfl, hnil⟩ := hlast
      refine ⟨['\n'] ++ blank, isBlankText_append.2 ⟨by decide, hblank⟩, ?_⟩
      simp [Outline.linesBefore, hnil, feedLines]
    · exact ⟨blank, hblank, by simp [feedLines]⟩

open Compilation in
theorem render_outline (o : Outline) : render (article o.elements) = String.ofList o.text := by
  obtain ⟨blank, hblank, hprinted⟩ := printAll_outline o
  have hprint : (print [] [] (article o.elements)).1 = (printAll [] [] o.elements).1 := rfl
  rw [render, hprint, hprinted, strip_append_of_right hblank, Outline.text]
  by_cases hne : o.lines = []
  · rw [hne]
    rfl
  · obtain ⟨s, hs, htext⟩ := exists_outline_text o hne
    rw [if_neg (by simpa using hne), htext, strip_append_of_right (by decide), strip,
      stripLeft_of_stops hs.first, stripRight_of_stops hs.last]

end Markdown

end DocPress
