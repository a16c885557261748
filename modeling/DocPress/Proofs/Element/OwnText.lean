import DocPress.Compilation
import DocPress.Proofs.Element.Nesting
import DocPress.Proofs.Markdown.Lines

/-!
# The text of an item beside its lists

An item is its marker, what its children other than lists are printed as, and the lists
below. Without lists the text is made one line, whatever it was. With lists it is trimmed
only: then it takes as many lines as it has, and the lists stand below the last of them.
-/

set_option autoImplicit false

namespace DocPress.Element

open Text

/-! ## Lines -/

theorem feed_not_mem_joinLines (s : List Char) : '\n' ∉ joinLines s := by
  fun_induction joinLines s with
  | case1 => simp
  | case2 r ih => exact ih
  | case3 r _ ih => simpa using ih
  | case4 c r _ hc ih =>
    simp only [List.mem_cons, not_or]
    exact ⟨fun h => hc h.symm, ih⟩

theorem length_splitLines (s : List Char) : (splitLines s).length = s.count '\n' + 1 := by
  induction s with
  | nil => rfl
  | cons c s ih =>
    by_cases hc : c = '\n'
    · rw [splitLines, if_pos hc, List.length_cons, ih, hc, List.count_cons_self]
    · obtain ⟨l, ls, hl⟩ := List.exists_cons_of_ne_nil (splitLines_ne_nil s)
      rw [hl] at ih
      rw [splitLines_cons_of_ne hc hl, List.count_cons_of_ne hc, ← ih]
      rfl

theorem feed_not_mem_nextMarker (frames : List ListFrame) : '\n' ∉ (nextMarker frames).1 := by
  have hdigits : ∀ n, '\n' ∉ Nat.toDigits 10 n := fun n h =>
    absurd (Nat.isDigit_of_mem_toDigits (by decide) (by decide) h) (by decide)
  cases frames with
  | nil => simp [nextMarker]
  | cons f frames =>
    rw [nextMarker, ListFrame.next]
    split
    · simp [hdigits]
    · simp

/-! ## The parts of an item -/

def itemLead (frames : List ListFrame) : List Char :=
  itemIndent frames ++ (nextMarker frames).1 ++ [' ']

/-- What the children of an item other than its lists are printed as, trimmed. -/
def besideLists (indent : List Char) (frames : List ListFrame) (children : List Element) :
    List Char :=
  strip (printEach (fun c => !c.isList) indent (nextMarker frames).2 children).1.flatten

def listsText (indent : List Char) (frames : List ListFrame) (children : List Element) :
    List Char :=
  (printEach isList indent
    (printEach (fun c => !c.isList) indent (nextMarker frames).2 children).2 children).1.flatten

/-- The text of an item between its marker and its lists. -/
def ownText (indent : List Char) (frames : List ListFrame) (children : List Element) :
    List Char :=
  if children.any isList then besideLists indent frames children
  else joinLines (besideLists indent frames children)

variable {indent : List Char} {frames : List ListFrame} {children : List Element}

theorem itemIndent_nextMarker (frames : List ListFrame) :
    itemIndent (nextMarker frames).2 = itemIndent frames := by
  rw [itemIndent, itemIndent, length_nextMarker]

theorem feed_not_mem_itemLead (frames : List ListFrame) : '\n' ∉ itemLead frames := by
  simp [itemLead, itemIndent_eq_replicate, feed_not_mem_nextMarker]

theorem printEach_congr {keep keep' : Element → Bool} {es : List Element}
    (h : ∀ e ∈ es, keep e = keep' e) (indent : List Char) (frames : List ListFrame) :
    printEach keep indent frames es = printEach keep' indent frames es := by
  induction es generalizing frames with
  | nil => rfl
  | cons e es ih =>
    rw [List.forall_mem_cons] at h
    simp only [printEach, h.1, ih h.2]

theorem printEach_eq_nil {keep : Element → Bool} {es : List Element}
    (h : ∀ e ∈ es, keep e = false) (indent : List Char) (frames : List ListFrame) :
    printEach keep indent frames es = ([], frames) := by
  induction es with
  | nil => rfl
  | cons e es ih =>
    rw [List.forall_mem_cons] at h
    rw [printEach, if_neg (by simp [h.1]), ih h.2]

theorem listsText_of_no_lists (h : children.any isList = false) :
    listsText indent frames children = [] := by
  rw [listsText, printEach_eq_nil (by simpa using h), List.flatten_nil]

theorem print_item_eq (indent : List Char) (frames : List ListFrame) (attributes : Attributes)
    (children : List Element) :
    (print indent frames (.named "li" attributes children)).1 =
      itemLead frames ++ ownText indent frames children ++
        '\n' :: listsText indent frames children := by
  cases hany : children.any isList with
  | true =>
    rw [print_item hany, Element.itemStart, itemIndent_nextMarker, ownText, if_pos hany]
    simp [itemLead, besideLists, listsText]
  | false =>
    have hl : layout indent "li" attributes children = .item := rfl
    have hall : printEach (fun c => !c.isList) indent (nextMarker frames).2 children =
        printEach (fun _ => true) indent (nextMarker frames).2 children :=
      printEach_congr (by simpa using hany) indent _
    rw [print, hl, ownText, listsText_of_no_lists hany, besideLists, hall]
    simp [hany, itemLead, itemIndent_nextMarker, printAll_eq_printEach]

theorem feed_mem_ownText : '\n' ∈ ownText indent frames children ↔
    children.any isList = true ∧ '\n' ∈ besideLists indent frames children := by
  rw [ownText]
  split
  · next h => simp [h]
  · next h => simp [h, feed_not_mem_joinLines]

/-- An item, printed wherever it stands, is the indent of its depth, its marker and a space, then
its own text, then a line feed and its lists. Its own text is what the other children are printed
as, trimmed; it holds a line feed exactly if the item has a list and the trimmed text has one. So
an item without lists is one line. With lists the own text takes one line more than it has line
feeds, and the lists start on the line behind the last of them. -/
theorem item_lines (indent : List Char) (frames : List ListFrame) (attributes : Attributes)
    (children : List Element) :
    let text := (print indent frames (.named "li" attributes children)).1
    let own := ownText indent frames children
    text = itemLead frames ++ own ++ '\n' :: listsText indent frames children ∧
    '\n' ∉ itemLead frames ∧
    ('\n' ∈ own ↔ children.any isList = true ∧ '\n' ∈ besideLists indent frames children) ∧
    (children.any isList = true → own = besideLists indent frames children) ∧
    (children.any isList = false → splitLines text = [itemLead frames ++ own, []]) ∧
    (splitLines (itemLead frames ++ own)).length = own.count '\n' + 1 ∧
    splitLines text =
      splitLines (itemLead frames ++ own) ++ splitLines (listsText indent frames children) := by
  intro text own
  have hlead := feed_not_mem_itemLead frames
  have htext : text = itemLead frames ++ own ++ '\n' :: listsText indent frames children :=
    print_item_eq indent frames attributes children
  have hlines : splitLines text =
      splitLines (itemLead frames ++ own) ++ splitLines (listsText indent frames children) := by
    rw [htext, splitLines_append]
  refine ⟨htext, hlead, feed_mem_ownText, fun h => if_pos h, fun h => ?_, ?_, hlines⟩
  · have hown : '\n' ∉ own := fun hmem => by simpa [h] using feed_mem_ownText.1 hmem
    rw [hlines, listsText_of_no_lists h, splitLines_of_no_feed (by simp [hlead, hown])]
    rfl
  · rw [length_splitLines, List.count_append, List.count_eq_zero.2 hlead, Nat.zero_add]

def twoParagraphs : List Element :=
  [.named "p" [] [.text "a"], .named "p" [] [.text "b"], .named "ul" [] [textItem "c"]]

theorem item_lines_of_paragraphs :
    twoParagraphs.any isList = true ∧ (twoParagraphs.take 2).any isList = false ∧
    (print [] [⟨true, 1⟩] (.named "li" [] twoParagraphs)).1 = "2. a\n\nb\n   - c\n".toList ∧
    (splitLines (itemLead [⟨true, 1⟩] ++ ownText [] [⟨true, 1⟩] twoParagraphs)).length = 3 ∧
    splitLines (print [] [⟨true, 1⟩] (.named "li" [] (twoParagraphs.take 2))).1 =
      ["2. a b".toList, []] := by
  obtain ⟨htext, -, -, hown, -, hlength, -⟩ := item_lines [] [⟨true, 1⟩] [] twoParagraphs
  obtain ⟨-, -, -, -, hline, -⟩ := item_lines [] [⟨true, 1⟩] [] (twoParagraphs.take 2)
  have hany : twoParagraphs.any isList = true := by decide
  have hnone : (twoParagraphs.take 2).any isList = false := by decide
  rw [hown hany] at htext hlength
  exact ⟨hany, hnone, htext.trans (by decide), hlength.trans (by decide),
    (hline hnone).trans (by decide)⟩

/-- The second paragraph of an item with a list stands on a line of its own, out of the item. -/
theorem not_text_on_marker_line :
    (¬∀ (indent : List Char) (frames : List ListFrame) (children : List Element),
      '\n' ∉ ownText indent frames children) ∧
    (compileText (.directory []) "- a\n\n  b\n\n  - c\n" ⟨.root, []⟩ none).result.toOption =
      some "- a\n\nb\n   - c\n" :=
  ⟨fun h => absurd (h [] [⟨false, 0⟩] twoParagraphs) (by decide), by decide +kernel⟩

end DocPress.Element
