import DocPress.Element.Printer

/-!
# The items that printing visits

Printing is told again with a record of its visits: whenever an item takes a marker
from the innermost open list, the marker is written down beside the place of the item,
which is the number of items before it in document order. Without the record the
traced printer is the printer.
-/

set_option autoImplicit false

namespace DocPress.Element

open Text

/-- The marker that a visited item took, and its place among all items. -/
abbrev Visit := List Char × Nat

mutual

def items : Element → List Element
  | .value _ => []
  | .sequence es => itemsAll es
  | .named name attributes children =>
    if name = "li" then .named name attributes children :: itemsAll children
    else itemsAll children

def itemsAll : List Element → List Element
  | [] => []
  | e :: es => items e ++ itemsAll es

end

theorem itemsAll_append (es gs : List Element) :
    itemsAll (es ++ gs) = itemsAll es ++ itemsAll gs := by
  induction es with
  | nil => rfl
  | cons e es ih => rw [List.cons_append, itemsAll, itemsAll, ih, List.append_assoc]

mutual

/-- Printing with its visits, for an element that has a number of items before it. -/
def trace (indent : List Char) (frames : List ListFrame) (before : Nat) :
    Element → (List Char × List ListFrame) × List Visit
  | .value v => ((valueText v, frames), [])
  | .sequence items => traceAll indent frames before items
  | .named name attributes children =>
    match layout indent name attributes children with
    | .fixed s => ((s, frames), [])
    | .all inner finish =>
      let ((s, frames), visits) := traceAll inner frames before children
      ((finish s, frames), visits)
    | .each keep finish =>
      let ((ss, frames), visits) := traceEach keep indent frames before children
      ((finish ss, frames), visits)
    | .code =>
      match traceCode indent frames before children with
      | some ((language, body, frames), visits) => ((codeBlock language body, frames), visits)
      | none =>
        let ((body, frames), visits) := traceAll indent frames before children
        ((codeBlock [] body, frames), visits)
    | .list =>
      let ((s, _), visits) := traceAll indent (ListFrame.opened name :: frames) before children
      ((s, frames), visits)
    | .item =>
      let (marker, frames) := nextMarker frames
      let start := itemIndent frames ++ marker ++ [' ']
      if children.any isList then
        let ((ss, frames), visits) :=
          traceEach (fun c => !c.isList) indent frames (before + 1) children
        let ((nested, frames), later) := traceEach isList indent frames (before + 1) children
        ((start ++ strip ss.flatten ++ ['\n'] ++ nested.flatten, frames),
          (marker, before) :: (visits ++ later))
      else
        let ((s, frames), visits) := traceAll indent frames (before + 1) children
        ((start ++ joinLines (strip s) ++ ['\n'], frames), (marker, before) :: visits)

def traceEach (keep : Element → Bool) (indent : List Char) (frames : List ListFrame)
    (before : Nat) : List Element → (List (List Char) × List ListFrame) × List Visit
  | [] => (([], frames), [])
  | e :: es =>
    if keep e then
      let ((s, frames), visits) := trace indent frames before e
      let ((ss, frames), later) := traceEach keep indent frames (before + e.items.length) es
      ((s :: ss, frames), visits ++ later)
    else traceEach keep indent frames (before + e.items.length) es

def traceAll (indent : List Char) (frames : List ListFrame) (before : Nat) :
    List Element → (List Char × List ListFrame) × List Visit
  | [] => (([], frames), [])
  | e :: es =>
    let ((s, frames), visits) := trace indent frames before e
    let ((t, frames), later) := traceAll indent frames (before + e.items.length) es
    ((s ++ t, frames), visits ++ later)

def traceCode (indent : List Char) (frames : List ListFrame) (before : Nat) :
    List Element → Option ((List Char × List Char × List ListFrame) × List Visit)
  | [] => none
  | .named name attributes children :: es =>
    if name = "code" then
      let ((s, frames), visits) := traceAll indent frames before children
      some ((attributeText attributes "data-language", s, frames), visits)
    else traceCode indent frames (before + (items (.named name attributes children)).length) es
  | e :: es => traceCode indent frames (before + e.items.length) es

end

/-! ## The record aside, it is the printer -/

mutual

theorem trace_fst (indent : List Char) (frames : List ListFrame) (before : Nat) :
    ∀ e : Element, (trace indent frames before e).1 = print indent frames e
  | .value _ => rfl
  | .sequence items => traceAll_fst indent frames before items
  | .named name attributes children => by
    rw [trace, print]
    cases layout indent name attributes children with
    | fixed s => rfl
    | all inner finish =>
      dsimp only
      rw [← traceAll_fst inner frames before children]
    | each keep finish =>
      dsimp only
      rw [← traceEach_fst keep indent frames before children]
    | code =>
      dsimp only
      rw [← traceCode_fst indent frames before children,
        ← traceAll_fst indent frames before children]
      cases traceCode indent frames before children <;> rfl
    | list =>
      dsimp only
      rw [← traceAll_fst indent _ before children]
    | item =>
      obtain ⟨marker, frames⟩ := nextMarker frames
      dsimp only
      split
      · have hnested := fun frames => traceEach_fst isList indent frames (before + 1) children
        rw [← traceEach_fst (fun c => !c.isList) indent frames (before + 1) children]
        simp only [← hnested]
      · rw [← traceAll_fst indent frames (before + 1) children]

theorem traceEach_fst (keep : Element → Bool) (indent : List Char) (frames : List ListFrame)
    (before : Nat) :
    ∀ es : List Element,
      (traceEach keep indent frames before es).1 = printEach keep indent frames es
  | [] => rfl
  | e :: es => by
    rw [traceEach, printEach]
    split
    · have hes := fun frames => traceEach_fst keep indent frames (before + e.items.length) es
      simp only [← trace_fst indent frames before e, ← hes]
    · exact traceEach_fst keep indent frames _ es

theorem traceAll_fst (indent : List Char) (frames : List ListFrame) (before : Nat) :
    ∀ es : List Element, (traceAll indent frames before es).1 = printAll indent frames es
  | [] => rfl
  | e :: es => by
    have hes := fun frames => traceAll_fst indent frames (before + e.items.length) es
    simp only [traceAll, printAll, ← trace_fst indent frames before e, ← hes]

theorem traceCode_fst (indent : List Char) (frames : List ListFrame) (before : Nat) :
    ∀ es : List Element,
      (traceCode indent frames before es).map Prod.fst = printCode indent frames es
  | [] => rfl
  | .value _ :: es => traceCode_fst indent frames _ es
  | .sequence _ :: es => traceCode_fst indent frames _ es
  | .named name attributes children :: es => by
    rw [traceCode, printCode]
    split
    · rw [← traceAll_fst indent frames before children]
      rfl
    · exact traceCode_fst indent frames _ es

end

end DocPress.Element
