import DocPress.Element
import DocPress.Text.Blank

/-!
# Printing a render tree as Markdown

The name of an element gives its layout. Printing carries the indent of
paragraphs and the stack of open lists, innermost first. An ordered list
counts its items in its own frame, which is opened with the list and dropped
at its end, so that no number leaks into another list.
-/

set_option autoImplicit false

namespace DocPress.Element

open Text

/-- One open list: whether its items are numbered, and the last number given. -/
structure ListFrame where
  numbered : Bool
  count : Nat
  deriving Repr, DecidableEq

def ListFrame.opened (name : String) : ListFrame := ⟨name == "ol", 0⟩

def ListFrame.next (f : ListFrame) : List Char × ListFrame :=
  if f.numbered then
    (Nat.toDigits 10 (f.count + 1) ++ ['.'], { f with count := f.count + 1 })
  else (['-'], f)

def nextMarker : List ListFrame → List Char × List ListFrame
  | [] => (['-'], [])
  | f :: fs => (f.next.1, f.next.2 :: fs)

/-- How far the items of a nested list stand in for each list around it. -/
def listIndent : List Char := [' ', ' ', ' ']

def itemIndent (frames : List ListFrame) : List Char :=
  (List.replicate (frames.length - 1) listIndent).flatten

def joinLines : List Char → List Char
  | [] => []
  | '\n' :: '\n' :: r => joinLines ('\n' :: r)
  | '\n' :: r => ' ' :: joinLines r
  | c :: r => c :: joinLines r

def splitLines : List Char → List (List Char)
  | [] => [[]]
  | c :: r =>
    if c = '\n' then [] :: splitLines r
    else
      match splitLines r with
      | [] => [[c]]
      | l :: ls => (c :: l) :: ls

/-- Every line after a quotation mark; a blank line is the mark alone. -/
def quoteLines (s : List Char) : List Char :=
  ['\n'].intercalate
    ((splitLines s).map fun l => if isBlankText l then ['>'] else ['>', ' '] ++ l)

def valueText : Value → List Char
  | .null | .mapping _ | .date _ => []
  | .bool b => (if b then "true" else "false").toList
  | .int n => (Value.intText n).toList
  | .float x => x.text
  | .string s => s.toList
  | .illFormed codes => codes.map Text.charOfCode
  | .list vs => textOfList vs
where
  textOfList : List Value → List Char
    | [] => []
    | v :: vs => valueText v ++ textOfList vs

def attributeText (attributes : Attributes) (key : String) : List Char :=
  let v := Attributes.get attributes key
  if v.isTruthy then v.display.toList else []

def titleSuffix (attributes : Attributes) : List Char :=
  let v := Attributes.get attributes "title"
  if v.isTruthy then [' ', '"'] ++ v.display.toList ++ ['"'] else []

def isBlankElement : Element → Bool
  | .value .null => true
  | .value (.string s) => isBlankText s.toList
  | _ => false

/-- A paragraph that holds nothing but items and lists is no paragraph of text. -/
def isItemParagraph (children : List Element) : Bool :=
  let items := children.filter fun c => !isBlankElement c
  items.any (·.isNamed ["li"]) && items.all (·.isNamed ["li", "ol", "ul"])

def fenceMark : List Char := ['\x60', '\x60', '\x60']

def codeBlock (language body : List Char) : List Char :=
  let tail := if !body.isEmpty && body.getLast? != some '\n' then ['\n'] else []
  fenceMark ++ language ++ ['\n'] ++ body ++ tail ++ fenceMark ++ ['\n', '\n']

/-- A table row; a row with a header cell is followed by the line that separates it. -/
def rowText (cells : List (List Char)) (hasHeader : Bool) : List Char :=
  let line (texts : List (List Char)) : List Char :=
    ['|', ' '] ++ [' ', '|', ' '].intercalate texts ++ [' ', '|', '\n']
  line cells ++ (if hasHeader then line (cells.map fun _ => ['-', '-', '-']) else [])

def headingLevel? : String → Option Nat
  | "h1" => some 1
  | "h2" => some 2
  | "h3" => some 3
  | "h4" => some 4
  | "h5" => some 5
  | "h6" => some 6
  | _ => none

def inlineMark? : String → Option (List Char)
  | "strong" => some ['*', '*']
  | "em" => some ['*']
  | "s" => some ['~', '~']
  | "code" => some ['\x60']
  | _ => none

def isElement : Element → Bool
  | .named .. => true
  | _ => false

inductive Layout where
  /-- A text that no child has a part in. -/
  | fixed (s : List Char)
  /-- All children at an indent, and what becomes of their text. -/
  | all (indent : List Char) (finish : List Char → List Char)
  /-- The children that are kept, and what becomes of their texts. -/
  | each (keep : Element → Bool) (finish : List (List Char) → List Char)
  | code
  | list
  | item

/-- The layout of an element; an element that is not known is the text of its children. -/
def layout (indent : List Char) (name : String) (attributes : Attributes)
    (children : List Element) : Layout :=
  match headingLevel? name with
  | some level => .all indent fun s => List.replicate level '#' ++ [' '] ++ s ++ ['\n', '\n']
  | none =>
  match inlineMark? name with
  | some mark => .all indent fun s => mark ++ s ++ mark
  | none =>
  match name with
  | "p" =>
    if isItemParagraph children then
      .each (fun c => !isBlankElement c) fun ss => ss.flatten ++ ['\n']
    else
      .all indent fun s =>
        let s := strip s
        if s.isEmpty then [] else indent ++ s ++ ['\n', '\n']
  | "pre" => .code
  | "blockquote" => .all ['>', ' '] fun s => quoteLines s ++ ['\n', '\n']
  | "hr" => .fixed ['-', '-', '-', '\n', '\n']
  | "br" => .fixed [' ', ' ', '\n']
  | "ol" | "ul" => .list
  | "li" => .item
  | "table" => .all indent fun s => s ++ ['\n']
  | "tr" => .each isElement fun cells => rowText cells (children.any (·.isNamed ["th"]))
  | "th" | "td" => .all indent strip
  | "a" =>
    .all indent fun s =>
      ['['] ++ s ++ [']', '('] ++ attributeText attributes "href" ++ titleSuffix attributes ++ [')']
  | "img" =>
    .fixed (['!', '['] ++ attributeText attributes "alt" ++ [']', '('] ++
      attributeText attributes "src" ++ titleSuffix attributes ++ [')'])
  | _ => .all indent id

mutual

/-- The text of an element and the open lists after it. -/
def print (indent : List Char) (frames : List ListFrame) : Element → List Char × List ListFrame
  | .value v => (valueText v, frames)
  | .sequence items => printAll indent frames items
  | .named name attributes children =>
    match layout indent name attributes children with
    | .fixed s => (s, frames)
    | .all inner finish =>
      let (s, frames) := printAll inner frames children
      (finish s, frames)
    | .each keep finish =>
      let (ss, frames) := printEach keep indent frames children
      (finish ss, frames)
    | .code =>
      match printCode indent frames children with
      | some (language, body, frames) => (codeBlock language body, frames)
      | none =>
        let (body, frames) := printAll indent frames children
        (codeBlock [] body, frames)
    | .list =>
      let (s, _) := printAll indent (ListFrame.opened name :: frames) children
      (s, frames)
    | .item =>
      let (marker, frames) := nextMarker frames
      let start := itemIndent frames ++ marker ++ [' ']
      if children.any isList then
        let (ss, frames) := printEach (fun c => !c.isList) indent frames children
        let (nested, frames) := printEach isList indent frames children
        (start ++ strip ss.flatten ++ ['\n'] ++ nested.flatten, frames)
      else
        let (s, frames) := printAll indent frames children
        (start ++ joinLines (strip s) ++ ['\n'], frames)

def printEach (keep : Element → Bool) (indent : List Char) (frames : List ListFrame) :
    List Element → List (List Char) × List ListFrame
  | [] => ([], frames)
  | e :: es =>
    if keep e then
      let (s, frames) := print indent frames e
      let (ss, frames) := printEach keep indent frames es
      (s :: ss, frames)
    else printEach keep indent frames es

def printAll (indent : List Char) (frames : List ListFrame) :
    List Element → List Char × List ListFrame
  | [] => ([], frames)
  | e :: es =>
    let (s, frames) := print indent frames e
    let (t, frames) := printAll indent frames es
    (s ++ t, frames)

def printCode (indent : List Char) (frames : List ListFrame) :
    List Element → Option (List Char × List Char × List ListFrame)
  | [] => none
  | .named name attributes children :: es =>
    if name = "code" then
      let (s, frames) := printAll indent frames children
      some (attributeText attributes "data-language", s, frames)
    else printCode indent frames es
  | _ :: es => printCode indent frames es

end

def render (e : Element) : String := String.ofList (strip (print [] [] e).1 ++ ['\n'])

end DocPress.Element
