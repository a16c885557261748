import DocPress.Markdown.Start

/-!
# Table rows

A table starts with a row of cells and a row of dashes with as many columns.
Cells are divided by bars; a backslash before a bar makes it text.
-/

set_option autoImplicit false

namespace DocPress.Markdown.Table

open Text

abbrev Row := List (List Char)

/-- The cells of a text; `cell` is what is read of the current one, reversed. -/
def splitFrom : List Char → List Char → Row
  | cell, [] => [cell.reverse]
  | '\\' :: cell, '|' :: r => splitFrom ('|' :: cell) r
  | cell, '|' :: r => cell.reverse :: splitFrom [] r
  | cell, c :: r => splitFrom (c :: cell) r

/-- The cells of a line; empty ones at its ends stand for the outer bars. -/
def cells (line : List Char) : Row :=
  let row := splitFrom [] (strip line)
  let row := if row.head? == some [] then row.drop 1 else row
  if row.getLast? == some [] then row.dropLast else row

def splitBars : List Char → Row
  | [] => [[]]
  | c :: r =>
    if c = '|' then [] :: splitBars r
    else
      match splitBars r with
      | [] => [[c]]
      | cell :: more => (c :: cell) :: more

def isColumnMark (cell : List Char) : Bool :=
  let inner := match cell with
    | ':' :: r => r
    | _ => cell
  match inner.dropWhile (· == '-') with
  | [] => inner.head? == some '-'
  | [':'] => inner.head? == some '-'
  | _ => false

def isMarkChar (c : Char) : Bool := c == '|' || c == '-' || c == ':'

/-- A row of dashes can be told by its characters; its first two keep it apart from a list item. -/
def looksLikeMarks (body : List Char) : Bool :=
  match body with
  | a :: b :: r =>
    isMarkChar a && (isMarkChar b || isSpaceOrTab b) && !(a == '-' && isSpaceOrTab b) &&
      r.all fun c => isMarkChar c || isSpaceOrTab c
  | _ => false

/-- The number of columns of a row of dashes; only the outermost cells may be empty. -/
def columns? (body : List Char) : Option Nat :=
  if looksLikeMarks body then
    let row := (splitBars body).map strip
    let inner := (if row.head? == some [] then row.drop 1 else row)
    let inner := (if inner.getLast? == some [] then inner.dropLast else inner)
    if inner.all isColumnMark then some inner.length else none
  else none

def header? (first second : List Char) : Option Row :=
  match columns? second with
  | none => none
  | some n =>
    if first.contains '|' then
      let row := cells first
      if row.length = n ∧ n ≠ 0 then some (row.map strip) else none
    else none

def fit (n : Nat) (row : Row) : Row :=
  ((row.map strip) ++ List.replicate (n - row.length) []).take n

/-- How many cells may be missing in all rows of a table together. -/
def maxMissing : Int := 65536

end DocPress.Markdown.Table
