import DocPress.Markdown.Line

/-!
# How a line starts

The marks by which a line opens a block: the hashes of a heading, the
hyphens, asterisks or underscores of a rule, the marks of a fence, the
bullet or number of a list item, and the bracket of a quotation. All of them
are read off the text of the line after its indent.
-/

set_option autoImplicit false

namespace DocPress.Markdown

open Text

def endsWord (s : List Char) : Bool :=
  match s with
  | [] => true
  | c :: _ => isSpaceOrTab c

def trimRight (s : List Char) : List Char := (s.reverse.dropWhile isSpaceOrTab).reverse

/-! ## Headings and rules -/

def headingText (s : List Char) : List Char :=
  let trimmed := trimRight s
  let body := (trimmed.reverse.dropWhile (· == '#')).reverse
  trim (if (body.getLast?.map isSpaceOrTab).getD false then body else trimmed)

def heading? (body : List Char) : Option (Nat × List Char) :=
  let level := (body.takeWhile (· == '#')).length
  let rest := body.dropWhile (· == '#')
  if 1 ≤ level ∧ level ≤ 6 ∧ endsWord rest then some (level, headingText rest) else none

/-- Three or more of one mark, with spaces between them as one likes. -/
def isRule (body : List Char) : Bool :=
  match body with
  | [] => false
  | c :: _ =>
    (c == '*' || c == '-' || c == '_') && body.all (fun d => d == c || isSpaceOrTab d) &&
      3 ≤ body.count c

def underline? (body : List Char) : Option Nat :=
  match body with
  | [] => none
  | c :: _ =>
    if (c == '=' || c == '-') && (body.dropWhile (· == c)).all isSpaceOrTab then
      some (if c == '=' then 1 else 2)
    else none

/-! ## Fences -/

structure Fence where
  mark : Char
  length : Nat
  info : List Char
  deriving Repr, DecidableEq

def fence? (body : List Char) : Option Fence :=
  match body with
  | [] => none
  | c :: _ =>
    let length := (body.takeWhile (· == c)).length
    let info := body.dropWhile (· == c)
    if (c == '~' || c == '\x60') && 3 ≤ length && !(c == '\x60' && info.contains c) then
      some ⟨c, length, info⟩
    else none

def Fence.closedBy (f : Fence) (body : List Char) : Bool :=
  body.head? == some f.mark && f.length ≤ (body.takeWhile (· == f.mark)).length &&
    (body.dropWhile (· == f.mark)).all isSpaceOrTab

/-! ## List items -/

/-- The mark of a list item: its number, if it has one, its last character,
its text, and what follows it. -/
structure ListMark where
  number : Option Nat
  mark : Char
  text : List Char
  rest : List Char
  deriving Repr, DecidableEq

def numberOf (ds : List Char) : Nat := ds.foldl (fun n c => 10 * n + (c.toNat - 0x30)) 0

def maxListDigits : Nat := 9

def listMark? (body : List Char) : Option ListMark :=
  match body with
  | [] => none
  | c :: r =>
    if c == '*' || c == '-' || c == '+' then
      if endsWord r then some ⟨none, c, [c], r⟩ else none
    else
      let digits := body.takeWhile Char.isDigit
      match body.dropWhile Char.isDigit with
      | [] => none
      | m :: rest =>
        if (m == ')' || m == '.') && 1 ≤ digits.length && digits.length ≤ maxListDigits &&
            endsWord rest then
          some ⟨some (numberOf digits), m, digits ++ [m], rest⟩
        else none

def ListMark.joins (a b : ListMark) : Bool :=
  a.number.isSome == b.number.isSome && a.mark == b.mark

/-- A list may end a paragraph when its first item has text and, if numbered, the number one. -/
def ListMark.endsParagraph (m : ListMark) : Bool :=
  m.number.getD 1 == 1 && !m.rest.all isSpaceOrTab

end DocPress.Markdown
