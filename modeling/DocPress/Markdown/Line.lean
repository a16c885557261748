import DocPress.Text.Newline
import DocPress.Text.Blank

/-!
# Lines

Markdown is read line by line. A line is split into what stands before its
content, markers of enclosing blocks included, and its content; its indent
is counted in columns with tab stops every four. Inside a quotation the tab
stops are counted from the column where the quoted part starts. A negative
indent marks a line that can only continue a paragraph.
-/

set_option autoImplicit false

namespace DocPress.Markdown

open Text

structure Line where
  lead : List Char
  body : List Char
  indent : Int
  base : Nat
  /-- Whether a line feed follows. -/
  ended : Bool
  deriving Repr, DecidableEq, Inhabited

def columnAfter (base : Nat) (column : Int) (c : Char) : Int :=
  if c = '\t' then column + (4 - (column + base) % 4) else column + 1

def columnAfterAll (base : Nat) (column : Int) (s : List Char) : Int :=
  s.foldl (columnAfter base) column

namespace Line

def ofText (s : List Char) (ended : Bool) : Line :=
  let lead := s.takeWhile isSpaceOrTab
  ⟨lead, s.dropWhile isSpaceOrTab, columnAfterAll 0 0 lead, 0, ended⟩

/-- The lines of a source. What follows the last line feed is a line when it
holds more than spaces and tabs. -/
def ofSource : List Char → List Char → List Line
  | read, [] => if read.all isSpaceOrTab then [] else [ofText read.reverse false]
  | read, c :: r =>
    if c = '\n' then ofText read.reverse true :: ofSource [] r else ofSource (c :: read) r

def lines (source : List Char) : List Line := ofSource [] source

def isEmpty (l : Line) : Bool := l.body.isEmpty

/-- Cut columns off the start of a line; `marked` characters count whatever they are. -/
def cutFrom (base : Nat) (limit : Int) : Nat → Int → List Char → List Char
  | _, column, [] => List.replicate (column - limit).toNat ' '
  | marked, column, c :: r =>
    if limit ≤ column then List.replicate (column - limit).toNat ' ' ++ c :: r
    else if isSpaceOrTab c then cutFrom base limit (marked - 1) (columnAfter base column c) r
    else if 0 < marked then cutFrom base limit (marked - 1) (column + 1) r
    else c :: r

/-- The text of a line without its first columns; a tab cut in two leaves spaces. -/
def cut (limit : Int) (l : Line) : List Char :=
  cutFrom l.base limit l.lead.length 0 (l.lead ++ l.body)

def textOf (limit : Int) (keepLastFeed : Bool) : List Line → List Char
  | [] => []
  | [l] => l.cut limit ++ (if keepLastFeed && l.ended then ['\n'] else [])
  | l :: ls => l.cut limit ++ (if l.ended then ['\n'] else []) ++ textOf limit keepLastFeed ls

end Line

/-- Spaces, tabs and line ends; other white space belongs to the text it stands in. -/
def isEdge (c : Char) : Bool := isSpaceOrTab c || c == '\n' || c == '\r'

def trim (s : List Char) : List Char :=
  ((s.dropWhile isEdge).reverse.dropWhile isEdge).reverse

def Line.paragraphText (limit : Int) (ls : List Line) : List Char := trim (textOf limit false ls)

end DocPress.Markdown
