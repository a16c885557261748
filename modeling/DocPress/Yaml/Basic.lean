/-!
# Reading YAML from front to back

A cursor keeps what is left of a text with its line, its column and its
distance from the start. The faults are those of a text that is no document
of the language, and those of a value that is written well and does not
exist, such as the thirteenth month.
-/

set_option autoImplicit false

namespace DocPress.Yaml

inductive Fault where
  | unprintable
  | noToken
  | unclosedText
  | badEscape
  | badHeader
  | badDirective
  | badName
  | badTag
  | lostKey
  | misplaced
  | unexpectedToken
  | severalDocuments
  | undefinedHandle
  | undefinedAlias
  | unknownTag
  | wrongContent
  | duplicateKey
  | mappingAsKey
  | notMergeable
  | impossibleValue
  deriving Repr, DecidableEq

/-! ## Characters -/

/-- The ends of lines that content cannot hold. -/
def isLineEnd (c : Char) : Bool := c == '\n' || c == '\x85'

/-- All ends of lines; two of them also occur inside content. -/
def isBreak (c : Char) : Bool := isLineEnd c || c == '\u2028' || c == '\u2029'

def isGap (c : Char) : Bool := c == ' ' || c == '\t'

def endsWord : List Char → Bool
  | [] => true
  | c :: _ => isGap c || isLineEnd c

def endsProperty : List Char → Bool
  | [] => true
  | c :: _ => c == ' ' || isBreak c

def endsLine : List Char → Bool
  | [] => true
  | c :: _ => isLineEnd c

def startsMarker : List Char → Bool
  | '-' :: '-' :: '-' :: r => endsWord r
  | '.' :: '.' :: '.' :: r => endsWord r
  | _ => false

def isPrintable (c : Char) : Bool :=
  let n := c.toNat
  n == 0x9 || n == 0xA || (0x20 ≤ n && n ≤ 0x7E) || n == 0x85 || (0xA0 ≤ n && n ≤ 0xFFFD) ||
    0x10000 ≤ n

/-! ## Cursors -/

structure Cursor where
  rest : List Char
  line : Nat
  column : Nat
  index : Nat
  deriving Repr

namespace Cursor

def ofText (s : List Char) : Cursor := ⟨s, 0, 0, 0⟩

def next (c : Cursor) : Cursor :=
  match c.rest with
  | [] => c
  | x :: r =>
    if isBreak x then ⟨r, c.line + 1, 0, c.index + 1⟩
    else ⟨r, c.line, if x = '\ufeff' then c.column else c.column + 1, c.index + 1⟩

def skip : Nat → Cursor → Cursor
  | 0, c => c
  | n + 1, c => skip n c.next

def peek? (c : Cursor) : Option Char := c.rest.head?

def isAtEnd (c : Cursor) : Bool := c.rest.isEmpty

def sees (p : Char → Bool) (c : Cursor) : Bool := c.rest.head?.any p

def takeWhile (p : Char → Bool) (c : Cursor) : List Char × Cursor :=
  let taken := c.rest.takeWhile p
  (taken, c.skip taken.length)

def dropWhile (p : Char → Bool) (c : Cursor) : Cursor := (c.takeWhile p).2

/-- Over the end of a line, if there is one. A line feed stands for every end
of a line that content cannot hold. -/
def takeBreak (c : Cursor) : List Char × Cursor :=
  match c.rest with
  | x :: _ => if isLineEnd x then (['\n'], c.next) else if isBreak x then ([x], c.next) else ([], c)
  | [] => ([], c)

def dropComment (c : Cursor) : Cursor :=
  if c.peek? = some '#' then c.dropWhile fun x => !isLineEnd x else c

end Cursor

end DocPress.Yaml
