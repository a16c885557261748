import DocPress.Yaml.Basic
import DocPress.Directive.StringLiteral

/-!
# Texts in YAML

A text is written plainly, between quotes, or as a block of lines below its
place. Except in a literal block, lines are folded: the end of a line counts
as a space, and an empty line as the end of one.
-/

set_option autoImplicit false

namespace DocPress.Yaml

/-- What the end of a line and the ends of empty lines after it stand for. -/
def foldBreaks (first more : List Char) : List Char :=
  if first != ['\n'] then first ++ more else if more.isEmpty then [' '] else more

/-! ## Quoted texts -/

def quotedBreaks : Nat → Cursor → Except Fault (List Char × Cursor)
  | 0, c => .ok ([], c)
  | fuel + 1, c =>
    if startsMarker c.rest then .error .unclosedText
    else
      match (c.dropWhile isGap).takeBreak with
      | ([], c) => .ok ([], c)
      | (b, c) => do
        let (bs, c) ← quotedBreaks fuel c
        pure (b ++ bs, c)

def quotedGap (c : Cursor) : Except Fault (List Char × Cursor) :=
  let (gap, after) := c.takeWhile isGap
  match after.takeBreak with
  | ([], after) => .ok (gap, after)
  | (b, after) => do
    let (bs, after) ← quotedBreaks after.rest.length.succ after
    pure (foldBreaks b bs, after)

def simpleEscape? : Char → Option Char
  | '0' => some '\x00'
  | 'a' => some '\x07'
  | 'b' => some '\x08'
  | 't' => some '\t'
  | '\t' => some '\t'
  | 'n' => some '\n'
  | 'v' => some '\x0b'
  | 'f' => some '\x0c'
  | 'r' => some '\r'
  | 'e' => some '\x1b'
  | ' ' => some ' '
  | '"' => some '"'
  | '/' => some '/'
  | '\\' => some '\\'
  | 'N' => some '\x85'
  | '_' => some '\xa0'
  | 'L' => some '\u2028'
  | 'P' => some '\u2029'
  | _ => none

def escapeLength? : Char → Option Nat
  | 'x' => some 2
  | 'u' => some 4
  | 'U' => some 8
  | _ => none

def hexNumber? (n : Nat) (s : List Char) : Option Nat :=
  if s.length < n then none
  else (s.take n).foldlM (fun v c => (StringLiteral.hexValue? c).map (16 * v + ·)) 0

def lowHalf? (s : List Char) : Option Nat :=
  match s with
  | '\\' :: 'u' :: r => (hexNumber? 4 r).filter Text.isLowSurrogate
  | _ => none

/-- A surrogate without its partner is replaced. -/
def numberedChar (n : Nat) : Char :=
  if Text.isSurrogate n then Char.ofNat 0xFFFD else Char.ofNat n

def numberEscape (length : Nat) (c : Cursor) : Except Fault (List Char × Cursor) :=
  match hexNumber? length c.rest with
  | none => .error .badEscape
  | some n =>
    let c := c.skip length
    if 0x10FFFF < n then .error .impossibleValue
    else if Text.isHighSurrogate n then
      match lowHalf? c.rest with
      | some low => .ok ([Char.ofNat (Text.pairedCode n low)], c.skip 6)
      | none => .ok ([numberedChar n], c)
    else .ok ([numberedChar n], c)

def escape (c : Cursor) : Except Fault (List Char × Cursor) :=
  match c.rest with
  | [] => .error .badEscape
  | x :: _ =>
    match simpleEscape? x, escapeLength? x with
    | some y, _ => .ok ([y], c.next)
    | none, some length => numberEscape length c.next
    | none, none =>
      if isBreak x then quotedBreaks c.rest.length c.next else .error .badEscape

def quotedText (double : Bool) : Nat → Cursor → Except Fault (List Char × Cursor)
  | 0, _ => .error .unclosedText
  | fuel + 1, c =>
    let goOn (s : List Char) (c : Cursor) : Except Fault (List Char × Cursor) := do
      let (more, c) ← quotedText double fuel c
      pure (s ++ more, c)
    match c.rest with
    | [] => .error .unclosedText
    | x :: r =>
      if x = '"' ∧ double then .ok ([], c.next)
      else if x = '\'' ∧ !double then
        if r.head? = some '\'' then goOn ['\''] (c.skip 2) else .ok ([], c.next)
      else if x = '\\' ∧ double then do
        let (s, c) ← escape c.next
        goOn s c
      else if isGap x || isBreak x then do
        let (s, c) ← quotedGap c
        goOn s c
      else goOn [x] c.next

def quoted (double : Bool) (c : Cursor) : Except Fault (List Char × Cursor) :=
  quotedText double c.rest.length c.next

/-! ## Plain texts -/

def isFlowIndicator (c : Char) : Bool :=
  c == ',' || c == '[' || c == ']' || c == '\x7b' || c == '\x7d'

def plainRun (inFlow : Bool) : List Char → List Char
  | [] => []
  | c :: r =>
    if isGap c || isLineEnd c || (c == ':' && endsWord r) || (inFlow && isFlowIndicator c) then []
    else c :: plainRun inFlow r

/-- The ends of lines from the start of a line on, spaces skipped; nothing
if a document ends. -/
def plainBreaks : Nat → Cursor → Option (List Char) × Cursor
  | 0, c => (some [], c)
  | fuel + 1, c =>
    if startsMarker c.rest then (none, c)
    else
      match (c.dropWhile (· == ' ')).takeBreak with
      | ([], c) => (some [], c)
      | (b, c) =>
        let (bs, c) := plainBreaks fuel c
        (bs.map (b ++ ·), c)

/-- The spaces after a part of a plain text, folded if a line ends in them,
and whether one does; nothing if the text cannot go on. -/
def plainGap (c : Cursor) : Option (List Char) × Bool × Cursor :=
  let (gap, c) := c.takeWhile (· == ' ')
  match c.takeBreak with
  | ([], c) => (if gap.isEmpty then none else some gap, false, c)
  | (b, c) =>
    let (bs, c) := plainBreaks c.rest.length.succ c
    (bs.map (foldBreaks b), true, c)

/-- A plain text, and whether a line ended after it. Outside of brackets its
lines are indented. -/
def plainText (inFlow : Bool) (indent : Int) : Nat → Cursor → List Char × Bool × Cursor
  | 0, c => ([], false, c)
  | fuel + 1, c =>
    let run := plainRun inFlow c.rest
    let (gap, broken, c) := plainGap (c.skip run.length)
    match gap with
    | none => (run, broken, c)
    | some gap =>
      if c.peek? = some '#' ∨ (!inFlow ∧ (c.column : Int) < indent) ∨
          plainRun inFlow c.rest = [] then (run, broken, c)
      else
        let (more, broken, c) := plainText inFlow indent fuel c
        (run ++ gap ++ more, broken, c)

def plain (inFlow : Bool) (indent : Int) (c : Cursor) : List Char × Bool × Cursor :=
  plainText inFlow indent c.rest.length c

/-! ## Blocks -/

/-- What becomes of the line ends after a block. -/
inductive Chomping where
  | strip
  | clip
  | keep
  deriving DecidableEq, Repr

def chomping? : Char → Option Chomping
  | '+' => some .keep
  | '-' => some .strip
  | _ => none

def increment (c : Cursor) : Except Fault (Option Nat × Cursor) :=
  match c.rest with
  | x :: _ =>
    if x = '0' then .error .badHeader
    else if x.isDigit then .ok (some (x.toNat - 0x30), c.next)
    else .ok (none, c)
  | [] => .ok (none, c)

def chomping (c : Cursor) : Option Chomping × Cursor :=
  match c.peek?.bind chomping? with
  | some k => (some k, c.next)
  | none => (none, c)

def blockHeader (c : Cursor) : Except Fault (Chomping × Option Nat × Cursor) := do
  let (before, c) := chomping c
  let (digit, c) ← increment c
  let (after, c) := if before.isNone && digit.isSome then chomping c else (none, c)
  if !endsProperty c.rest then throw .badHeader
  let c := (c.dropWhile (· == ' ')).dropComment
  if !endsLine c.rest then throw .badHeader
  pure ((before <|> after).getD .clip, digit, c.takeBreak.2)

/-- The ends of the empty lines before a block, and the greatest indent among
them and the first line. -/
def blockIndent : Nat → Nat → Cursor → List Char × Nat × Cursor
  | 0, deepest, c => ([], deepest, c)
  | fuel + 1, deepest, c =>
    if c.peek? = some ' ' then blockIndent fuel (max deepest c.next.column) c.next
    else
      match c.takeBreak with
      | ([], c) => ([], deepest, c)
      | (b, c) =>
        let (bs, deepest, c) := blockIndent fuel deepest c
        (b ++ bs, deepest, c)

def skipIndent (indent : Nat) : Nat → Cursor → Cursor
  | 0, c => c
  | fuel + 1, c =>
    if c.column < indent ∧ c.peek? = some ' ' then skipIndent indent fuel c.next else c

def blockBreaks (indent : Nat) : Nat → Cursor → List Char × Cursor
  | 0, c => ([], c)
  | fuel + 1, c =>
    match (skipIndent indent indent c).takeBreak with
    | ([], c) => ([], c)
    | (b, c) =>
      let (bs, c) := blockBreaks indent fuel c
      (b ++ bs, c)

/-- The lines of a block: their text, the end of the last one, the ends of
empty lines after it, and the place reached. -/
def blockLines (folded : Bool) (indent : Nat) (isTop : Bool) :
    Nat → List Char → Cursor → List Char × List Char × List Char × Cursor
  | 0, breaks, c => ([], [], breaks, c)
  | fuel + 1, breaks, c =>
    if c.column ≠ indent ∨ c.isAtEnd then ([], [], breaks, c)
    else
      let isText := !c.sees isGap
      let (line, c) := c.takeWhile fun x => !isLineEnd x
      let (lineEnd, c) := c.takeBreak
      let (more, c) := blockBreaks indent c.rest.length.succ c
      if (isTop ∧ c.column = 0 ∧ startsMarker c.rest) ∨ c.column ≠ indent ∨ c.isAtEnd then
        (breaks ++ line, lineEnd, more, c)
      else
        let joint :=
          if folded && lineEnd == ['\n'] && isText && !c.sees isGap then
            if more.isEmpty then [' '] else []
          else lineEnd
        let (s, lastEnd, after, c) := blockLines folded indent isTop fuel more c
        (breaks ++ line ++ joint ++ s, lastEnd, after, c)

def block (folded : Bool) (outer : Int) (c : Cursor) : Except Fault (List Char × Cursor) := do
  let (chomping, digit, c) ← blockHeader c.next
  let least := (outer + 1).toNat
  let fuel := c.rest.length.succ
  let (indent, breaks, c) := match digit with
    | some n =>
      let indent := max least 1 + n - 1
      let (breaks, c) := blockBreaks indent fuel c
      (indent, breaks, c)
    | none =>
      let (breaks, deepest, c) := blockIndent fuel 0 c
      (max least deepest, breaks, c)
  let (s, lineEnd, after, c) := blockLines folded indent (least == 0) fuel breaks c
  pure (match chomping with
    | .strip => (s, c)
    | .clip => (s ++ lineEnd, c)
    | .keep => (s ++ lineEnd ++ after, c))

end DocPress.Yaml
