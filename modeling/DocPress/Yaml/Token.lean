import DocPress.Yaml.Property

/-!
# Tokens

A document is cut into tokens from front to back. Indentation becomes tokens
of its own: where a collection starts deeper than the one around it, a token
opens it, and where the text returns to a lesser indent, tokens close what
was open. Whether a text is a key shows only at the colon after it, so the
place of a possible key is remembered, one at each depth of brackets, and
the token of the key is put in afterwards. Such a key stands on one line and
is not longer than 1024 characters.
-/

set_option autoImplicit false

namespace DocPress.Yaml

inductive Token where
  | directive (d : Directive)
  | documentStart
  | documentEnd
  | blockSequence
  | blockMapping
  | blockEnd
  | flowSequence
  | flowSequenceEnd
  | flowMapping
  | flowMappingEnd
  | item
  | comma
  | key
  | value
  | alias (name : String)
  | anchor (name : String)
  | tag (t : Tag)
  | text (s : List Char) (isPlain : Bool)
  deriving Repr, DecidableEq

structure PossibleKey where
  /-- The number of tokens before it. -/
  position : Nat
  /-- Whether it must be a key, as the first thing in a line of a mapping. -/
  isRequired : Bool
  line : Nat
  column : Nat
  index : Nat
  deriving Repr

inductive Bracket where
  | square
  | curly
  deriving Repr, DecidableEq

structure Scan where
  cursor : Cursor
  /-- The newest first. -/
  tokens : List Token
  indent : Int
  outerIndents : List Int
  /-- The open brackets, each with the possible key before it. -/
  brackets : List (Bracket × Option PossibleKey)
  keyAllowed : Bool
  possibleKey : Option PossibleKey
  deriving Repr

namespace Scan

def ofText (s : List Char) : Scan := ⟨.ofText s, [], -1, [], [], true, none⟩

def inFlow (s : Scan) : Bool := !s.brackets.isEmpty

def push (t : Token) (s : Scan) : Scan := { s with tokens := t :: s.tokens }

def insertAt (position : Nat) (t : Token) (s : Scan) : Scan :=
  let newer := s.tokens.length - position
  { s with tokens := s.tokens.take newer ++ t :: s.tokens.drop newer }

def forward (n : Nat) (s : Scan) : Scan := { s with cursor := s.cursor.skip n }

def allowKey (b : Bool) (s : Scan) : Scan := { s with keyAllowed := b }

/-! ## Possible keys -/

/-- A possible key is lost when its line ends or it grows too long. -/
def keepKey (c : Cursor) : Option PossibleKey → Except Fault (Option PossibleKey)
  | none => .ok none
  | some k =>
    if k.line = c.line ∧ c.index ≤ k.index + 1024 then .ok (some k)
    else if k.isRequired then .error .lostKey
    else .ok none

def dropLostKeys (s : Scan) : Except Fault Scan := do
  let key ← keepKey s.cursor s.possibleKey
  let brackets ← s.brackets.mapM fun (b, k) => (keepKey s.cursor k).map (b, ·)
  pure { s with possibleKey := key, brackets := brackets }

def dropKey (s : Scan) : Except Fault Scan :=
  match s.possibleKey with
  | some k => if k.isRequired then .error .lostKey else .ok { s with possibleKey := none }
  | none => .ok s

def saveKey (s : Scan) : Except Fault Scan :=
  if s.keyAllowed then do
    let s ← s.dropKey
    let c := s.cursor
    let isRequired := !s.inFlow && s.indent == c.column
    let key : PossibleKey := ⟨s.tokens.length, isRequired, c.line, c.column, c.index⟩
    pure { s with possibleKey := some key }
  else pure s

/-! ## Indentation -/

def unwind (column : Int) (s : Scan) : Scan :=
  if s.inFlow then s
  else
    let closed := (s.indent :: s.outerIndents).takeWhile fun i => decide (column < i)
    let remaining := (s.indent :: s.outerIndents).drop closed.length
    { s with
      tokens := closed.map (fun _ => Token.blockEnd) ++ s.tokens
      indent := remaining.headD (-1)
      outerIndents := remaining.tail }

def openAt (position column : Nat) (t : Token) (s : Scan) : Scan :=
  if !s.inFlow && s.indent < column then
    let s := s.insertAt position t
    { s with indent := column, outerIndents := s.indent :: s.outerIndents }
  else s

/-! ## Single tokens -/

def skipToToken : Nat → Scan → Scan
  | 0, s => s
  | fuel + 1, s =>
    let c := s.cursor.dropWhile fun x => x == ' ' || (s.inFlow && x == '\t')
    match c.dropComment.takeBreak with
    | ([], c) => { s with cursor := c }
    | (_, c) => skipToToken fuel { s with cursor := c, keyAllowed := s.keyAllowed || !s.inFlow }

def atMargin (s : Scan) : Except Fault Scan :=
  (s.unwind (-1)).dropKey.map (allowKey false)

def openBracket (b : Bracket) (t : Token) (s : Scan) : Except Fault Scan := do
  let s ← s.saveKey
  let s := { s with brackets := (b, s.possibleKey) :: s.brackets, possibleKey := none }
  pure (((s.allowKey true).push t).forward 1)

def closeBracket (t : Token) (s : Scan) : Except Fault Scan := do
  let s ← s.dropKey
  let s := match s.brackets with
    | (_, key) :: brackets => { s with brackets := brackets, possibleKey := key }
    | [] => s
  pure (((s.allowKey false).push t).forward 1)

def comma (s : Scan) : Except Fault Scan := do
  let s ← s.dropKey
  pure (((s.allowKey true).push .comma).forward 1)

def item (s : Scan) : Except Fault Scan := do
  if !s.inFlow && !s.keyAllowed then throw .misplaced
  let s ← ((s.openAt s.tokens.length s.cursor.column .blockSequence).allowKey true).dropKey
  pure ((s.push .item).forward 1)

def key (s : Scan) : Except Fault Scan := do
  if !s.inFlow && !s.keyAllowed then throw .misplaced
  let s := s.openAt s.tokens.length s.cursor.column .blockMapping
  let s ← (s.allowKey !s.inFlow).dropKey
  pure ((s.push .key).forward 1)

/-- The colon before a value. What may have been a key is one now. -/
def value (s : Scan) : Except Fault Scan := do
  match s.possibleKey with
  | some k =>
    let s := { s with possibleKey := none }
    let s := (s.insertAt k.position .key).openAt k.position k.column .blockMapping
    pure (((s.allowKey false).push .value).forward 1)
  | none =>
    if !s.inFlow && !s.keyAllowed then throw .misplaced
    let s := s.openAt s.tokens.length s.cursor.column .blockMapping
    pure (((s.allowKey !s.inFlow).push .value).forward 1)

def keyed (read : Cursor → Except Fault (Token × Cursor)) (s : Scan) : Except Fault Scan := do
  let s ← s.saveKey
  let (t, c) ← read s.cursor
  pure (({ s with cursor := c }.allowKey false).push t)

def blockText (folded : Bool) (s : Scan) : Except Fault Scan := do
  let s ← (s.allowKey true).dropKey
  let (text, c) ← block folded s.indent s.cursor
  pure ({ s with cursor := c }.push (.text text false))

def plainScalar (s : Scan) : Except Fault Scan := do
  let s ← s.saveKey
  let (text, broken, c) := plain s.inFlow (s.indent + 1) s.cursor
  pure (({ s with cursor := c }.allowKey broken).push (.text text true))

/-! ## Choosing the token -/

/-- Whether tokens since an open bracket wait for the end of a possible key. -/
def isWaiting (s : Scan) : Bool := s.brackets.any fun b => b.2.isSome

def colonIsValue (s : Scan) : Bool :=
  let blank := endsWord (s.cursor.rest.drop 1)
  match s.brackets with
  | [] => blank
  | (.square, _) :: _ => blank
  | (.curly, _) :: _ => blank || !(s.isWaiting && s.tokens.head? == some .value)

def startsPlain (s : Scan) (x : Char) : Bool :=
  let blank := endsWord (s.cursor.rest.drop 1)
  if x = '-' then !blank
  else if x = '?' then !blank && !s.inFlow
  else if x = ':' then !blank || (s.inFlow && !(s.cursor.rest.drop 1).head?.any isGap)
  else !isGap x && !isBreak x && !("-?:,[]{}#&*!|>'\"%@\x60".toList.contains x)

def readToken (x : Char) (s : Scan) : Except Fault Scan :=
  let blank := endsWord (s.cursor.rest.drop 1)
  let atStart := s.cursor.column == 0
  if x = '%' ∧ atStart then do
    let s ← s.atMargin
    let (d, c) ← directive s.cursor
    pure ({ s with cursor := c }.push (.directive d))
  else if (x = '-' ∨ x = '.') ∧ atStart ∧ startsMarker s.cursor.rest then do
    let s ← s.atMargin
    pure ((s.push (if x = '-' then .documentStart else .documentEnd)).forward 3)
  else if x = '[' then s.openBracket .square .flowSequence
  else if x = '\x7b' then s.openBracket .curly .flowMapping
  else if x = ']' then s.closeBracket .flowSequenceEnd
  else if x = '\x7d' then s.closeBracket .flowMappingEnd
  else if x = ',' then s.comma
  else if x = '-' ∧ blank then s.item
  else if x = '?' ∧ (s.inFlow ∨ blank) then s.key
  else if x = ':' ∧ s.colonIsValue then s.value
  else if x = '*' then s.keyed fun c => (name c).map fun (n, c) => (.alias n, c)
  else if x = '&' then s.keyed fun c => (name c).map fun (n, c) => (.anchor n, c)
  else if x = '!' then s.keyed fun c => (tag c).map fun (t, c) => (.tag t, c)
  else if (x = '|' ∨ x = '>') ∧ !s.inFlow then s.blockText (x = '>')
  else if x = '\'' ∨ x = '"' then
    s.keyed fun c => (quoted (x = '"') c).map fun (t, c) => (.text t false, c)
  else if s.startsPlain x then s.plainScalar
  else .error .noToken

def run : Nat → Scan → Except Fault (List Token)
  | 0, _ => .error .noToken
  | fuel + 1, s => do
    let s := s.skipToToken s.cursor.rest.length.succ
    let s ← s.dropLostKeys
    let s := s.unwind s.cursor.column
    match s.cursor.peek? with
    | none =>
      let s ← (s.unwind (-1)).dropKey
      pure s.tokens.reverse
    | some x => run fuel (← s.readToken x)

end Scan

def tokens (s : List Char) : Except Fault (List Token) :=
  let s := if s.head? = some '\ufeff' then s.tail else s
  Scan.run s.length.succ (.ofText s)

end DocPress.Yaml
