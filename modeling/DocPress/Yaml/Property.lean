import DocPress.Yaml.Text

/-!
# Names, tags and directives

What stands before a value: a name by which it can be repeated, and a tag
that gives its kind. A tag is written out, or as a handle and the rest;
directives at the head of a document say what handles stand for.
-/

set_option autoImplicit false

namespace DocPress.Yaml

def isAsciiWord (c : Char) : Bool := c.isAlphanum || c == '-' || c == '_'

/-! ## Names -/

def isNameChar (c : Char) : Bool :=
  let n := c.toNat
  !isFlowIndicator c && c != '\ufeff' &&
    ((0x21 ≤ n && n ≤ 0x7E) || (0xA0 ≤ n && n ≤ 0xFFFD) || 0x10000 ≤ n)

def endsName : List Char → Bool
  | [] => true
  | c :: _ => isGap c || isBreak c || isFlowIndicator c

def name (c : Cursor) : Except Fault (String × Cursor) :=
  let (s, c) := c.next.takeWhile isNameChar
  if s.isEmpty || !endsName c.rest then .error .badName else .ok (String.ofList s, c)

/-! ## Tags -/

def isTagChar (c : Char) : Bool :=
  c.isAlphanum || (";/?:@&=+$,_.!~*'()[]%#-".toList.contains c)

def escapedBytes : List Char → List UInt8
  | '%' :: a :: b :: r =>
    match StringLiteral.hexValue? a, StringLiteral.hexValue? b with
    | some a, some b => UInt8.ofNat (16 * a + b) :: escapedBytes r
    | _, _ => []
  | _ => []

def unescapeTag : Nat → List Char → Option (List Char)
  | 0, s => some s
  | _ + 1, [] => some []
  | fuel + 1, c :: r =>
    if c = '%' then
      let bytes := escapedBytes (c :: r)
      if bytes.isEmpty then none
      else do
        let s ← String.fromUTF8? (ByteArray.mk bytes.toArray)
        let more ← unescapeTag fuel ((c :: r).drop (3 * bytes.length))
        pure (s.toList ++ more)
    else (unescapeTag fuel r).map (c :: ·)

def tagText (c : Cursor) : Except Fault (List Char × Cursor) :=
  let (s, c) := c.takeWhile isTagChar
  match unescapeTag s.length s with
  | some (x :: xs) => .ok (x :: xs, c)
  | _ => .error .badTag

/-- A handle: one exclamation mark, or a word between two. -/
def handle (c : Cursor) : Except Fault (List Char × Cursor) :=
  if c.peek? = some '!' then
    let (word, after) := c.next.takeWhile isAsciiWord
    if after.peek? = some '!' then .ok (['!'] ++ word ++ ['!'], after.next)
    else if c.next.peek? = some ' ' then .ok (['!'], c.next)
    else .error .badTag
  else .error .badTag

structure Tag where
  handle : Option (List Char)
  suffix : List Char
  deriving Repr, DecidableEq

def hasHandle : List Char → Bool
  | [] => false
  | c :: r => if c = '!' then true else if c == ' ' || isBreak c then false else hasHandle r

def tag (c : Cursor) : Except Fault (Tag × Cursor) := do
  let (t, c) ←
    if c.next.peek? = some '<' then do
      let (s, c) ← tagText (c.skip 2)
      if c.peek? = some '>' then pure (Tag.mk none s, c.next) else throw .badTag
    else if endsWord c.next.rest then pure (Tag.mk none ['!'], c.next)
    else do
      let (h, c) ← if hasHandle c.next.rest then handle c else pure (['!'], c.next)
      let (s, c) ← tagText c
      pure (Tag.mk (some h) s, c)
  if endsProperty c.rest then pure (t, c) else throw .badTag

/-! ## Directives -/

inductive Directive where
  | version (major minor : Nat)
  | handle (name replacement : List Char)
  | unknown
  deriving Repr, DecidableEq

def number (c : Cursor) : Except Fault (Nat × Cursor) :=
  let (ds, c) := c.takeWhile Char.isDigit
  if ds.isEmpty then .error .badDirective
  else .ok (ds.foldl (fun n d => 10 * n + (d.toNat - 0x30)) 0, c)

def dropSpaces (c : Cursor) : Cursor := c.dropWhile (· == ' ')

def directiveValue (name : String) (c : Cursor) : Except Fault (Directive × Cursor) :=
  match name with
  | "YAML" => do
    let (major, c) ← number (dropSpaces c)
    if c.peek? != some '.' then throw .badDirective
    let (minor, c) ← number c.next
    if endsProperty c.rest then pure (.version major minor, c) else throw .badDirective
  | "TAG" => do
    let (h, c) ← handle (dropSpaces c)
    if c.peek? != some ' ' then throw .badDirective
    let (s, c) ← tagText (dropSpaces c)
    if endsProperty c.rest then pure (.handle h s, c) else throw .badDirective
  | _ => pure (.unknown, c.dropWhile fun x => !isLineEnd x)

def directive (c : Cursor) : Except Fault (Directive × Cursor) := do
  let (name, c) := c.next.takeWhile fun x => isAsciiWord x || x == ':' || x == '.'
  if name.isEmpty || !endsProperty c.rest then throw .badDirective
  let (d, c) ← directiveValue (String.ofList name) c
  let c := (dropSpaces c).dropComment
  if endsLine c.rest then pure (d, c.takeBreak.2) else throw .badDirective

end DocPress.Yaml
