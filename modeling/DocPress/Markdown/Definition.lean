import DocPress.Markdown.Target
import DocPress.Markdown.Url
import DocPress.Text.CaseFold

/-!
# Link definitions

A paragraph may start with definitions of link targets: a label in brackets,
a colon, a target and perhaps a title, spread over lines. The reader works
on the text of the paragraph's lines and tells, beside the definition, how
many line feeds it went past, because a later line is only looked at when
the lines before it leave the definition open.
-/

set_option autoImplicit false

namespace DocPress.Markdown

open Text

structure Definition where
  key : List Char
  target : List Char
  title : List Char
  deriving Repr, DecidableEq

namespace Definition

/-- The label at the start of a text, up to its closing bracket, and what
follows; without such a bracket, the place where the label fails. -/
def takeLabel : List Char → List Char × Option (List Char)
  | [] => ([], none)
  | '\\' :: c :: r =>
    let (rest, label) := takeLabel r
    (rest, label.map fun s => '\\' :: c :: s)
  | c :: r =>
    if c = '[' then (c :: r, none)
    else if c = ']' then (r, some [])
    else
      let (rest, label) := takeLabel r
      (rest, label.map (c :: ·))

def isGap (c : Char) : Bool := isSpaceOrTab c || c == '\n'

def feeds (s : List Char) : Nat := s.count '\n'

def endsLine (s : List Char) : Bool :=
  match s.dropWhile isSpaceOrTab with
  | [] => true
  | c :: _ => c == '\n'

/-- What a text starts with: how much of it was looked at, and the definition
with the text that follows it. -/
structure Reading where
  rest : List Char
  found : Option (Definition × List Char)

def failed (rest : List Char) : Reading := ⟨rest, none⟩

def untitled (key target rest seen : List Char) : Reading :=
  if endsLine rest then ⟨seen, some (⟨key, target, []⟩, rest)⟩ else failed seen

/-- Read the title after a target, and fall back to none when it does not end its line. -/
def readTitle (key target after : List Char) : Reading :=
  let start := after.dropWhile isGap
  match start with
  | [] => untitled key target after []
  | c :: r =>
    match titleMark? c with
    | none => untitled key target after start
    | some mark =>
      match scanTitle mark r with
      | .unfinished _ => untitled key target after []
      | .refused rest => untitled key target after rest
      | .closed title rest =>
        let moved := start.length < after.length || title.contains '\n'
        if !moved then untitled key target after rest
        else if endsLine rest then ⟨rest, some (⟨key, target, unescape title⟩, rest)⟩
        else if (unescape title).isEmpty then failed rest
        else untitled key target after rest

def firstLine (s : List Char) : List Char :=
  s.takeWhile (· != '\n') ++ (s.dropWhile (· != '\n')).take 1

def readTarget (label rest : List Char) : Reading :=
  match rest with
  | ':' :: r =>
    let start := r.dropWhile isGap
    let line := firstLine start
    let more := start.drop line.length
    match takeTarget? line with
    | none => failed start
    | some (raw, after) =>
      let target := Url.normalize raw
      let key := labelKey label
      if !Url.isSafe target then failed start
      else
        -- a backslash draws the line feed into the target, and no title follows
        let reading :=
          if after.isEmpty && line.getLast? == some '\n' then
            untitled key target ('\n' :: more) more
          else readTitle key target (after ++ more)
        if key.isEmpty then failed reading.rest else reading
  | _ => failed rest

def read (s : List Char) : Reading :=
  match s with
  | '[' :: r =>
    match takeLabel r with
    | (rest, none) => failed rest
    | (rest, some label) => readTarget label rest
  | _ => failed s

end Definition

end DocPress.Markdown
