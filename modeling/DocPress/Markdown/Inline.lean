import DocPress.Directive.Probed
import DocPress.Markdown.Definition
import DocPress.Markdown.Delimiter
import DocPress.Markdown.Html

/-!
# Inline content

The text of a paragraph, a heading or a cell is read from left to right:
directives, line breaks, escapes, code, links, images, markup, character
references and the marks of emphasis; what is none of these is text. To find
the end of a link's text the reader runs ahead over whole spans, and keeps
for each place where the span there ends. Links and the running ahead for
them lie in each other only so deep.
-/

set_option autoImplicit false

namespace DocPress.Markdown.Inline

open Text Document

structure Source where
  chars : Array Char
  definitions : List Definition

namespace Source

def ofList (definitions : List Definition) (s : List Char) : Source := ⟨s.toArray, definitions⟩

def size (s : Source) : Nat := s.chars.size

def char? (s : Source) (i : Nat) : Option Char := s.chars[i]?

def slice (s : Source) (i j : Nat) : List Char := (s.chars.extract i j).toList

def tail (s : Source) (i : Nat) : List Char := s.slice i s.size

def run (s : Source) (c : Char) (limit i : Nat) : Nat :=
  ((s.slice i limit).takeWhile (· == c)).length

def afterBlanks (s : Source) (limit i : Nat) : Nat :=
  i + ((s.slice i limit).takeWhile isSpaceOrTab).length

end Source

/-- What is remembered about a text: where the span at a place ends, the
last place of a run of backticks by its length, whether those have been looked
for up to the end, and what has been noted, newest first. -/
structure Memo (φ : Type) where
  ends : Array (Option Nat)
  ticks : List (Nat × Nat)
  ticksKnown : Bool
  notes : List φ

variable {φ : Type}

def Memo.start (s : Source) : Memo φ := ⟨Array.replicate s.size none, [], false, []⟩

def Memo.note (notes : List φ) (m : Memo φ) : Memo φ := { m with notes := notes.reverse ++ m.notes }

abbrev Walk (φ : Type) := StateM (Memo φ)

inductive Span where
  | text (s : List Char)
  | piece (p : Piece)
  | lineEnd
  | link (target title : List Char) (start stop : Nat)
  | image (target title : List Char) (start stop : Nat)

abbrev Found := Option (Span × Nat)

/-! ## Simple spans -/

def directive? (recognise : Directive.Recogniser φ) (s : Source) (pos : Nat) : Walk φ Found := do
  match s.slice pos (pos + 2) with
  | ['{', '%'] =>
    let rest := s.tail (pos + 2)
    match Html.afterFirst? ['%', '}'] rest with
    | none => pure none
    | some after =>
      let stop := s.size - after.length
      let found := recognise (s.slice pos stop)
      modify (Memo.note found.notes)
      pure (found.value.map fun d => (.piece (.directive d), stop))
  | _ => pure none

def isStop (c : Char) : Bool :=
  ['\n', '!', '#', '$', '%', '&', '*', '+', '-', ':', '<', '=', '>', '@', '[', '\\', ']', '^',
    '_', '\x60', '{', '}', '~'].contains c

def text? (s : Source) (limit pos : Nat) : Found :=
  match (s.slice pos limit).takeWhile (!isStop ·) with
  | [] => none
  | t => some (.text t, pos + t.length)

def escape? (s : Source) (limit pos : Nat) : Found :=
  if pos + 1 < limit then
    match s.char? (pos + 1) with
    | some '\n' => some (.piece (.leaf .hardBreak), s.afterBlanks limit (pos + 2))
    | some c =>
      some (.piece (.special (if isAsciiPunctuation c then [c] else ['\\', c])), pos + 2)
    | none => none
  else none

def entity? (s : Source) (limit pos : Nat) : Found :=
  if pos + 1 < limit then
    (Entity.takeInline? (s.tail (pos + 1))).map fun (t, rest) =>
      (.piece (.special t), s.size - rest.length)
  else none

/-! ## Code -/

/-- Line feeds in code are spaces; one space at both ends is taken off code that is not blank. -/
def codeText (t : List Char) : List Char :=
  let t := t.map fun c => if c = '\n' then ' ' else c
  if t.head? == some ' ' && t.getLast? == some ' ' && !isBlankText t then t.tail.dropLast else t

def closingTicks (s : Source) (limit length : Nat) :
    Nat → Nat → List (Nat × Nat) → Option (Nat × Nat) × List (Nat × Nat)
  | 0, _, ticks => (none, ticks)
  | fuel + 1, pos, ticks =>
    match (s.tail pos).dropWhile (· != '\x60') with
    | [] => (none, ticks)
    | c :: rest =>
      let start := s.size - (rest.length + 1)
      let stop := start + 1 + s.run c limit (start + 1)
      if stop - start = length then (some (start, stop), ticks)
      else closingTicks s limit length fuel stop ((stop - start, start) :: ticks)

/-- The code between runs of backticks of one length, or the backticks themselves. -/
def code (s : Source) (limit pos : Nat) : Walk φ (Span × Nat) := do
  let length := s.run '\x60' limit pos
  let after := pos + length
  let plain : Span × Nat := (.text (List.replicate length '\x60'), after)
  let m ← get
  if m.ticksKnown && ((m.ticks.lookup length).getD 0) ≤ pos then pure plain
  else
    match closingTicks s limit length s.size after m.ticks with
    | (some (start, stop), ticks) =>
      set { m with ticks := ticks }
      pure (.piece (.leaf (.code (String.ofList (codeText (s.slice after start))))), stop)
    | (none, ticks) =>
      set { m with ticks := ticks, ticksKnown := true }
      pure plain

/-! ## Addresses in angle brackets -/

def isSchemeChar (c : Char) : Bool := c.isAlphanum || c == '+' || c == '.' || c == '-'

def isAddressChar (c : Char) : Bool := 0x20 < c.toNat && c != '<' && c != '>'

def withoutFeed (s : List Char) : List Char :=
  if s.getLast? == some '\n' then s.dropLast else s

def isAddress (s : List Char) : Bool :=
  match s.takeWhile isSchemeChar, s.dropWhile isSchemeChar with
  | c :: more, ':' :: rest =>
    c.isAlpha && 1 ≤ more.length && more.length ≤ 31 && (withoutFeed rest).all isAddressChar
  | _, _ => false

def isMailboxChar (c : Char) : Bool :=
  c.isAlphanum || ".!#$%&'*+/=?^_\x60\x7b|\x7d~-".toList.contains c

def isHostLabel (s : List Char) : Bool :=
  1 ≤ s.length && s.length ≤ 63 && s.all (fun c => c.isAlphanum || c == '-') &&
    s.head? != some '-' && s.getLast? != some '-'

def isMailAddress (s : List Char) : Bool :=
  match s.takeWhile isMailboxChar, s.dropWhile isMailboxChar with
  | _ :: _, '@' :: host => (Url.splitDots (withoutFeed host)).all isHostLabel
  | _, _ => false

def address (target shown : List Char) (stop : Nat) : Found :=
  let target := Url.normalize target
  if Url.isSafe target then some (.piece (.link target [] [.text (Url.shownText shown)]), stop)
  else none

def address? (s : Source) (limit pos : Nat) : Found :=
  let rest := s.slice (pos + 1) limit
  let inside := rest.takeWhile fun c => c != '<' && c != '>'
  if (rest.drop inside.length).head? == some '>' then
    let stop := pos + inside.length + 2
    if isAddress inside then address inside inside stop
    else if isMailAddress inside then address ("mailto:".toList ++ inside) inside stop
    else none
  else none

def markup? (s : Source) (limit pos : Nat) : Found :=
  if pos + 2 < limit then
    let rest := s.tail pos
    match rest with
    | _ :: c :: _ =>
      if c == '!' || c == '?' || c == '/' || c.isAlpha then
        (Html.afterMarkup? rest).map fun after =>
          (.piece (.markup (rest.take (rest.length - after.length))), s.size - after.length)
      else none
    | _ => none
  else none

/-! ## Links -/

/-- The end of the text of a link that starts at a place: the bracket that
closes it, found by passing over whole spans. A link in the text of
another one spoils it if so wished. -/
def labelEnd? (s : Source) (skip : Nat → Walk φ Nat) (limit : Nat) (nestable : Bool) :
    Nat → Nat → Nat → Walk φ (Option Nat)
  | 0, _, _ => pure none
  | fuel + 1, depth, pos => do
    if limit ≤ pos then pure none
    else
      let c := s.char? pos
      let depth := if c = some ']' then depth - 1 else depth
      if c = some ']' ∧ depth = 0 then pure (some pos)
      else
        let next ← skip pos
        if c = some '[' then
          if next = pos + 1 then labelEnd? s skip limit nestable fuel (depth + 1) next
          else if nestable then labelEnd? s skip limit nestable fuel depth next
          else pure none
        else labelEnd? s skip limit nestable fuel depth next

inductive Destination where
  | taken (target title rest : List Char)
  | refused (rest : List Char)
  | cut

def readDestination (s : List Char) : Destination :=
  let start := s.dropWhile Definition.isGap
  if start.isEmpty then .cut
  else
    let (target, title, rest) := match takeTarget? start with
      | none => ([], [], start)
      | some (raw, after) =>
        let target := Url.normalize raw
        let (target, after) := if Url.isSafe target then (target, after) else ([], start)
        let inner := after.dropWhile Definition.isGap
        match (if inner.length < after.length then takeTitle? inner else none) with
        | some (title, rest) => (target, title, rest.dropWhile Definition.isGap)
        | none => (target, [], inner)
    match rest with
    | ')' :: r => .taken target title r
    | _ => .refused rest

def define? (s : Source) (label : List Char) : Option Definition :=
  let key := labelKey label
  s.definitions.find? fun d => d.key == key

def reference? (s : Source) (skip : Nat → Walk φ Nat) (limit start stop pos : Nat) :
    Walk φ (Option (Definition × Nat)) := do
  if s.definitions.isEmpty then pure none
  else
    let own ← if pos < limit ∧ s.char? pos = some '[' then
        labelEnd? s skip limit true (limit - pos) 1 (pos + 1)
      else pure none
    let named := match own with
      | some e => (s.slice (pos + 1) e, e + 1)
      | none => ([], stop + 1)
    let label := if named.1.isEmpty then s.slice start stop else named.1
    pure ((define? s label).map fun d => (d, named.2))

/-- The link at a place. When what stands in parentheses is no destination,
the label is looked for one place further on. -/
def link? (s : Source) (skip : Nat → Walk φ Nat) (limit pos : Nat) : Walk φ Found := do
  match ← labelEnd? s skip limit false (limit - pos) 1 (pos + 1) with
  | none => pure none
  | some stop =>
    let byLabel (labelAt : Nat) : Walk φ Found := do
      let d ← reference? s skip limit (pos + 1) stop labelAt
      pure (d.map fun (d, after) => (.link d.target d.title (pos + 1) stop, after))
    if stop + 1 < limit ∧ s.char? (stop + 1) = some '(' then
      match readDestination (s.slice (stop + 2) limit) with
      | .cut => pure none
      | .taken target title rest =>
        pure (some (.link target title (pos + 1) stop, limit - rest.length))
      | .refused rest => byLabel (limit - rest.length + 1)
    else byLabel (stop + 1)

def image? (s : Source) (skip : Nat → Walk φ Nat) (limit pos : Nat) : Walk φ Found := do
  if pos + 1 < limit ∧ s.char? (pos + 1) ≠ some '[' then pure none
  else
    match ← labelEnd? s skip limit true (limit - pos) 1 (pos + 2) with
    | none => pure none
    | some stop =>
      if stop + 1 < limit ∧ s.char? (stop + 1) = some '(' then
        match readDestination (s.slice (stop + 2) limit) with
        | .taken target title rest =>
          pure (some (.image target title (pos + 2) stop, limit - rest.length))
        | _ => pure none
      else
        let d ← reference? s skip limit (pos + 2) stop (stop + 1)
        pure (d.map fun (d, after) => (.image d.target d.title (pos + 2) stop, after))

/-! ## Running ahead -/

def span? (recognise : Directive.Recogniser φ) (s : Source) (skip : Nat → Walk φ Nat)
    (limit pos : Nat) : Walk φ Found := do
  match s.char? pos with
  | none => pure none
  | some c =>
    match c with
    | '{' => directive? recognise s pos
    | '\n' => pure (some (.lineEnd, s.afterBlanks limit (pos + 1)))
    | '\\' => pure (escape? s limit pos)
    | '\x60' => some <$> code s limit pos
    | '[' => link? s skip limit pos
    | '!' => image? s skip limit pos
    | '<' => pure ((address? s limit pos).orElse fun _ => markup? s limit pos)
    | '&' => pure (entity? s limit pos)
    | _ => pure (text? s limit pos)

/-- The place after the span at a place, with so many levels left. Beyond
them nothing more of the text is looked at. -/
def skipAt (recognise : Directive.Recogniser φ) (s : Source) (limit : Nat) : Nat → Nat → Walk φ Nat
  | levels, pos => do
    match (← get).ends.getD pos none with
    | some stop => pure stop
    | none =>
      let stop ← match levels with
        | 0 => pure (limit + 1)
        | n + 1 => do
          let found ← span? recognise s (skipAt recognise s limit n) limit pos
          pure ((found.map Prod.snd).getD (pos + 1))
      modify fun m => { m with ends := m.ends.setIfInBounds pos (some stop) }
      pure stop

/-! ## Reading -/

/-- What has been read: running text, newest character first, the pieces
before it, and the marks among them. -/
structure Draft where
  pending : List Char
  pieces : Array Piece
  marks : Array Delimiter

namespace Draft

def empty : Draft := ⟨[], #[], #[]⟩

def flush (d : Draft) : Draft :=
  if d.pending.isEmpty then d
  else { d with pending := [], pieces := d.pieces.push (.text d.pending.reverse) }

def push (d : Draft) (p : Piece) : Draft :=
  let d := d.flush
  { d with pieces := d.pieces.push p }

def addText (d : Draft) (t : List Char) : Draft := { d with pending := t.reverse ++ d.pending }

def breakLine (d : Draft) : Draft :=
  match d.pending with
  | ' ' :: ' ' :: r => push { d with pending := r.dropWhile (· == ' ') } (.leaf .hardBreak)
  | ' ' :: r => push { d with pending := r } (.leaf .softBreak)
  | _ => d.push (.leaf .softBreak)

def addMark (d : Draft) (t : List Char) (m : Delimiter) : Draft :=
  let d := d.push (.text t)
  { d with marks := d.marks.push { m with piece := d.pieces.size - 1 } }

def addMarks (t : List Char) (m : Delimiter) : Nat → Draft → Draft
  | 0, d => d
  | n + 1, d => addMarks t m n (d.addMark t m)

def finish (d : Draft) : List Piece :=
  let d := d.flush
  resolveMarks d.marks d.pieces

end Draft

def marks? (s : Source) (limit pos : Nat) (d : Draft) : Option (Draft × Nat) :=
  match s.char? pos with
  | none => none
  | some c =>
    if c == '*' || c == '_' || c == '~' then
      let length := s.run c limit pos
      let before := if pos = 0 then ' ' else (s.char? (pos - 1)).getD ' '
      let after := if pos + length < limit then (s.char? (pos + length)).getD ' ' else ' '
      let (opens, closes) := flanking before after (c != '_')
      if c == '~' then
        if length < 2 then none
        else
          let d := if length % 2 = 1 then d.push (.text [c]) else d
          some (d.addMarks [c, c] ⟨c, 0, 0, none, opens, closes⟩ (length / 2), length)
      else some (d.addMarks [c] ⟨c, length, 0, none, opens, closes⟩ length, length)
    else none

/-- Read the text between two places; `inner` reads the text of a link, and
`alternative` tells what is noted in the text of an image. -/
def readFrom (recognise : Directive.Recogniser φ) (s : Source) (skip : Nat → Walk φ Nat)
    (inner : Nat → Nat → Walk φ (List Piece)) (alternative : List Char → List φ) (limit : Nat) :
    Nat → Nat → Draft → Walk φ (List Piece)
  | 0, _, d => pure d.finish
  | fuel + 1, pos, d => do
    if limit ≤ pos then pure d.finish
    else
      match marks? s limit pos d with
      | some (d, n) => readFrom recognise s skip inner alternative limit fuel (pos + n) d
      | none =>
        match ← span? recognise s skip limit pos with
        | none =>
          readFrom recognise s skip inner alternative limit fuel (pos + 1)
            (d.addText (s.char? pos).toList)
        | some (e, next) =>
          let d ← match e with
            | .text t => pure (d.addText t)
            | .piece p => pure (d.push p)
            | .lineEnd => pure d.breakLine
            | .link target title start stop => do
              pure (d.push (.link target title (← inner start stop)))
            | .image target title start stop => do
              let alt := s.slice start stop
              modify (Memo.note (alternative alt))
              pure (d.push (.leaf (.image (String.ofList target) (String.ofList alt)
                (String.ofList title))))
          readFrom recognise s skip inner alternative limit fuel next d

/-- Read a part of the text with so many levels left; without any it is plain text. -/
def readPart (recognise : Directive.Recogniser φ) (s : Source)
    (alternative : List Char → List φ) :
    Nat → Nat → Nat → Walk φ (List Piece)
  | 0, start, stop => pure (Draft.empty.addText (s.slice start stop)).finish
  | n + 1, start, stop =>
    readFrom recognise s (skipAt recognise s stop (n + 1)) (readPart recognise s alternative n)
      alternative stop (stop - start) start Draft.empty

def maxLevel : Nat := 20

def readAll (recognise : Directive.Recogniser φ) (definitions : List Definition)
    (alternative : List Char → List φ) (t : List Char) : Probed φ (List Piece) :=
  let s := Source.ofList definitions t
  let (pieces, m) := (readPart recognise s alternative maxLevel 0 s.size).run (Memo.start s)
  ⟨m.notes.reverse, pieces⟩

def notesWithin (recognise : Directive.Recogniser φ) (definitions : List Definition) :
    Nat → List Char → List φ
  | 0, _ => []
  | n + 1, t => (readAll recognise definitions (notesWithin recognise definitions n) t).notes

def joinTexts : List Piece → List Piece
  | [] => []
  | p :: ps =>
    match p, joinTexts ps with
    | .text a, .text b :: rest => .text (a ++ b) :: rest
    | .special a, .text b :: rest => .text (a ++ b) :: rest
    | .special a, rest => .text a :: rest
    | p, rest => p :: rest

mutual

def pieceTokens : Piece → List Token
  | .text s | .special s | .markup s => [.leaf (.text (String.ofList s))]
  | .leaf l => [.leaf l]
  | .directive d => [.directive d]
  | .opening c => [.opening c]
  | .closing kind => [.closing kind]
  | .link target title inside =>
    .opening (.link (String.ofList target) (String.ofList title)) ::
      (piecesTokens inside ++ [.closing .link])

def piecesTokens : List Piece → List Token
  | [] => []
  | p :: ps => pieceTokens p ++ piecesTokens ps

end

mutual

def joined : Piece → Piece
  | .link target title inside => .link target title (joinTexts (joinedAll inside))
  | p => p

def joinedAll : List Piece → List Piece
  | [] => []
  | p :: ps => joined p :: joinedAll ps

end

def read (recognise : Directive.Recogniser φ) (definitions : List Definition) (t : List Char) :
    Probed φ (List Token) :=
  (fun ps => piecesTokens (joinTexts (joinedAll ps))) <$>
    readAll recognise definitions (notesWithin recognise definitions t.length) t

end DocPress.Markdown.Inline
