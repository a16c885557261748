import DocPress.Directive.Probed
import DocPress.Markdown.Definition
import DocPress.Markdown.Html
import DocPress.Markdown.Table

/-!
# Markdown blocks

The block structure of a document, read from its lines: paragraphs, headings,
code, markup, tables, quotations, lists, link definitions, and directives
that have a line to themselves. The content of a paragraph or a cell is kept
as text. Quotations and list items hold blocks; how deep they may lie in
each other is bounded, and what is deeper is left out.
-/

set_option autoImplicit false

namespace DocPress.Markdown

open Text

inductive Block where
  | paragraph (text : List Char)
  | heading (level : Nat) (text : List Char)
  | rule
  | code (content : List Char)
  | fence (info content : List Char)
  | html (content : List Char)
  | quote (blocks : List Block)
  | list (start : Option Nat) (tight : Bool) (items : List (List Block))
  | table (header : Table.Row) (rows : List Table.Row)
  | directive (d : Directive)
  | definition (d : Definition)
  deriving Inhabited, Repr

/-- Where blocks are read: the column their content starts at, and the one of
the list they are an item of. -/
structure Place where
  indent : Int
  list : Int
  deriving Repr, DecidableEq

def Place.top : Place := ⟨0, -1⟩

namespace Line

def isCodeAt (p : Place) (l : Line) : Bool := 4 ≤ l.indent - p.indent

def isOutside (p : Place) (l : Line) : Bool := l.indent < p.indent

def content (l : Line) : List Char := if l.ended then l.body ++ ['\n'] else l.body

end Line

namespace Block

variable {φ : Type} (recognise : Directive.Recogniser φ)

/-! ## Blocks that one line tells -/

/-- The directive that has a line to itself. A call does not stand alone: it
is content of a paragraph. -/
def directive? (p : Place) (l : Line) : Probed φ (Option Directive) :=
  let text := stripRight l.body
  if l.isCodeAt p || !(['{', '%'].isPrefixOf text) ||
      Html.afterFirst? ['%', '}'] text != some [] then pure none
  else Option.filter (!·.isCall) <$> recognise text

/-- The mark of the list item that a line starts at a place. A line too deep
for the list around it and not deep enough for its item starts none. -/
def listMarkAt? (p : Place) (l : Line) : Option ListMark :=
  if l.isCodeAt p || (0 ≤ p.list && 4 ≤ l.indent - p.list && l.isOutside p) then none
  else listMark? l.body

def tableAt? (p : Place) (l : Line) (rest : List Line) : Option Table.Row :=
  match rest with
  | [] => none
  | m :: _ =>
    if m.isOutside p || m.isCodeAt p || l.isCodeAt p then none else Table.header? l.body m.body

/-- What may be interrupted: each goes on line by line while no other block starts. -/
inductive Host where
  | paragraph
  | definition
  | quotation
  | table
  | list
  deriving DecidableEq, Repr

namespace Host

def endsAtTable : Host → Bool
  | .paragraph | .definition => true
  | _ => false

def isList : Host → Bool
  | .list => true
  | _ => false

def endsAtList (h : Host) (p : Place) (l : Line) (m : ListMark) : Bool :=
  match h with
  | .list => false
  | .paragraph => l.isOutside p || m.endsParagraph
  | _ => true

end Host

def endsByMark (h : Host) (p : Place) (l : Line) (rest : List Line) : Bool :=
  (h.endsAtTable && (tableAt? p l rest).isSome) ||
    (!l.isCodeAt p &&
      ((fence? l.body).isSome || l.body.head? == some '>' || isRule l.body ||
        (!h.isList && ((Html.blockKind? l.body).map Html.BlockKind.interrupts).getD false) ||
        (!h.isList && (heading? l.body).isSome))) ||
    ((listMarkAt? p l).map (h.endsAtList p l)).getD false

def interrupts (h : Host) (p : Place) (l : Line) (rest : List Line) : Probed φ Bool :=
  if endsByMark h p l rest then pure true else Option.isSome <$> directive? recognise p l

/-! ## Blocks of several lines -/

def codeLines (p : Place) : List Line → Nat
  | [] => 0
  | l :: rest =>
    let more := codeLines p rest
    if l.isCodeAt p && !l.isEmpty then more + 1
    else if l.isEmpty && 0 < more then more + 1
    else 0

def fenceLines (p : Place) (f : Fence) : List Line → Nat × Bool
  | [] => (0, false)
  | l :: rest =>
    if !l.isEmpty && l.isOutside p then (0, false)
    else if !l.isCodeAt p && f.closedBy l.body then (0, true)
    else
      let (n, closed) := fenceLines p f rest
      (n + 1, closed)

def markupLines (p : Place) (k : Html.BlockKind) : List Line → Nat
  | [] => 0
  | l :: rest =>
    if l.isOutside p then 0
    else if k.endsAt l.body then (if l.isEmpty then 0 else 1)
    else markupLines p k rest + 1

/-- The lines that go on with a paragraph. Deeper lines and lines that can
only continue are taken unseen. -/
def paragraphLines (h : Host) (p : Place) : List Line → Probed φ Nat
  | [] => pure 0
  | l :: rest =>
    if l.isEmpty then pure 0
    else if l.isCodeAt p || l.indent < 0 then (· + 1) <$> paragraphLines h p rest
    else do
      if ← interrupts recognise h p l rest then pure 0
      else (· + 1) <$> paragraphLines h p rest

def underlined? (p : Place) : List Line → Probed φ (Option (Nat × Nat))
  | [] => pure none
  | l :: rest =>
    let deeper : Probed φ (Option (Nat × Nat)) :=
      Option.map (fun (level, n) => (level, n + 1)) <$> underlined? p rest
    if l.isEmpty then pure none
    else if l.isCodeAt p then deeper
    else
      match (if l.isOutside p then none else underline? l.body) with
      | some level => pure (some (level, 0))
      | none =>
        if l.indent < 0 then deeper
        else do if ← interrupts recognise .paragraph p l rest then pure none else deeper

def definitionLines (p : Place) : List Line → List (List φ × Line)
  | [] => []
  | l :: rest =>
    if l.isEmpty then []
    else if l.isCodeAt p || l.indent < 0 then ([], l) :: definitionLines p rest
    else
      let seen := interrupts recognise .definition p l rest
      if seen.value then [] else (seen.notes, l) :: definitionLines p rest

/-- The definition that starts at a line, and the number of lines after the first that it takes. -/
def definition? (p : Place) (l : Line) (rest : List Line) : Probed φ (Option (Definition × Nat)) :=
  if l.isCodeAt p || l.body.head? != some '[' then pure none
  else
    let following := definitionLines recognise p rest
    let text := l.content ++ (following.flatMap fun f => f.2.content)
    let reading := Definition.read text
    let passed (r : List Char) : Nat :=
      min (Definition.feeds text - Definition.feeds r) following.length
    ⟨(following.take (passed reading.rest)).flatMap Prod.fst,
      reading.found.map fun (d, r) => (d, passed r)⟩

def tableRows (p : Place) (columns : Nat) : Int → List Line → Probed φ (List Table.Row)
  | _, [] => pure []
  | missing, l :: rest =>
    if l.isOutside p then pure []
    else do
      if ← interrupts recognise .table p l rest then pure []
      else if isBlankText l.body || l.isCodeAt p then pure []
      else
        let row := Table.cells l.body
        let missing := missing + ((columns : Int) - row.length)
        if Table.maxMissing < missing then pure []
        else (Table.fit columns row :: ·) <$> tableRows p columns missing rest

/-! ## Quotations -/

/-- A quoted line without its bracket and the space after it. A tab after the
bracket counts as a space when it is one column wide. -/
def unquote (l : Line) : Line :=
  let rest := l.body.drop 1
  let start := l.indent + 1
  let spaced := (rest.head?.map isSpaceOrTab).getD false
  let whole := rest.head? == some ' ' || (rest.head? == some '\t' && (l.base + start) % 4 == 3)
  let rest := if whole then rest.drop 1 else rest
  let start := if whole then start + 1 else start
  let lead := rest.takeWhile isSpaceOrTab
  let base := if spaced && !whole then l.base + 1 else l.base
  { lead := lead
    body := rest.dropWhile isSpaceOrTab
    indent := columnAfterAll base start lead - start
    base := (l.indent + 1 + (if spaced then 1 else 0)).toNat
    ended := l.ended }

/-- The lines of a quotation after one of them. A line without a bracket goes
on with a paragraph in it, unless it starts a block. -/
def quotedLines (p : Place) (afterEmpty : Bool) : List Line → Probed φ (List Line)
  | [] => pure []
  | l :: rest =>
    if l.isEmpty then pure []
    else if l.body.head? == some '>' && !l.isOutside p then
      let inner := unquote l
      (inner :: ·) <$> quotedLines p inner.isEmpty rest
    else if afterEmpty then pure []
    else do
      if ← interrupts recognise .quotation p l rest then pure []
      else ({ l with indent := -1 } :: ·) <$> quotedLines p false rest

/-! ## Reading -/

/-- The blocks at the start of some lines, how many lines they take, and
whether no blank line stands between two of them. -/
structure Reading where
  blocks : List Block
  used : Nat
  tight : Bool
  deriving Inhabited

abbrev Reader (φ : Type) := Place → List Line → Probed φ Reading

def itemStart (p : Place) (l : Line) (m : ListMark) : Line × Place :=
  let start := l.indent + m.text.length
  let spaces := m.rest.takeWhile isSpaceOrTab
  let content := m.rest.dropWhile isSpaceOrTab
  let column := columnAfterAll l.base start spaces
  let gap := if content.isEmpty || 4 < column - start then 1 else column - start
  ({ l with lead := l.lead ++ m.text ++ spaces, body := content, indent := column },
    ⟨start + gap, p.indent⟩)

/-- One item. An item without text on its first line has none when a blank line follows. -/
def readItem (nested : Reader φ) (p : Place) (m : ListMark) (l : Line) (rest : List Line) :
    Probed φ Reading :=
  let (first, inside) := itemStart p l m
  if first.isEmpty && (rest.head?.map Line.isEmpty).getD true then
    pure ⟨[], min 2 (rest.length + 1), true⟩
  else nested inside (first :: rest)

/-- The items of a list with the number of lines they take. The list is loose
when an item is, or when blank lines stand between two items. -/
structure Items where
  items : List (List Block)
  tight : Bool
  used : Nat

def nextMark? (p : Place) (m : ListMark) (l : Line) (rest : List Line) :
    Probed φ (Option ListMark) :=
  if l.isOutside p || l.isCodeAt p then pure none
  else do
    if ← interrupts recognise .list p l rest then pure none
    else pure ((listMark? l.body).filter m.joins)

def readItems (nested : Reader φ) (p : Place) (m : ListMark) (l : Line) (rest : List Line) :
    Probed φ Items := do
  let item ← readItem nested p m l rest
  let more := item.used - 1
  match _h : rest.drop more with
  | [] => pure ⟨[item.blocks], item.tight, 1 + more⟩
  | l' :: rest' =>
    match ← nextMark? recognise p m l' rest' with
    | none => pure ⟨[item.blocks], item.tight, 1 + more⟩
    | some m' =>
      let following ← readItems nested p m' l' rest'
      let apart := 0 < more && ((rest[more - 1]?).map Line.isEmpty).getD false
      pure ⟨item.blocks :: following.items, item.tight && following.tight && !apart,
        1 + more + following.used⟩
termination_by rest.length
decreasing_by
  have := congrArg List.length _h
  simp only [List.length_drop, List.length_cons] at this
  omega

def readText (p : Place) (l : Line) (rest : List Line) : Probed φ (Block × Nat) := do
  match Html.blockKind? l.body with
  | some k =>
    let n := if k.endsAt l.body then 0 else markupLines p k rest
    pure (.html (Line.textOf p.indent true (l :: rest.take n)), n)
  | none =>
    match heading? l.body with
    | some (level, text) => pure (.heading level text, 0)
    | none =>
      match ← underlined? recognise p rest with
      | some (level, n) =>
        pure (.heading level (Line.paragraphText p.indent (l :: rest.take n)), n + 1)
      | none =>
        match ← directive? recognise p l with
        | some d => pure (.directive d, 0)
        | none =>
          let n ← paragraphLines recognise .paragraph p rest
          pure (.paragraph (Line.paragraphText p.indent (l :: rest.take n)), n)

def readBlock (quoted nested : Reader φ) (p : Place) (l : Line) (rest : List Line) :
    Probed φ (Block × Nat) := do
  match tableAt? p l rest with
  | some header =>
    let rows ← tableRows recognise p header.length 0 (rest.drop 1)
    pure (.table header rows, rows.length + 1)
  | none =>
    if l.isCodeAt p then
      let n := codeLines p rest
      pure (.code (Line.textOf (4 + p.indent) false (l :: rest.take n) ++ ['\n']), n)
    else
      match fence? l.body with
      | some f =>
        let (n, closed) := fenceLines p f rest
        pure (.fence f.info (Line.textOf l.indent true (rest.take n)), if closed then n + 1 else n)
      | none =>
        if l.body.head? == some '>' then
          let first := unquote l
          let following ← quotedLines recognise p first.isEmpty rest
          let inside ← quoted ⟨0, p.list⟩ (first :: following)
          pure (.quote inside.blocks, inside.used - 1)
        else if isRule l.body then pure (.rule, 0)
        else
          match listMarkAt? p l with
          | some m =>
            let items ← readItems recognise nested p m l rest
            pure (.list m.number items.tight items.items, items.used - 1)
          | none =>
            match ← definition? recognise p l rest with
            | some (d, n) => pure (.definition d, n)
            | none => readText recognise p l rest

def readBlocks (quoted nested : Reader φ) (p : Place) (loose tight : Bool) (lines : List Line) :
    Probed φ Reading := do
  match lines with
  | [] => pure ⟨[], 0, tight⟩
  | l :: rest =>
    if l.isEmpty then
      let r ← readBlocks quoted nested p loose tight rest
      pure { r with used := r.used + 1 }
    else if l.isOutside p then pure ⟨[], 0, tight⟩
    else
      let (block, more) ← readBlock recognise quoted nested p l rest
      let empty (i : Nat) : Bool := ((l :: rest)[i]?.map Line.isEmpty).getD false
      let r ← readBlocks quoted nested p (loose || empty more || empty (more + 1)) (!loose)
        (rest.drop more)
      pure ⟨block :: r.blocks, 1 + more + r.used, r.tight⟩
termination_by lines.length
decreasing_by
  · simp
  · simp only [List.length_drop, List.length_cons]
    omega

/-- Too deep to read: blank lines are passed, and so is all that belongs to the place. -/
def passOver (p : Place) (lines : List Line) : Reading :=
  match lines.dropWhile Line.isEmpty with
  | [] => ⟨[], lines.length, true⟩
  | l :: rest =>
    if l.isOutside p then ⟨[], lines.length - (rest.length + 1), true⟩ else ⟨[], lines.length, true⟩

/-- Read blocks with so many levels left; a quotation takes one and a list item two. -/
def reader : Nat → Reader φ
  | 0, p, lines => pure (passOver p lines)
  | 1, p, lines => readBlocks recognise (reader 0) (reader 0) p false true lines
  | n + 2, p, lines => readBlocks recognise (reader (n + 1)) (reader n) p false true lines

def maxLevel : Nat := 20

def ofLines (lines : List Line) : Probed φ (List Block) :=
  Reading.blocks <$> reader recognise maxLevel Place.top lines

mutual

def definitions : Block → List Definition
  | .quote blocks => definitionsIn blocks
  | .list _ _ items => definitionsInItems items
  | .definition d => [d]
  | _ => []

def definitionsIn : List Block → List Definition
  | [] => []
  | b :: bs => b.definitions ++ definitionsIn bs

def definitionsInItems : List (List Block) → List Definition
  | [] => []
  | i :: is => definitionsIn i ++ definitionsInItems is

end

end Block

end DocPress.Markdown
