import DocPress.Document.Builder
import DocPress.Markdown.Block
import DocPress.Markdown.Inline
import DocPress.Reporting

/-!
# Reading a document

A source is read into blocks, the text of each block into inline content,
and the token stream of both into a tree. Faults in directives are reported
once each, before what is noticed while the tree is built; a fault that
cannot be lived with ends the reading.
-/

set_option autoImplicit false

namespace DocPress.Document

open Text Markdown

def plainSource (s : List Char) : List Char :=
  (unifyNewlines s).map fun c => if c = '\x00' then Entity.replacement else c

section

variable {φ : Type} (inline : List Char → Probed φ (List Token))

def enclosed (c : Container) (ts : List Token) : List Token :=
  .opening c :: (ts ++ [.closing c.kind])

def textBlock (c : Container) (t : List Char) : Probed φ (List Token) :=
  (fun ts => enclosed c [.inline ts]) <$> inline t

def rowTokens (cell : Container) : Table.Row → Probed φ (List Token)
  | [] => pure []
  | t :: row => do
    let ts ← textBlock inline cell t
    let more ← rowTokens cell row
    pure (ts ++ more)

def rowsTokens : List Table.Row → Probed φ (List Token)
  | [] => pure []
  | row :: rows => do
    let ts ← rowTokens inline .dataCell row
    let more ← rowsTokens rows
    pure (enclosed .tableRow ts ++ more)

def tableTokens (header : Table.Row) (rows : List Table.Row) : Probed φ (List Token) := do
  let head ← rowTokens inline .headerCell header
  let body ← rowsTokens inline rows
  pure (enclosed .table (enclosed .tableHead (enclosed .tableRow head) ++
    (if rows.isEmpty then [] else enclosed .tableBody body)))

def language (info : List Char) : String := String.ofList ((words info).head?.getD [])

def listContainer : Option Nat → Container
  | none => .bulletList
  | some n => .orderedList n

mutual

/-- The tokens of a block. A paragraph of a tight list does not show. -/
def blockTokens (tight : Bool) : Block → Probed φ (List Token)
  | .paragraph t =>
    if tight then (fun ts => [.hidden, .inline ts, .hidden]) <$> inline t
    else textBlock inline .paragraph t
  | .heading level t => textBlock inline (.heading level) t
  | .rule => pure [.leaf .rule]
  | .code content => pure [.leaf (.fence "" (String.ofList content))]
  | .fence info content => pure [.leaf (.fence (language info) (String.ofList content))]
  | .html content => pure [.leaf (.text (String.ofList content))]
  | .quote blocks => enclosed .blockquote <$> blocksTokens false blocks
  | .list start tight items => enclosed (listContainer start) <$> itemsTokens tight items
  | .table header rows => tableTokens inline header rows
  | .directive d => pure [.directive d]
  | .definition _ => pure []

def blocksTokens (tight : Bool) : List Block → Probed φ (List Token)
  | [] => pure []
  | b :: bs => do
    let ts ← blockTokens tight b
    let more ← blocksTokens tight bs
    pure (ts ++ more)

def itemsTokens (tight : Bool) : List (List Block) → Probed φ (List Token)
  | [] => pure []
  | i :: is => do
    let ts ← blocksTokens tight i
    let more ← itemsTokens tight is
    pure (enclosed .item ts ++ more)

end

end

/-- The token stream of a source, with directives as a recogniser tells them. All blocks are read
before the text in them. -/
def tokensWith {φ : Type} (recognise : Directive.Recogniser φ) (source : String) :
    Probed φ (List Token) := do
  let blocks ← Block.ofLines recognise (Line.lines (plainSource source.toList))
  blocksTokens (Inline.read recognise (Block.definitionsIn blocks)) false blocks

def tokens (source : String) : Probed Directive.Fault (List Token) :=
  tokensWith Directive.probe source

def faultNotices (faults : List Directive.Fault) : List Notice :=
  faults.map .keptAsText

def read (name source : String) : Reporting Node :=
  let seen := tokens source
  match seen.notes.find? (!·.isMalformed) with
  | some fault =>
    ⟨faultNotices (seen.notes.takeWhile (·.isMalformed)), .error (.directive fault)⟩
  | none =>
    let (n, notices) := ofTokens name seen.value
    ⟨faultNotices seen.notes ++ notices, .ok n⟩

end DocPress.Document
