import DocPress.Node
import DocPress.Directive.Basic

/-!
# Document tokens

A document as a flat stream: Markdown containers are opened and closed,
directives stand where they were written, and leaves carry content. The
inline content of a block is a stream of its own inside the outer one. A
paragraph of a tight list leaves marks that no node comes from.
-/

set_option autoImplicit false

namespace DocPress.Document

inductive Container where
  | paragraph
  | heading (level : Nat)
  | blockquote
  | bulletList
  | orderedList (start : Nat)
  | item
  | table
  | tableHead
  | tableBody
  | tableRow
  | headerCell
  | dataCell
  | strong
  | emphasis
  | strike
  | link (target title : String)
  deriving DecidableEq, Repr, Inhabited

namespace Container

def kind : Container → NodeKind
  | .paragraph => .paragraph
  | .heading _ => .heading
  | .blockquote => .blockquote
  | .bulletList | .orderedList _ => .list
  | .item => .item
  | .table => .table
  | .tableHead => .tableHead
  | .tableBody => .tableBody
  | .tableRow => .tableRow
  | .headerCell => .headerCell
  | .dataCell => .dataCell
  | .strong => .strong
  | .emphasis => .emphasis
  | .strike => .strike
  | .link .. => .link

def titleAttribute (title : String) : Attributes :=
  if title = "" then [] else [("title", .string title)]

def attributes : Container → Attributes
  | .heading level => [("level", .int level)]
  | .bulletList => [("ordered", .bool false)]
  | .orderedList start => [("ordered", .bool true), ("start", .int start)]
  | .link target title => ("href", .string target) :: titleAttribute title
  | _ => []

end Container

inductive Leaf where
  | text (content : String)
  | code (content : String)
  | fence (language content : String)
  | rule
  | softBreak
  | hardBreak
  | image (source alt title : String)
  deriving DecidableEq, Repr, Inhabited

def Leaf.node : Leaf → Node
  | .text s => { kind := .text, content := some s }
  | .code s => { kind := .code, content := some s }
  | .fence language s =>
    { kind := .fence, attributes := [("language", .string language)], content := some s }
  | .rule => { kind := .rule }
  | .softBreak => { kind := .softBreak }
  | .hardBreak => { kind := .hardBreak }
  | .image source alt title =>
    { kind := .image,
      attributes := ("src", .string source) :: ("alt", .string alt) ::
        Container.titleAttribute title }

inductive Token where
  | opening (c : Container)
  | closing (kind : NodeKind)
  | hidden
  | directive (d : Directive)
  | leaf (l : Leaf)
  | inline (children : List Token)
  | unsupported (name : String)
  deriving Inhabited, Repr

end DocPress.Document
