import DocPress.Value

/-!
# Document trees

A template is read into a tree whose nodes are Markdown blocks and inline
elements, tags and function calls. The nodes share one shape, so a tree may
also be given that no template is read into; a kind that is not known keeps
its label.
-/

set_option autoImplicit false

namespace DocPress

inductive NodeKind where
  | document
  | heading
  | paragraph
  | blockquote
  | list
  | item
  | table
  | tableHead
  | tableBody
  | tableRow
  | headerCell
  | dataCell
  | fence
  | rule
  | text
  | code
  | strong
  | emphasis
  | strike
  | link
  | image
  | softBreak
  | hardBreak
  | tag
  | function
  | other (label : String)
  deriving DecidableEq, Repr, Inhabited

namespace NodeKind

def label : NodeKind → String
  | .document => "document"
  | .heading => "heading"
  | .paragraph => "paragraph"
  | .blockquote => "blockquote"
  | .list => "list"
  | .item => "item"
  | .table => "table"
  | .tableHead => "thead"
  | .tableBody => "tbody"
  | .tableRow => "tr"
  | .headerCell => "th"
  | .dataCell => "td"
  | .fence => "fence"
  | .rule => "hr"
  | .text => "text"
  | .code => "code"
  | .strong => "strong"
  | .emphasis => "em"
  | .strike => "s"
  | .link => "link"
  | .image => "image"
  | .softBreak => "softbreak"
  | .hardBreak => "hardbreak"
  | .tag => "tag"
  | .function => "function"
  | .other label => label

def known : List NodeKind :=
  [.document, .heading, .paragraph, .blockquote, .list, .item, .table, .tableHead, .tableBody,
    .tableRow, .headerCell, .dataCell, .fence, .rule, .text, .code, .strong, .emphasis, .strike,
    .link, .image, .softBreak, .hardBreak, .tag, .function]

def ofLabel (s : String) : NodeKind := (known.find? (·.label == s)).getD (.other s)

theorem label_ofLabel (s : String) : (ofLabel s).label = s := by
  unfold ofLabel
  cases h : known.find? (·.label == s) with
  | none => rfl
  | some k => simpa using List.find?_some h

end NodeKind

/-- One node of a document tree. A tag or a call carries its name. -/
structure Node where
  kind : NodeKind
  name : Option String := none
  attributes : Attributes := []
  children : List Node := []
  content : Option String := none
  deriving Inhabited, Repr

namespace Node

def isTag (n : Node) : Bool := n.kind == .tag

def isTagNamed (n : Node) (name : String) : Bool := n.kind == .tag && n.name == some name

mutual

/-- The node and everything below it, each node before its children. -/
def walk : Node → List Node
  | ⟨kind, name, attributes, children, content⟩ =>
    ⟨kind, name, attributes, children, content⟩ :: walkAll children

def walkAll : List Node → List Node
  | [] => []
  | n :: ns => n.walk ++ walkAll ns

end

theorem walk_eq (n : Node) : n.walk = n :: walkAll n.children := by
  cases n
  rfl

theorem walkAll_eq_flatMap (ns : List Node) : walkAll ns = ns.flatMap walk := by
  induction ns with
  | nil => rfl
  | cons n ns ih => simp [walkAll, ih]

end Node

end DocPress
