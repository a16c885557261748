import DocPress.Document.Token
import DocPress.Notice

/-!
# Building the document tree

Tokens are fed to a stack of open nodes, innermost first. A container or an
opened tag is pushed and takes what follows as its children. Closing a tag
closes everything inside it; closing a container closes the tags that are
still open in it, with a notice for each. A tag that is closed without being
open is dropped with a notice, and so is, silently, a container.
-/

set_option autoImplicit false

namespace DocPress.Document

/-- An open node; its children are kept newest first. -/
structure Frame where
  kind : NodeKind
  name : Option String
  attributes : Attributes
  children : List Node
  deriving Inhabited, Repr

def Frame.node (f : Frame) : Node :=
  { kind := f.kind, name := f.name, attributes := f.attributes, children := f.children.reverse }

def Frame.isTag (f : Frame) : Bool := f.kind == .tag

def Frame.isTagNamed (f : Frame) (name : String) : Bool := f.kind == .tag && f.name == some name

def Frame.isContainer (f : Frame) (kind : NodeKind) : Bool := f.kind == kind && f.name == none

/-- The open nodes, innermost first, and the finished top-level nodes, newest first. -/
structure Builder where
  frames : List Frame
  roots : List Node
  deriving Inhabited, Repr

namespace Builder

def start : Builder := ⟨[], []⟩

def append (b : Builder) (n : Node) : Builder :=
  match b.frames with
  | [] => ⟨[], n :: b.roots⟩
  | f :: fs => ⟨{ f with children := n :: f.children } :: fs, b.roots⟩

def push (b : Builder) (f : Frame) : Builder := ⟨f :: b.frames, b.roots⟩

def pop (b : Builder) : Builder :=
  match b.frames with
  | [] => b
  | f :: fs => append ⟨fs, b.roots⟩ f.node

def popMany : Nat → Builder → Builder
  | 0, b => b
  | n + 1, b => popMany n b.pop

def tagName (f : Frame) : String := f.name.getD ""

def closeContainer (source : String) (kind : NodeKind) (b : Builder) : Builder × List Notice :=
  match b.frames.findIdx? (·.isContainer kind) with
  | none => (b, [])
  | some i =>
    (popMany (i + 1) b,
      ((b.frames.take i).filter Frame.isTag).map fun f =>
        .closedImplicitly source (tagName f) kind.label)

def closeTag (source : String) (name : String) (b : Builder) : Builder × List Notice :=
  match b.frames.findIdx? (·.isTagNamed name) with
  | none => (b, [.strayClosing source name])
  | some i => (popMany (i + 1) b, [])

def feedDirective (source : String) (b : Builder) : Directive → Builder × List Notice
  | .opening name attributes => (b.push ⟨.tag, some name, attributes, []⟩, [])
  | .closing name => closeTag source name b
  | .selfClosing name attributes =>
    (b.append { kind := .tag, name := some name, attributes := attributes }, [])
  | .call name arguments =>
    (b.append
      { kind := .function, name := some name, attributes := [("args", .list arguments)] }, [])

mutual

def feed (source : String) (b : Builder) : Token → Builder × List Notice
  | .opening c => (b.push ⟨c.kind, none, c.attributes, []⟩, [])
  | .closing kind => closeContainer source kind b
  | .hidden => (b, [])
  | .directive d => feedDirective source b d
  | .leaf l => (b.append l.node, [])
  | .inline children => feedAll source b children
  | .unsupported _ => (b, [])

def feedAll (source : String) (b : Builder) : List Token → Builder × List Notice
  | [] => (b, [])
  | t :: ts =>
    let (b, notices) := feed source b t
    let (b, more) := feedAll source b ts
    (b, notices ++ more)

end

/-- Close what is still open; a tag among it was not closed. -/
def finish (source : String) (b : Builder) : Node × List Notice :=
  ({ kind := .document, children := (popMany b.frames.length b).roots.reverse },
    (b.frames.filter Frame.isTag).map fun f => .unclosedTag source (tagName f))

end Builder

def ofTokens (source : String) (ts : List Token) : Node × List Notice :=
  let (b, notices) := Builder.feedAll source Builder.start ts
  let (n, more) := b.finish source
  (n, notices ++ more)

end DocPress.Document
