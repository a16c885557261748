import Mathlib.Data.List.Forall2
import DocPress.Document.Builder

/-!
# Nodes in the order of their tokens

Every token that stands for a node comes back as one node of the tree, and in document
order the nodes follow each other as their tokens do, wherever something is closed. What
is open is read as if it were closed at once: then closing a node moves it into the one
around it, and neither adds a node nor changes their order.
-/

set_option autoImplicit false

namespace DocPress

namespace Node

/-- A node apart from its children. -/
def bare (n : Node) : Node := { n with children := [] }

def bareWalk (ns : List Node) : List Node := (walkAll ns).map bare

@[simp] theorem bareWalk_nil : bareWalk [] = [] := rfl

theorem bareWalk_append (ns ms : List Node) : bareWalk (ns ++ ms) = bareWalk ns ++ bareWalk ms := by
  simp [bareWalk, walkAll_eq_flatMap]

theorem bareWalk_singleton (n : Node) : bareWalk [n] = n.bare :: bareWalk n.children := by
  simp [bareWalk, walkAll, walk_eq]

end Node

namespace Document

open Node

/-- The node that a directive stands for. The closing of a tag stands for none. -/
def directiveNode? : Directive → Option Node
  | .opening name attributes | .selfClosing name attributes =>
    some { kind := .tag, name := some name, attributes := attributes }
  | .call name arguments =>
    some { kind := .function, name := some name, attributes := [("args", .list arguments)] }
  | .closing _ => none

namespace Token

mutual

def nodes : Token → List Node
  | .opening c => [{ kind := c.kind, attributes := c.attributes }]
  | .leaf l => [l.node]
  | .directive d => (directiveNode? d).toList
  | .inline children => nodesAll children
  | .closing _ | .hidden | .unsupported _ => []

def nodesAll : List Token → List Node
  | [] => []
  | t :: ts => t.nodes ++ nodesAll ts

end

end Token

/-! ## What tokens tell -/

namespace Token

def plainContainers : List (Container × NodeKind) :=
  [(.paragraph, .paragraph), (.blockquote, .blockquote), (.item, .item), (.table, .table),
    (.tableHead, .tableHead), (.tableBody, .tableBody), (.tableRow, .tableRow),
    (.headerCell, .headerCell), (.dataCell, .dataCell), (.strong, .strong),
    (.emphasis, .emphasis), (.strike, .strike)]

def plainLeaves : List (Leaf × NodeKind) :=
  [(.rule, .rule), (.softBreak, .softBreak), (.hardBreak, .hardBreak)]

/-- What a token tells about the one node that it stands for: its kind, its name, its attributes in
their order, and its content. -/
inductive Tells : Token → Node → Prop
  | plain {c kind} (h : (c, kind) ∈ plainContainers) : Tells (.opening c) { kind := kind }
  | heading (level) :
      Tells (.opening (.heading level)) { kind := .heading, attributes := [("level", .int level)] }
  | bulletList :
      Tells (.opening .bulletList) { kind := .list, attributes := [("ordered", .bool false)] }
  | orderedList (start) :
      Tells (.opening (.orderedList start))
        { kind := .list, attributes := [("ordered", .bool true), ("start", .int start)] }
  | link (target) :
      Tells (.opening (.link target ""))
        { kind := .link, attributes := [("href", .string target)] }
  | titledLink (target) {title} (h : title ≠ "") :
      Tells (.opening (.link target title))
        { kind := .link, attributes := [("href", .string target), ("title", .string title)] }
  | plainLeaf {l kind} (h : (l, kind) ∈ plainLeaves) : Tells (.leaf l) { kind := kind }
  | text (s) : Tells (.leaf (.text s)) { kind := .text, content := some s }
  | code (s) : Tells (.leaf (.code s)) { kind := .code, content := some s }
  | fence (language s) :
      Tells (.leaf (.fence language s))
        { kind := .fence, attributes := [("language", .string language)], content := some s }
  | image (source alt) :
      Tells (.leaf (.image source alt ""))
        { kind := .image, attributes := [("src", .string source), ("alt", .string alt)] }
  | titledImage (source alt) {title} (h : title ≠ "") :
      Tells (.leaf (.image source alt title))
        { kind := .image
          attributes :=
            [("src", .string source), ("alt", .string alt), ("title", .string title)] }
  | openTag (name attributes) :
      Tells (.directive (.opening name attributes))
        { kind := .tag, name := some name, attributes := attributes }
  | emptyTag (name attributes) :
      Tells (.directive (.selfClosing name attributes))
        { kind := .tag, name := some name, attributes := attributes }
  | call (name arguments) :
      Tells (.directive (.call name arguments))
        { kind := .function, name := some name, attributes := [("args", .list arguments)] }

theorem tells_opening (c : Container) :
    Tells (.opening c) { kind := c.kind, attributes := c.attributes } := by
  cases c with
  | heading level => exact .heading level
  | bulletList => exact .bulletList
  | orderedList start => exact .orderedList start
  | link target title =>
    by_cases h : title = ""
    · subst h
      exact .link target
    · simp only [Container.attributes, Container.titleAttribute, if_neg h]
      exact .titledLink target h
  | _ => exact .plain (by decide)

theorem tells_leaf (l : Leaf) : Tells (.leaf l) l.node := by
  cases l with
  | text s => exact .text s
  | code s => exact .code s
  | fence language s => exact .fence language s
  | image source alt title =>
    by_cases h : title = ""
    · subst h
      exact .image source alt
    · simp only [Leaf.node, Container.titleAttribute, if_neg h]
      exact .titledImage source alt h
  | _ => exact .plainLeaf (by decide)

def standsForNode : Token → Bool
  | .closing _ | .directive (.closing _) | .hidden | .inline _ | .unsupported _ => false
  | .opening _ | .leaf _ | .directive _ => true

mutual

def flatten : Token → List Token
  | .inline ts => flattenAll ts
  | t => [t]

def flattenAll : List Token → List Token
  | [] => []
  | t :: ts => t.flatten ++ flattenAll ts

end

mutual

theorem tells_nodes (t : Token) :
    List.Forall₂ Tells (t.flatten.filter standsForNode) t.nodes := by
  cases t with
  | opening c => exact .cons (tells_opening c) .nil
  | leaf l => exact .cons (tells_leaf l) .nil
  | directive d =>
    cases d with
    | opening name attributes => exact .cons (.openTag name attributes) .nil
    | selfClosing name attributes => exact .cons (.emptyTag name attributes) .nil
    | call name arguments => exact .cons (.call name arguments) .nil
    | closing name => exact .nil
  | inline ts => exact tells_nodesAll ts
  | closing kind => exact .nil
  | hidden => exact .nil
  | unsupported name => exact .nil

/-- The nodes of a stream are what its tokens tell, one after the other. -/
theorem tells_nodesAll (ts : List Token) :
    List.Forall₂ Tells ((flattenAll ts).filter standsForNode) (nodesAll ts) := by
  cases ts with
  | nil => exact .nil
  | cons t ts =>
    rw [flattenAll, nodesAll, List.filter_append]
    exact List.rel_append (tells_nodes t) (tells_nodesAll ts)

end

end Token

/-! ## Building -/

theorem bareWalk_leaf (l : Leaf) : bareWalk [l.node] = [l.node] := by
  cases l <;> rfl

namespace Builder

/-- What open nodes would become if they were closed at once, in document order. -/
def openNodes : List Frame → List Node
  | [] => []
  | f :: fs => openNodes fs ++ bareWalk [f.node]

def nodes (b : Builder) : List Node := bareWalk b.roots.reverse ++ openNodes b.frames

theorem nodes_push (b : Builder) (kind : NodeKind) (name : Option String)
    (attributes : Attributes) :
    (b.push ⟨kind, name, attributes, []⟩).nodes =
      b.nodes ++ [{ kind := kind, name := name, attributes := attributes }] := by
  simp [nodes, push, openNodes, bareWalk_singleton, Frame.node, bare]

theorem nodes_append (b : Builder) (n : Node) : (b.append n).nodes = b.nodes ++ bareWalk [n] := by
  obtain ⟨frames, roots⟩ := b
  cases frames with
  | nil => simp [nodes, append, openNodes, bareWalk_append]
  | cons f fs =>
    have hchild : bareWalk [({ f with children := n :: f.children } : Frame).node] =
        bareWalk [f.node] ++ bareWalk [n] := by
      rw [bareWalk_singleton, bareWalk_singleton]
      simp only [Frame.node, List.reverse_cons, bareWalk_append]
      rfl
    simp only [nodes, append, openNodes, hchild, List.append_assoc]

theorem nodes_pop (b : Builder) : b.pop.nodes = b.nodes := by
  obtain ⟨frames, roots⟩ := b
  cases frames with
  | nil => rfl
  | cons f fs =>
    show (append ⟨fs, roots⟩ f.node).nodes = _
    rw [nodes_append]
    simp only [nodes, openNodes, List.append_assoc]

theorem nodes_popMany (k : Nat) (b : Builder) : (popMany k b).nodes = b.nodes := by
  induction k generalizing b with
  | zero => rfl
  | succ k ih => rw [popMany, ih, nodes_pop]

theorem nodes_closeContainer (source : String) (kind : NodeKind) (b : Builder) :
    (closeContainer source kind b).1.nodes = b.nodes := by
  unfold closeContainer
  split
  · rfl
  · exact nodes_popMany _ b

theorem nodes_closeTag (source name : String) (b : Builder) :
    (closeTag source name b).1.nodes = b.nodes := by
  unfold closeTag
  split
  · rfl
  · exact nodes_popMany _ b

theorem nodes_feedDirective (source : String) (b : Builder) (d : Directive) :
    (feedDirective source b d).1.nodes = b.nodes ++ (directiveNode? d).toList := by
  cases d with
  | opening name attributes => exact nodes_push b .tag (some name) attributes
  | closing name => rw [feedDirective, nodes_closeTag, directiveNode?, Option.toList_none,
      List.append_nil]
  | selfClosing name attributes => rw [feedDirective, nodes_append]; rfl
  | call name arguments => rw [feedDirective, nodes_append]; rfl

mutual

/-- A token adds the nodes that it stands for at the end. -/
theorem nodes_feed (source : String) (b : Builder) (t : Token) :
    (feed source b t).1.nodes = b.nodes ++ t.nodes := by
  cases t with
  | opening c => exact nodes_push b c.kind none c.attributes
  | closing kind => rw [feed, nodes_closeContainer, Token.nodes, List.append_nil]
  | hidden => exact (List.append_nil _).symm
  | directive d => exact nodes_feedDirective source b d
  | leaf l => rw [feed, nodes_append, bareWalk_leaf, Token.nodes]
  | inline ts => exact nodes_feedAll source b ts
  | unsupported name => exact (List.append_nil _).symm

theorem nodes_feedAll (source : String) (b : Builder) (ts : List Token) :
    (feedAll source b ts).1.nodes = b.nodes ++ Token.nodesAll ts := by
  cases ts with
  | nil => exact (List.append_nil _).symm
  | cons t ts =>
    rw [feedAll, Token.nodesAll]
    dsimp only
    rw [nodes_feedAll source _ ts, nodes_feed source b t, List.append_assoc]

end

/-! ## The finished tree -/

theorem length_frames_append (b : Builder) (n : Node) :
    (b.append n).frames.length = b.frames.length := by
  obtain ⟨frames, roots⟩ := b
  cases frames <;> rfl

theorem frames_popMany (b : Builder) : (popMany b.frames.length b).frames = [] := by
  obtain ⟨frames, roots⟩ := b
  generalize hk : frames.length = k
  induction k generalizing frames roots with
  | zero => rw [List.length_eq_zero_iff.1 hk, popMany]
  | succ k ih =>
    obtain ⟨f, fs, rfl⟩ := List.exists_cons_of_length_eq_add_one hk
    have hlength : (append ⟨fs, roots⟩ f.node).frames.length = k := by
      rw [length_frames_append]
      simpa using hk
    exact ih _ _ hlength

/-- When everything is closed, all nodes stand below the document. -/
theorem bareWalk_finish (source : String) (b : Builder) :
    bareWalk (b.finish source).1.children = b.nodes := by
  have hnodes := nodes_popMany b.frames.length b
  rw [nodes, frames_popMany, openNodes, List.append_nil] at hnodes
  exact hnodes

end Builder

theorem bareWalk_ofTokens (source : String) (ts : List Token) :
    bareWalk (ofTokens source ts).1.children = Token.nodesAll ts := by
  simp only [ofTokens]
  rw [Builder.bareWalk_finish, Builder.nodes_feedAll]
  rfl

/-- Below the document come the nodes that the tokens tell, in the order of the tokens. -/
theorem tells_ofTokens (source : String) (ts : List Token) :
    List.Forall₂ Token.Tells ((Token.flattenAll ts).filter Token.standsForNode)
      ((ofTokens source ts).1.walk.tail.map bare) := by
  rw [walk_eq, List.tail_cons]
  have hnodes := bareWalk_ofTokens source ts
  rw [bareWalk] at hnodes
  exact hnodes ▸ Token.tells_nodesAll ts

/-- The document of a token stream, read in document order, is a node for the document and then
one node for each token that stands for one, in the order of the tokens. -/
theorem walk_ofTokens (source : String) (ts : List Token) :
    (ofTokens source ts).1.walk.map bare = { kind := .document } :: Token.nodesAll ts := by
  rw [walk_eq, List.map_cons, ← bareWalk_ofTokens source ts]
  rfl

/-- A list closed before the item in it, a tag that crosses a paragraph, and closings of nothing. -/
example : ((ofTokens "" [.opening .bulletList, .opening .item, .closing .list,
      .directive (.opening "a" []), .opening .paragraph, .directive (.closing "b"),
      .inline [.leaf (.code "x"), .directive (.closing "a"), .leaf .rule],
      .closing .blockquote]).1.walk.map (·.kind)) =
    [.document, .list, .item, .tag, .paragraph, .code, .rule] := by
  decide

end Document

end DocPress
