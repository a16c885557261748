import DocPress.Document.Builder

/-!
# Trees and their flattened streams

A tree is flattened by writing a container between its opening and its closing mark, a tag
between two directives and everything else as one token. While the tokens of a node are fed,
what was open before stays as it is below, and each closing finds its own opening on top of
it. So the builder finds the tree again, in which lists may stand in lists and tags in tags
of the same name, and it has nothing to report.
-/

set_option autoImplicit false

namespace DocPress.Document

namespace Token

mutual

/-- A token without inline content: the content is a part of the stream around it. -/
def spliced : Token → List Token
  | .inline children => splicedAll children
  | t => [t]

def splicedAll : List Token → List Token
  | [] => []
  | t :: ts => t.spliced ++ splicedAll ts

end

end Token

/-! ## The nodes that tokens stand for -/

def containerNode (c : Container) (children : List Node) : Node :=
  { kind := c.kind, attributes := c.attributes, children := children }

def tagNode (name : String) (attributes : Attributes) (children : List Node) : Node :=
  { kind := .tag, name := some name, attributes := attributes, children := children }

def callNode (name : String) (arguments : List Value) : Node :=
  { kind := .function, name := some name, attributes := [("args", .list arguments)] }

/-- A node that comes from tokens, apart from its children. -/
inductive IsSupported : Node → Prop
  | leaf (l : Leaf) : IsSupported l.node
  | container (c : Container) (children : List Node) : IsSupported (containerNode c children)
  | tag (name : String) (attributes : Attributes) (children : List Node) :
      IsSupported (tagNode name attributes children)
  | call (name : String) (arguments : List Value) : IsSupported (callNode name arguments)

/-- The streams that some nodes are flattened to. A tag without children may be one token. -/
inductive Flattens : List Node → List Token → Prop
  | nil : Flattens [] []
  | leaf (l : Leaf) {ns : List Node} {ts : List Token} :
      Flattens ns ts → Flattens (l.node :: ns) (.leaf l :: ts)
  | container (c : Container) {children ns : List Node} {inner ts : List Token} :
      Flattens children inner → Flattens ns ts →
      Flattens (containerNode c children :: ns) (.opening c :: (inner ++ .closing c.kind :: ts))
  | tag (name : String) (attributes : Attributes) {children ns : List Node}
      {inner ts : List Token} : Flattens children inner → Flattens ns ts →
      Flattens (tagNode name attributes children :: ns)
        (.directive (.opening name attributes) :: (inner ++ .directive (.closing name) :: ts))
  | selfClosing (name : String) (attributes : Attributes) {ns : List Node} {ts : List Token} :
      Flattens ns ts →
      Flattens (tagNode name attributes [] :: ns) (.directive (.selfClosing name attributes) :: ts)
  | call (name : String) (arguments : List Value) {ns : List Node} {ts : List Token} :
      Flattens ns ts →
      Flattens (callNode name arguments :: ns) (.directive (.call name arguments) :: ts)

namespace Builder

variable {source : String}

theorem feedAll_append (b : Builder) (ts us : List Token) :
    feedAll source b (ts ++ us) =
      ((feedAll source (feedAll source b ts).1 us).1,
        (feedAll source b ts).2 ++ (feedAll source (feedAll source b ts).1 us).2) := by
  induction ts generalizing b with
  | nil => rfl
  | cons t ts ih => simp only [List.cons_append, feedAll, ih, List.append_assoc]

mutual

theorem feedAll_spliced (b : Builder) : ∀ t : Token, feedAll source b t.spliced = feed source b t
  | .inline children => feedAll_splicedAll b children
  | .opening _ | .closing _ | .hidden | .directive _ | .leaf _ | .unsupported _ => by
    simp only [Token.spliced, feedAll, List.append_nil]

theorem feedAll_splicedAll (b : Builder) :
    ∀ ts : List Token, feedAll source b (Token.splicedAll ts) = feedAll source b ts
  | [] => rfl
  | t :: ts => by
    rw [Token.splicedAll, feedAll_append, feedAll_spliced b t, feedAll_splicedAll _ ts]
    rfl

end

/-! ## Closing what is on top -/

/-- Nodes that are finished while a node is open become its children. -/
theorem foldl_append_push (b : Builder) (f : Frame) (ns : List Node) :
    ns.foldl append (b.push f) = b.push { f with children := ns.reverse ++ f.children } := by
  induction ns generalizing f with
  | nil => rfl
  | cons n ns ih =>
    rw [List.foldl_cons, List.reverse_cons, List.append_assoc]
    exact ih { f with children := n :: f.children }

theorem foldl_append_roots (ns roots : List Node) :
    ns.foldl append ⟨[], roots⟩ = ⟨[], ns.reverse ++ roots⟩ := by
  induction ns generalizing roots with
  | nil => rfl
  | cons n ns ih =>
    rw [List.foldl_cons, List.reverse_cons, List.append_assoc]
    exact ih (n :: roots)

theorem closeContainer_push (b : Builder) {f : Frame} {kind : NodeKind}
    (h : f.isContainer kind = true) :
    closeContainer source kind (b.push f) = (b.append f.node, []) := by
  have hfound : (f :: b.frames).findIdx? (·.isContainer kind) = some 0 := by
    rw [List.findIdx?_cons, h]
    rfl
  simp only [closeContainer, push, hfound]
  rfl

theorem closeTag_push (b : Builder) {f : Frame} {name : String} (h : f.isTagNamed name = true) :
    closeTag source name (b.push f) = (b.append f.node, []) := by
  have hfound : (f :: b.frames).findIdx? (·.isTagNamed name) = some 0 := by
    rw [List.findIdx?_cons, h]
    rfl
  simp only [closeTag, push, hfound]
  rfl

/-- The stream of some nodes adds them to what is open, without a notice. -/
theorem feedAll_of_flattens {ns : List Node} {ts : List Token} (h : Flattens ns ts) (b : Builder) :
    feedAll source b ts = (ns.foldl append b, []) := by
  induction h generalizing b with
  | nil => rfl
  | leaf l _ ih => simp only [feedAll, feed, ih, List.foldl_cons, List.nil_append]
  | selfClosing name attributes _ ih | call name arguments _ ih =>
    simp only [feedAll, feed, feedDirective, ih, List.foldl_cons, List.nil_append]
    rfl
  | @container c children ns inner ts _ _ ih ihs =>
    have hclose : closeContainer source c.kind
        (b.push ⟨c.kind, none, c.attributes, children.reverse⟩) =
        (b.append (containerNode c children), []) := by
      rw [closeContainer_push b (by simp [Frame.isContainer])]
      simp [Frame.node, containerNode]
    simp only [feedAll, feed, feedAll_append, ih, foldl_append_push, List.append_nil, hclose, ihs,
      List.foldl_cons]
  | @tag name attributes children ns inner ts _ _ ih ihs =>
    have hclose : closeTag source name (b.push ⟨.tag, some name, attributes, children.reverse⟩) =
        (b.append (tagNode name attributes children), []) := by
      rw [closeTag_push b (by simp [Frame.isTagNamed])]
      simp [Frame.node, tagNode]
    simp only [feedAll, feed, feedDirective, feedAll_append, ih, foldl_append_push, List.append_nil,
      hclose, ihs, List.foldl_cons]

end Builder

/-! ## Every supported tree has a stream -/

theorem Flattens.append {ns ms : List Node} {ts us : List Token} (h : Flattens ns ts)
    (hms : Flattens ms us) : Flattens (ns ++ ms) (ts ++ us) := by
  induction h with
  | nil => exact hms
  | leaf l _ ih => exact .leaf l ih
  | container c hinner _ _ ihs => simpa using Flattens.container c hinner ihs
  | tag name attributes hinner _ _ ihs => simpa using Flattens.tag name attributes hinner ihs
  | selfClosing name attributes _ ih => exact .selfClosing name attributes ih
  | call name arguments _ ih => exact .call name arguments ih

theorem exists_flattens_singleton {n : Node} (h : IsSupported n)
    (hbelow : ∃ ts, Flattens n.children ts) : ∃ ts, Flattens [n] ts := by
  obtain ⟨ts, hts⟩ := hbelow
  cases h with
  | leaf l => exact ⟨_, .leaf l .nil⟩
  | container c children => exact ⟨_, .container c hts .nil⟩
  | tag name attributes children => exact ⟨_, .tag name attributes hts .nil⟩
  | call name arguments => exact ⟨_, .call name arguments .nil⟩

mutual

theorem exists_flattens : ∀ n : Node, (∀ m ∈ n.walk, IsSupported m) → ∃ ts, Flattens [n] ts
  | ⟨kind, name, attributes, children, content⟩, h => by
    rw [Node.walk, List.forall_mem_cons] at h
    exact exists_flattens_singleton h.1 (exists_flattensAll children h.2)

theorem exists_flattensAll :
    ∀ ns : List Node, (∀ m ∈ Node.walkAll ns, IsSupported m) → ∃ ts, Flattens ns ts
  | [], _ => ⟨[], .nil⟩
  | n :: ns, h => by
    rw [Node.walkAll, List.forall_mem_append] at h
    obtain ⟨ts, hts⟩ := exists_flattens n h.1
    obtain ⟨us, hus⟩ := exists_flattensAll ns h.2
    exact ⟨ts ++ us, hts.append hus⟩

end

theorem isSupported_of_flattens {ns : List Node} {ts : List Token} (h : Flattens ns ts) :
    ∀ m ∈ Node.walkAll ns, IsSupported m := by
  induction h with
  | nil => nofun
  | leaf l _ ih =>
    have hwalk : l.node.walk = [l.node] := by cases l <;> rfl
    rw [Node.walkAll, hwalk, List.forall_mem_append, List.forall_mem_singleton]
    exact ⟨.leaf l, ih⟩
  | container c _ _ ih ihs =>
    rw [Node.walkAll, List.forall_mem_append, Node.walk_eq, List.forall_mem_cons]
    exact ⟨⟨.container c _, ih⟩, ihs⟩
  | tag name attributes _ _ ih ihs =>
    rw [Node.walkAll, List.forall_mem_append, Node.walk_eq, List.forall_mem_cons]
    exact ⟨⟨.tag name attributes _, ih⟩, ihs⟩
  | selfClosing name attributes _ ih =>
    rw [Node.walkAll, List.forall_mem_append, Node.walk_eq, List.forall_mem_cons]
    exact ⟨⟨.tag name attributes [], nofun⟩, ih⟩
  | call name arguments _ ih =>
    rw [Node.walkAll, List.forall_mem_append, Node.walk_eq, List.forall_mem_cons]
    exact ⟨⟨.call name arguments, nofun⟩, ih⟩

/-- The documents that can be flattened are those of supported nodes, and such a document is what
the builder makes of every stream that it is flattened to, wherever inline content is set apart.
There is no notice. -/
theorem ofTokens_of_flattened (source : String) (ns : List Node) :
    ((∃ ts, Flattens ns ts) ↔ ∀ m ∈ Node.walkAll ns, IsSupported m) ∧
      ∀ ts, Flattens ns (Token.splicedAll ts) →
        ofTokens source ts = ({ kind := .document, children := ns }, []) := by
  refine ⟨⟨fun ⟨_, h⟩ => isSupported_of_flattens h, exists_flattensAll ns⟩, fun ts hts => ?_⟩
  have hfed : Builder.feedAll source .start ts = (⟨[], ns.reverse⟩, []) := by
    rw [← Builder.feedAll_splicedAll, Builder.feedAll_of_flattens hts, Builder.start,
      Builder.foldl_append_roots, List.append_nil]
  simp [ofTokens, hfed, Builder.finish, Builder.popMany]

def nestedNodes : List Node :=
  [containerNode .bulletList [containerNode .item [
    containerNode .bulletList [containerNode .item [(Leaf.text "x").node]]]],
    tagNode "a" [] [tagNode "a" [] [], tagNode "a" [("k", .int 1)] [callNode "ref" [.null]]]]

def nestedTokens : List Token :=
  [.opening .bulletList, .opening .item, .opening .bulletList, .opening .item,
    .inline [.leaf (.text "x")], .closing .item, .closing .list, .closing .item, .closing .list,
    .directive (.opening "a" []), .directive (.selfClosing "a" []),
    .directive (.opening "a" [("k", .int 1)]), .directive (.call "ref" [.null]),
    .directive (.closing "a"), .directive (.closing "a")]

theorem ofTokens_of_nested_tags :
    Flattens nestedNodes (Token.splicedAll nestedTokens) ∧
      (∀ m ∈ Node.walkAll nestedNodes, IsSupported m) ∧
      ofTokens "a.mdoc" nestedTokens = ({ kind := .document, children := nestedNodes }, []) := by
  have h : Flattens nestedNodes (Token.splicedAll nestedTokens) :=
    .container .bulletList
      (.container .item
        (.container .bulletList (.container .item (.leaf (.text "x") .nil) .nil) .nil) .nil)
      (.tag "a" []
        (.selfClosing "a" [] (.tag "a" [("k", .int 1)] (.call "ref" [.null] .nil) .nil)) .nil)
  obtain ⟨hiff, hbuilt⟩ := ofTokens_of_flattened "a.mdoc" nestedNodes
  exact ⟨h, hiff.1 ⟨_, h⟩, hbuilt nestedTokens h⟩

end DocPress.Document
