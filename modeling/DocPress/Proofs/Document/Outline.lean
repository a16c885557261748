import DocPress.Document.Reading
import DocPress.Proofs.Document.Flattening
import DocPress.Proofs.Markdown.Outline

/-!
# The nodes of an outline

The blocks of an outline hold no link definitions, and their tokens build its nodes: the phrase of
an item stands in the item itself, without a paragraph around it.
-/

set_option autoImplicit false

namespace DocPress

/-! ## What tokens build -/

namespace Document

def Builds (ts : List Token) (ns : List Node) : Prop :=
  ∀ source b, Builder.feedAll source b ts = (ns.foldl Builder.append b, [])

namespace Builds

variable {ts us : List Token} {ns ms : List Node}

theorem append (h : Builds ts ns) (h' : Builds us ms) : Builds (ts ++ us) (ns ++ ms) := by
  intro source b
  rw [Builder.feedAll_append, h, h', List.foldl_append]
  rfl

theorem enclosed (c : Container) (h : Builds ts ns) :
    Builds (enclosed c ts) [containerNode c ns] := by
  intro source b
  have hfed := h source (b.push ⟨c.kind, none, c.attributes, []⟩)
  have hclose : Builder.closeContainer source c.kind
      (b.push ⟨c.kind, none, c.attributes, ns.reverse⟩) = (b.append (containerNode c ns), []) := by
    rw [Builder.closeContainer_push b (by simp [Frame.isContainer])]
    simp [Frame.node, containerNode]
  simp only [Document.enclosed, Builder.feedAll, Builder.feed, Builder.feedAll_append, hfed,
    Builder.foldl_append_push, List.append_nil, hclose, List.foldl_cons, List.foldl_nil]

theorem nil : Builds [] [] := fun _ _ => rfl

theorem inline_leaf (l : Leaf) : Builds [.inline [.leaf l]] [l.node] := fun _ _ => rfl

theorem hidden : Builds [.hidden] [] := fun _ _ => rfl

theorem ofTokens (h : Builds ts ns) (source : String) :
    ofTokens source ts = ({ kind := .document, children := ns }, []) := by
  rw [Document.ofTokens, h, Builder.start, Builder.foldl_append_roots]
  simp [Builder.finish, Builder.popMany]

end Builds

end Document

namespace Markdown

open Document

/-! ## Nodes -/

def Phrase.node (t : Phrase) : Node := (Leaf.text (String.ofList t.text)).node

mutual

def Entries.nodes : Entries → List Node
  | .last t ordered below => [containerNode .item (t.node :: below.nodes ordered)]
  | .more t ordered below others =>
    containerNode .item (t.node :: below.nodes ordered) :: others.nodes

def Lists.nodes (ordered : Bool) : Lists → List Node
  | .none => []
  | .list items others =>
    containerNode (listContainer (startOf ordered)) items.nodes :: others.nodes !ordered

end

def Outline.nodes (o : Outline) : List Node :=
  (o.paragraphs.map fun t => containerNode .paragraph [t.node]) ++ o.lists.nodes o.ordered

/-! ## Tokens -/

section

variable {φ : Type} (recognise : Directive.Recogniser φ)

theorem tokens_entry {t : Phrase} {bs : List Block} {ts : List Token} {ns : List Node}
    (hts : blocksTokens (Inline.read recognise []) true bs = pure ts) (hbuilds : Builds ts ns) :
    ∃ us, blocksTokens (Inline.read recognise []) true (.paragraph t.text :: bs) = pure us ∧
      Builds (enclosed .item us) [containerNode .item (t.node :: ns)] := by
  refine ⟨[.hidden, .inline [.leaf (.text (String.ofList t.text))], .hidden] ++ ts, ?_, ?_⟩
  · rw [blocksTokens, blockTokens, if_pos rfl, t.isPhrase.read, hts]
    rfl
  · have htext := Builds.hidden.append ((Builds.inline_leaf (.text (String.ofList t.text))).append
      (Builds.hidden.append hbuilds))
    exact htext.enclosed .item

mutual

theorem tokens_entries : ∀ items : Entries, ∃ ts,
    itemsTokens (Inline.read recognise []) true items.blocks = pure ts ∧ Builds ts items.nodes
  | .last t ordered below => by
    obtain ⟨ts, hts, hbuilds⟩ := tokens_lists below ordered true
    obtain ⟨us, hus, hbuilds⟩ := tokens_entry recognise (t := t) hts hbuilds
    refine ⟨enclosed .item us ++ [], ?_, hbuilds.append .nil⟩
    rw [Entries.blocks, itemsTokens, hus]
    rfl
  | .more t ordered below others => by
    obtain ⟨ts, hts, hbuilds⟩ := tokens_lists below ordered true
    obtain ⟨us, hus, hbuilds⟩ := tokens_entry recognise (t := t) hts hbuilds
    obtain ⟨vs, hvs, hothers⟩ := tokens_entries others
    refine ⟨enclosed .item us ++ vs, ?_, hbuilds.append hothers⟩
    rw [Entries.blocks, itemsTokens, hus, hvs]
    rfl

theorem tokens_lists : ∀ (lists : Lists) (ordered tight : Bool), ∃ ts,
    blocksTokens (Inline.read recognise []) tight (lists.blocks ordered) = pure ts ∧
      Builds ts (lists.nodes ordered)
  | .none, _, _ => ⟨[], rfl, .nil⟩
  | .list items others, ordered, tight => by
    obtain ⟨ts, hts, hbuilds⟩ := tokens_entries items
    obtain ⟨us, hus, hothers⟩ := tokens_lists others (!ordered) tight
    refine ⟨enclosed (listContainer (startOf ordered)) ts ++ us, ?_,
      (hbuilds.enclosed _).append hothers⟩
    rw [Lists.blocks, blocksTokens, blockTokens, hts, hus]
    rfl

end

theorem tokens_outline (o : Outline) : ∃ ts,
    blocksTokens (Inline.read recognise []) false o.blocks = pure ts ∧ Builds ts o.nodes := by
  obtain ⟨ts, ordered, lists⟩ := o
  induction ts with
  | nil => exact tokens_lists recognise lists ordered false
  | cons t ts ih =>
    obtain ⟨us, hus, hbuilds⟩ := ih
    refine ⟨enclosed .paragraph [.inline [.leaf (.text (String.ofList t.text))]] ++ us, ?_,
      ((Builds.inline_leaf _).enclosed .paragraph).append hbuilds⟩
    have hcons : Outline.blocks ⟨t :: ts, ordered, lists⟩ =
        .paragraph t.text :: Outline.blocks ⟨ts, ordered, lists⟩ := rfl
    rw [hcons, blocksTokens, blockTokens, if_neg (by simp), textBlock, t.isPhrase.read, hus]
    rfl

end

/-! ## Link definitions -/

mutual

theorem definitionsInItems_blocks : ∀ items : Entries,
    Block.definitionsInItems items.blocks = []
  | .last _ ordered below => by
    simp only [Entries.blocks, Block.definitionsInItems, Block.definitionsIn, Block.definitions,
      definitionsIn_blocks, List.append_nil]
  | .more _ ordered below others => by
    simp only [Entries.blocks, Block.definitionsInItems, Block.definitionsIn, Block.definitions,
      definitionsIn_blocks, definitionsInItems_blocks, List.append_nil]

theorem definitionsIn_blocks : ∀ (lists : Lists) (ordered : Bool),
    Block.definitionsIn (lists.blocks ordered) = []
  | .none, _ => rfl
  | .list items others, ordered => by
    simp only [Lists.blocks, Block.definitionsIn, Block.definitions, definitionsInItems_blocks,
      definitionsIn_blocks, List.append_nil]

end

theorem definitionsIn_outline (o : Outline) : Block.definitionsIn o.blocks = [] := by
  obtain ⟨ts, ordered, lists⟩ := o
  induction ts with
  | nil => exact definitionsIn_blocks lists ordered
  | cons t ts ih => exact ih

end Markdown

end DocPress
