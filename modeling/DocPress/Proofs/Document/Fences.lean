import DocPress.Proofs.Document.Order
import DocPress.Proofs.Document.Shape
import DocPress.Proofs.Markdown.Content
import DocPress.Proofs.Markdown.Pieces
import DocPress.Proofs.Text.Scanning

/-!
# The code of a document

Code in a document comes from blocks of code only, and the tree keeps all of it: its language is
one word or nothing, and its characters are those of the source, with line ends as line feeds and
no null character.
-/

set_option autoImplicit false

namespace DocPress

namespace Document

open Text Node Markdown

def IsCode (q : Char → Prop) (n : Node) : Prop := ∃ language content,
  n = (Leaf.fence (String.ofList language) (String.ofList content)).node ∧
    (∀ c ∈ language, isBlank c = false ∧ q c) ∧ ∀ c ∈ content, q c

def AreCode (q : Char → Prop) (ns : List Node) : Prop := ∀ n ∈ ns, n.kind = .fence → IsCode q n

variable {q : Char → Prop}

theorem nodesAll_append (ts us : List Token) :
    Token.nodesAll (ts ++ us) = Token.nodesAll ts ++ Token.nodesAll us := by
  induction ts with
  | nil => rfl
  | cons t ts ih => rw [List.cons_append, Token.nodesAll, Token.nodesAll, ih, List.append_assoc]

theorem areCode_append {ts us : List Token} :
    AreCode q (Token.nodesAll (ts ++ us)) ↔
      AreCode q (Token.nodesAll ts) ∧ AreCode q (Token.nodesAll us) := by
  rw [nodesAll_append]
  exact List.forall_mem_append

theorem areCode_of_kind {n : Node} (h : n.kind ≠ .fence) : AreCode q [n] :=
  List.forall_mem_singleton.2 fun hk => absurd hk h

theorem areCode_singleton {t : Token} (h : AreCode q t.nodes) : AreCode q (Token.nodesAll [t]) := by
  rw [Token.nodesAll, Token.nodesAll, List.append_nil]
  exact h

theorem areCode_directive (d : Directive) : AreCode q (Token.directive d).nodes := by
  cases d <;> simp [Token.nodes, directiveNode?, AreCode]

theorem areCode_spans {ts : List Token} (h : ∀ t ∈ ts, t.isSpan = true) :
    AreCode q (Token.nodesAll ts) := by
  induction ts with
  | nil => nofun
  | cons t ts ih =>
    obtain ⟨ht, hts⟩ := List.forall_mem_cons.1 h
    refine List.forall_mem_append.2 ⟨?_, ih hts⟩
    cases t with
    | opening c =>
      refine areCode_of_kind (fun hk => ?_)
      cases c <;> cases hk
    | leaf l =>
      refine areCode_of_kind (fun hk => ?_)
      cases l with
      | fence => cases ht
      | _ => cases hk
    | directive d => exact areCode_directive d
    | closing => nofun
    | hidden | inline | unsupported => cases ht

theorem areCode_enclosed {ts : List Token} (h : AreCode q (Token.nodesAll ts)) {c : Container} :
    AreCode q (Token.nodesAll (enclosed c ts)) := by
  have hopening : AreCode q (Token.nodesAll [.opening c]) :=
    areCode_singleton (areCode_of_kind (by cases c <;> nofun))
  have hclosing : AreCode q (Token.nodesAll [.closing c.kind]) := areCode_singleton nofun
  exact areCode_append.2 ⟨hopening, areCode_append.2 ⟨h, hclosing⟩⟩

/-- The language of code is made of what stands behind the marks of the fence. -/
theorem mem_language {info : List Char} (h : ∀ c ∈ info, q c) :
    ∀ c ∈ (words info).head?.getD [], isBlank c = false ∧ q c := by
  cases hw : (words info).head? with
  | none => nofun
  | some w => exact mem_words h w (List.mem_of_mem_head? hw)

section

variable {φ : Type} {inline : List Char → Probed φ (List Token)}

section

variable (hinline : ∀ t, ∀ u ∈ (inline t).value, u.isSpan = true)

include hinline

theorem areCode_textBlock (c : Container) (t : List Char) :
    AreCode q (Token.nodesAll (textBlock inline c t).value) :=
  areCode_enclosed (areCode_singleton (areCode_spans (hinline t)))

theorem areCode_rowTokens (cell : Container) (row : Table.Row) :
    AreCode q (Token.nodesAll (rowTokens inline cell row).value) := by
  induction row with
  | nil => nofun
  | cons t row ih => exact areCode_append.2 ⟨areCode_textBlock hinline cell t, ih⟩

theorem areCode_rowsTokens (rows : List Table.Row) :
    AreCode q (Token.nodesAll (rowsTokens inline rows).value) := by
  induction rows with
  | nil => nofun
  | cons row rows ih =>
    exact areCode_append.2 ⟨areCode_enclosed (areCode_rowTokens hinline .dataCell row), ih⟩

theorem areCode_tableTokens (header : Table.Row) (rows : List Table.Row) :
    AreCode q (Token.nodesAll (tableTokens inline header rows).value) := by
  refine areCode_enclosed (areCode_append.2 ⟨areCode_enclosed (areCode_enclosed
    (areCode_rowTokens hinline .headerCell header)), ?_⟩)
  split
  · nofun
  · exact areCode_enclosed (areCode_rowsTokens hinline rows)

end

mutual

theorem areCode_block (hinline : ∀ t, ∀ u ∈ (inline t).value, u.isSpan = true) (tight : Bool)
    (b : Block) (h : ∀ c ∈ b.parts, c.IsCut q) :
    AreCode q (Token.nodesAll (blockTokens inline tight b).value) := by
  cases b with
  | paragraph t =>
    rw [blockTokens]
    split
    · have hspans : AreCode q (Token.nodesAll [.inline (inline t).value]) :=
        areCode_singleton (areCode_spans (hinline t))
      have hhidden : AreCode q (Token.nodesAll [.hidden]) := nofun
      exact areCode_append.2 ⟨hhidden, areCode_append.2 ⟨hspans, hhidden⟩⟩
    · exact areCode_textBlock hinline .paragraph t
  | heading level t => exact areCode_textBlock hinline (.heading level) t
  | quote blocks =>
    rw [Block.parts, List.forall_mem_cons] at h
    exact areCode_enclosed (areCode_blocks hinline false blocks h.2)
  | list start tight items =>
    rw [Block.parts, List.forall_mem_cons] at h
    exact areCode_enclosed (areCode_items hinline tight items h.2)
  | table header rows => exact areCode_tableTokens hinline header rows
  | code content =>
    have hcut := List.forall_mem_singleton.1 h
    exact List.forall_mem_singleton.2 fun _ => ⟨[], content, rfl, nofun, hcut⟩
  | fence info content =>
    obtain ⟨hinfo, hcontent⟩ := List.forall_mem_singleton.1 h
    exact List.forall_mem_singleton.2 fun _ => ⟨_, content, rfl, mem_language hinfo, hcontent⟩
  | rule | html => exact areCode_of_kind nofun
  | directive d => exact areCode_singleton (areCode_directive d)
  | definition => nofun

theorem areCode_blocks (hinline : ∀ t, ∀ u ∈ (inline t).value, u.isSpan = true) (tight : Bool)
    (bs : List Block) (h : Block.AreCut q bs) :
    AreCode q (Token.nodesAll (blocksTokens inline tight bs).value) := by
  cases bs with
  | nil => nofun
  | cons b bs =>
    rw [Block.areCut_cons] at h
    exact areCode_append.2
      ⟨areCode_block hinline tight b h.1, areCode_blocks hinline tight bs h.2⟩

theorem areCode_items (hinline : ∀ t, ∀ u ∈ (inline t).value, u.isSpan = true) (tight : Bool)
    (items : List (List Block)) (h : ∀ c ∈ Block.partsInItems items, c.IsCut q) :
    AreCode q (Token.nodesAll (itemsTokens inline tight items).value) := by
  cases items with
  | nil => nofun
  | cons i is =>
    rw [Block.partsInItems, List.forall_mem_append] at h
    exact areCode_append.2 ⟨areCode_enclosed (areCode_blocks hinline tight i h.1),
      areCode_items hinline tight is h.2⟩

end

end

/-! ## Documents -/

def IsSource (c : Char) : Prop := c ≠ '\r' ∧ c ≠ '\x00'

instance (c : Char) : Decidable (IsSource c) := inferInstanceAs (Decidable (_ ∧ _))

theorem isSource_plainSource (s : List Char) : ∀ c ∈ plainSource s, IsSource c := by
  intro c hc
  obtain ⟨d, hd, rfl⟩ := List.mem_map.1 hc
  have hcr : d ≠ '\r' := fun h => cr_not_mem_unifyNewlines s (h ▸ hd)
  split
  · exact ⟨by decide, by decide⟩
  · exact ⟨hcr, ‹_›⟩

theorem plainSource_append {a : List Char} (h : ∀ c ∈ a, IsSource c) (b : List Char) :
    plainSource (a ++ b) = a ++ plainSource b := by
  have hmap : a.map (fun c => if c = '\x00' then Entity.replacement else c) = a :=
    (List.map_congr_left fun c hc => if_neg (h c hc).2).trans (List.map_id _)
  rw [plainSource, unifyNewlines_append fun hc => (h _ hc).1 rfl, List.map_append, hmap,
    plainSource]

theorem areCode_tokens (source : String) :
    AreCode IsSource (Token.nodesAll (tokens source).value) := by
  have hcut := Block.areCut_ofLines Directive.probe (q := IsSource)
    ⟨by decide, by decide⟩ ⟨by decide, by decide⟩
    (Line.isOf_lines (isSource_plainSource source.toList))
  exact areCode_blocks (Inline.isSpan_of_read _ _) false _ hcut

theorem isCode_of_read {name source : String} {n m : Node}
    (h : (read name source).result = .ok n) (hm : m ∈ n.walk) (hk : m.kind = .fence) :
    IsCode IsSource m := by
  have hbare : m.bare = m := by
    have hchildren := (isRead_of_read h m hm).leaf (by rw [hk]; decide)
    obtain ⟨kind, tag, attributes, children, content⟩ := m
    obtain rfl : children = [] := hchildren
    rfl
  unfold read at h
  dsimp only at h
  split at h
  · cases h
  · rw [← Except.ok.inj h, walk_eq, List.mem_cons] at hm
    rcases hm with rfl | hm
    · cases hk
    · have hnodes := List.mem_map_of_mem (f := bare) hm
      change m.bare ∈ bareWalk _ at hnodes
      rw [ofTokens, Builder.bareWalk_finish, Builder.nodes_feedAll, hbare] at hnodes
      exact areCode_tokens source m hnodes hk

end Document

end DocPress
