import Mathlib.Data.List.Chain
import DocPress.Proofs.Document.Flattening
import DocPress.Proofs.Document.Shape
import DocPress.Proofs.Markdown.Content
import DocPress.Proofs.Markdown.Pieces

/-!
# The rows of a document

A row of a table has cells and nothing else, and one cell at least, whatever tags are opened and
closed in them. While a document is built, what stands directly in an open row is a cell; and a
row is the innermost open node only between its cells. A tag closed in a cell that was opened
before the table closes the row with it, after the cell.
-/

set_option autoImplicit false

namespace DocPress.Document

open Node Markdown

def cellKinds : List NodeKind := [.headerCell, .dataCell]

def HasCells (n : Node) : Prop :=
  n.kind = .tableRow → n.children ≠ [] ∧ ∀ m ∈ n.children, m.kind ∈ cellKinds

theorem hasCells_of_kind {n : Node} (h : n.kind ≠ .tableRow) : HasCells n := fun hk => absurd hk h

theorem forall_hasCells_of_childless {n : Node} (hk : n.kind ≠ .tableRow) (hc : n.children = []) :
    ∀ m ∈ n.walk, HasCells m := by
  rw [walk_eq, hc]
  exact List.forall_mem_singleton.2 (hasCells_of_kind hk)

/-- An open row is a container of cells, and what is finished in an open node has its cells. -/
structure Frame.HoldsCells (f : Frame) : Prop where
  name : f.kind = .tableRow → f.name = none
  row : f.kind = .tableRow → ∀ m ∈ f.children, m.kind ∈ cellKinds
  below : ∀ m ∈ walkAll f.children, HasCells m

namespace Builder

/-- A tree that is being built: what is open directly in a row is a cell, and all rows that are
closed have their cells. -/
structure Rows (b : Builder) : Prop where
  stacked : b.frames.IsChain fun g f => f.kind = .tableRow → g.kind ∈ cellKinds
  frames : ∀ f ∈ b.frames, f.HoldsCells
  roots : ∀ m ∈ walkAll b.roots, HasCells m

/-- The innermost open node is no row without cells, so it may be closed. -/
structure Ready (b : Builder) : Prop extends Rows b where
  top : ∀ f ∈ b.frames.head?, f.kind = .tableRow → f.children ≠ []

/-- The innermost open node is no row, so anything may stand in it. -/
structure Off (b : Builder) : Prop extends Rows b where
  top : ∀ f ∈ b.frames.head?, f.kind ≠ .tableRow

variable {b : Builder} {source : String}

theorem Off.ready (h : b.Off) : b.Ready := ⟨h.toRows, fun f hf hk => absurd hk (h.top f hf)⟩

theorem off_start : start.Off := ⟨⟨.nil, nofun, nofun⟩, nofun⟩

theorem Rows.push (h : b.Rows) {kind : NodeKind}
    (htop : ∀ f ∈ b.frames.head?, f.kind = .tableRow → kind ∈ cellKinds) {name : Option String}
    (hname : kind = .tableRow → name = none) (attributes : Attributes) :
    (b.push ⟨kind, name, attributes, []⟩).Rows :=
  ⟨List.isChain_cons.2 ⟨htop, h.stacked⟩,
    List.forall_mem_cons.2 ⟨⟨hname, fun _ => nofun, nofun⟩, h.frames⟩, h.roots⟩

theorem Off.push (h : b.Off) {kind : NodeKind} (hk : kind ≠ .tableRow) (name : Option String)
    (attributes : Attributes) : (b.push ⟨kind, name, attributes, []⟩).Off :=
  ⟨h.toRows.push (fun f hf hrow => absurd hrow (h.top f hf)) (fun hrow => absurd hrow hk)
      attributes,
    fun _ hf => Option.mem_some.1 hf ▸ hk⟩

theorem Rows.append (h : b.Rows) {n : Node} (hn : ∀ m ∈ n.walk, HasCells m)
    (htop : ∀ f ∈ b.frames.head?, f.kind = .tableRow → n.kind ∈ cellKinds) :
    (b.append n).Rows := by
  obtain ⟨frames, roots⟩ := b
  obtain ⟨hstacked, hframes, hroots⟩ := h
  cases frames with
  | nil => exact ⟨.nil, nofun, List.forall_mem_append.2 ⟨hn, hroots⟩⟩
  | cons f fs =>
    rw [List.forall_mem_cons] at hframes
    refine ⟨List.isChain_cons.2 (List.isChain_cons.1 hstacked),
      List.forall_mem_cons.2 ⟨⟨hframes.1.name, fun hk => ?_, ?_⟩, hframes.2⟩, hroots⟩
    · exact List.forall_mem_cons.2 ⟨htop f rfl hk, hframes.1.row hk⟩
    · exact List.forall_mem_append.2 ⟨hn, hframes.1.below⟩

theorem map_kind_append (b : Builder) (n : Node) :
    (b.append n).frames.map Frame.kind = b.frames.map Frame.kind := by
  obtain ⟨frames, roots⟩ := b
  cases frames <;> rfl

theorem Off.append (h : b.Off) {n : Node} (hk : n.kind ≠ .tableRow) (hc : n.children = []) :
    (b.append n).Off := by
  refine ⟨h.toRows.append (forall_hasCells_of_childless hk hc)
    fun f hf hrow => absurd hrow (h.top f hf), ?_⟩
  obtain ⟨frames, roots⟩ := b
  cases frames with
  | nil => nofun
  | cons f fs => exact fun g hg => Option.mem_some.1 hg ▸ h.top f rfl

/-! ## Closing -/

theorem Ready.pop (h : b.Ready) : b.pop.Ready := by
  obtain ⟨frames, roots⟩ := b
  cases frames with
  | nil => exact h
  | cons f fs =>
    obtain ⟨hf, hframes⟩ := List.forall_mem_cons.1 h.frames
    obtain ⟨hcell, hstacked⟩ := List.isChain_cons.1 h.stacked
    have hrest : (⟨fs, roots⟩ : Builder).Rows := ⟨hstacked, hframes, h.roots⟩
    have hnode : ∀ m ∈ f.node.walk, HasCells m := by
      rw [walk_eq, List.forall_mem_cons]
      refine ⟨fun hk => ⟨?_, ?_⟩, fun m hm => hf.below m (mem_walkAll_reverse.1 hm)⟩
      · exact fun hnil => h.top f rfl hk (List.reverse_eq_nil_iff.1 hnil)
      · exact fun m hm => hf.row hk m (List.mem_reverse.1 hm)
    refine ⟨hrest.append hnode hcell, fun g hg _ => ?_⟩
    cases fs with
    | nil => cases hg
    | cons g' gs =>
      obtain rfl := Option.mem_some.1 hg
      exact List.cons_ne_nil _ _

theorem Ready.popMany (h : b.Ready) (k : Nat) : (Builder.popMany k b).Ready := by
  induction k generalizing b with
  | zero => exact h
  | succ k ih => exact ih h.pop

theorem map_kind_pop (b : Builder) :
    b.pop.frames.map Frame.kind = (b.frames.map Frame.kind).tail := by
  obtain ⟨frames, roots⟩ := b
  cases frames with
  | nil => rfl
  | cons f fs => exact map_kind_append _ _

/-- When a node that is no cell is closed, with all that is open in it, no row is innermost. -/
theorem Ready.off_of_popMany (h : b.Ready) {k : Nat} {kind : NodeKind}
    (hk : (b.frames.map Frame.kind)[k]? = some kind) (hcell : kind ∉ cellKinds) :
    (Builder.popMany (k + 1) b).Off := by
  induction k generalizing b with
  | zero =>
    refine ⟨h.pop.toRows, ?_⟩
    obtain ⟨frames, roots⟩ := b
    cases frames with
    | nil => cases hk
    | cons f fs =>
      obtain rfl := Option.some.inj hk
      have habove := (List.isChain_cons.1 h.stacked).1
      cases fs with
      | nil => nofun
      | cons g gs =>
        intro g' hg' hrow
        obtain rfl := Option.mem_some.1 hg'
        exact hcell (habove g rfl hrow)
  | succ k ih =>
    refine ih h.pop ?_
    rw [map_kind_pop, List.getElem?_tail]
    exact hk

theorem kind_of_findIdx? {frames : List Frame} {p : Frame → Bool} {kind : NodeKind} {i : Nat}
    (h : frames.findIdx? p = some i) (hp : ∀ f, p f = true → f.kind = kind) :
    (frames.map Frame.kind)[i]? = some kind := by
  obtain ⟨hi, hf, -⟩ := List.findIdx?_eq_some_iff_getElem.1 h
  rw [List.getElem?_map, List.getElem?_eq_getElem hi, Option.map_some, hp _ hf]

theorem kind_of_isContainer {f : Frame} {kind : NodeKind} (h : f.isContainer kind = true) :
    f.kind = kind := by
  simp only [Frame.isContainer, Bool.and_eq_true, beq_iff_eq] at h
  exact h.1

theorem Ready.closeContainer (h : b.Ready) (kind : NodeKind) :
    (closeContainer source kind b).1.Ready := by
  unfold Builder.closeContainer
  split
  · exact h
  · exact h.popMany _

theorem Off.closeContainer (h : b.Off) {kind : NodeKind} (hk : kind ∉ cellKinds) :
    (closeContainer source kind b).1.Off := by
  unfold Builder.closeContainer
  split
  · exact h
  · next hi =>
    exact h.ready.off_of_popMany (kind_of_findIdx? hi fun _ => kind_of_isContainer) hk

/-- After the last cell of a row the row is closed, if a cell did not close it before. -/
theorem Ready.closeRow (h : b.Ready) :
    (Builder.closeContainer source .tableRow b).1.Off := by
  unfold Builder.closeContainer
  split
  · next hnone =>
    refine ⟨h.toRows, fun f hf hrow => ?_⟩
    have hmem := List.mem_of_mem_head? hf
    have hnot := List.findIdx?_eq_none_iff.1 hnone f hmem
    rw [Frame.isContainer, hrow, (h.frames f hmem).name hrow] at hnot
    cases hnot
  · next hi =>
    exact h.off_of_popMany (kind_of_findIdx? hi fun _ => kind_of_isContainer) (by decide)

theorem Off.closeTag (h : b.Off) (name : String) : (closeTag source name b).1.Off := by
  unfold Builder.closeTag
  split
  · exact h
  · next hi =>
    have hkind : ∀ f : Frame, f.isTagNamed name = true → f.kind = .tag := fun f hf => by
      simp only [Frame.isTagNamed, Bool.and_eq_true, beq_iff_eq] at hf
      exact hf.1
    exact h.ready.off_of_popMany (kind_of_findIdx? hi hkind) (by decide)

/-! ## Tokens -/

def Keeps (source : String) (ts : List Token) : Prop :=
  ∀ b : Builder, b.Off → (feedAll source b ts).1.Off

theorem Keeps.append {ts us : List Token} (ht : Keeps source ts) (hu : Keeps source us) :
    Keeps source (ts ++ us) := fun b hb => by
  rw [feedAll_append]
  exact hu _ (ht b hb)

theorem keeps_nil : Keeps source [] := fun _ hb => hb

theorem keeps_singleton {t : Token} (h : ∀ b : Builder, b.Off → (feed source b t).1.Off) :
    Keeps source [t] := fun b hb => h b hb

theorem Off.feedDirective (h : b.Off) (d : Directive) : (feedDirective source b d).1.Off := by
  cases d with
  | opening name attributes => exact h.push (by decide) _ _
  | closing name => exact h.closeTag name
  | selfClosing name attributes => exact h.append nofun rfl
  | call name arguments => exact h.append nofun rfl

theorem Off.leaf (h : b.Off) (l : Leaf) : (feed source b (.leaf l)).1.Off :=
  h.append (by cases l <;> nofun) (by cases l <;> rfl)

theorem Off.span (h : b.Off) {t : Token} (ht : t.isSpan = true) : (feed source b t).1.Off := by
  cases t with
  | opening c =>
    refine h.push (fun hk => ?_) none c.attributes
    cases c with
    | tableRow => cases ht
    | _ => cases hk
  | closing kind =>
    refine h.closeContainer fun hcell => ?_
    simp only [Token.isSpan, spanKinds, cellKinds, List.contains_eq_mem, decide_eq_true_eq,
      List.mem_cons, List.not_mem_nil, or_false] at ht hcell
    rcases hcell with rfl | rfl <;> simp at ht
  | directive d => exact h.feedDirective d
  | leaf l => exact h.leaf l
  | hidden | inline ts | unsupported name => cases ht

theorem keeps_spans {ts : List Token} (h : ∀ t ∈ ts, t.isSpan = true) : Keeps source ts := by
  induction ts with
  | nil => exact keeps_nil
  | cons t ts ih =>
    obtain ⟨ht, hts⟩ := List.forall_mem_cons.1 h
    exact fun b hb => ih hts _ (hb.span ht)

theorem keeps_hidden : Keeps source [.hidden] := fun _ hb => hb

theorem keeps_inline {ts : List Token} (h : Keeps source ts) : Keeps source [.inline ts] :=
  keeps_singleton h

theorem feedAll_enclosed (b : Builder) (c : Container) (ts : List Token) :
    (feedAll source b (enclosed c ts)).1 = (closeContainer source c.kind
      (feedAll source (b.push ⟨c.kind, none, c.attributes, []⟩) ts).1).1 := by
  simp only [enclosed, feedAll, feed, feedAll_append]

/-- A container that is neither row nor cell. -/
theorem Keeps.enclosed {ts : List Token} (h : Keeps source ts) {c : Container}
    (hrow : c.kind ≠ .tableRow) (hcell : c.kind ∉ cellKinds) :
    Keeps source (enclosed c ts) := fun b hb => by
  rw [feedAll_enclosed]
  exact (h _ (hb.push hrow none c.attributes)).closeContainer hcell

/-! ## Tables -/

section

variable {φ : Type} {inline : List Char → Probed φ (List Token)}
  (hinline : ∀ t, ∀ u ∈ (inline t).value, u.isSpan = true)

include hinline

theorem keeps_textBlock {c : Container} (hrow : c.kind ≠ .tableRow) (hcell : c.kind ∉ cellKinds)
    (t : List Char) : Keeps source (textBlock inline c t).value :=
  (keeps_inline (keeps_spans (hinline t))).enclosed hrow hcell

/-- A cell may stand anywhere; after it the row around it, if it is still open, has a cell. -/
theorem Rows.cell (h : b.Rows) {c : Container} (hc : c.kind ∈ cellKinds) (t : List Char) :
    (feedAll source b (textBlock inline c t).value).1.Ready := by
  have hne : c.kind ≠ .tableRow := fun hk => absurd (hk ▸ hc) (by decide)
  have hpush : (b.push ⟨c.kind, none, c.attributes, []⟩).Off :=
    ⟨h.push (fun _ _ _ => hc) (fun hk => absurd hk hne) c.attributes,
      fun _ hf => Option.mem_some.1 hf ▸ hne⟩
  show (feedAll source b (enclosed c [.inline (inline t).value])).1.Ready
  rw [feedAll_enclosed]
  exact (keeps_inline (keeps_spans (hinline t)) _ hpush).ready.closeContainer c.kind

theorem Ready.cells (h : b.Ready) {c : Container} (hc : c.kind ∈ cellKinds) (row : Table.Row) :
    (feedAll source b (rowTokens inline c row).value).1.Ready := by
  induction row generalizing b with
  | nil => exact h
  | cons t row ih =>
    simp only [rowTokens, Probed.bind_value, Probed.pure_value, feedAll_append]
    exact ih (h.toRows.cell hinline hc t)

theorem keeps_row {c : Container} (hc : c.kind ∈ cellKinds) {row : Table.Row} (hrow : row ≠ []) :
    Keeps source (enclosed .tableRow (rowTokens inline c row).value) := fun b hb => by
  obtain ⟨t, row, rfl⟩ := List.exists_cons_of_ne_nil hrow
  have hopen : (b.push ⟨.tableRow, none, [], []⟩).Rows :=
    hb.toRows.push (fun f hf hk => absurd hk (hb.top f hf)) (fun _ => rfl) []
  rw [feedAll_enclosed]
  simp only [rowTokens, Probed.bind_value, Probed.pure_value, feedAll_append]
  exact ((hopen.cell hinline hc t).cells hinline hc row).closeRow

theorem keeps_rows {rows : List Table.Row} (h : ∀ row ∈ rows, row ≠ []) :
    Keeps source (rowsTokens inline rows).value := by
  induction rows with
  | nil => exact keeps_nil
  | cons row rows ih =>
    rw [List.forall_mem_cons] at h
    exact (keeps_row hinline (by decide) h.1).append (ih h.2)

theorem keeps_table {header : Table.Row} {rows : List Table.Row} (hheader : header ≠ [])
    (hrows : ∀ row ∈ rows, row ≠ []) : Keeps source (tableTokens inline header rows).value := by
  have hhead : Keeps source (enclosed .tableHead (enclosed .tableRow
      (rowTokens inline .headerCell header).value)) :=
    (keeps_row hinline (by decide) hheader).enclosed (by decide) (by decide)
  have hbody : Keeps source (if rows.isEmpty then [] else
      enclosed .tableBody (rowsTokens inline rows).value) := by
    split
    · exact keeps_nil
    · exact (keeps_rows hinline hrows).enclosed (by decide) (by decide)
  exact (hhead.append hbody).enclosed (c := .table) (by decide) (by decide)

end

/-! ## Blocks -/

section

variable {φ : Type} {inline : List Char → Probed φ (List Token)} {q : Char → Prop}

mutual

theorem keeps_block (hinline : ∀ t, ∀ u ∈ (inline t).value, u.isSpan = true) (tight : Bool)
    (b : Block) (h : ∀ c ∈ b.parts, c.IsCut q) :
    Keeps source (blockTokens inline tight b).value := by
  cases b with
  | paragraph t =>
    rw [blockTokens]
    split
    · exact keeps_hidden.append ((keeps_inline (keeps_spans (hinline t))).append keeps_hidden)
    · exact keeps_textBlock hinline (by decide) (by decide) t
  | heading level t =>
    have hk : (Container.heading level).kind = .heading := rfl
    exact keeps_textBlock hinline (by rw [hk]; decide) (by rw [hk]; decide) t
  | quote blocks =>
    rw [Block.parts, List.forall_mem_cons] at h
    exact (keeps_blocks hinline false blocks h.2).enclosed (by decide) (by decide)
  | list start tight items =>
    rw [Block.parts, List.forall_mem_cons] at h
    have hk : (listContainer start).kind = .list := by cases start <;> rfl
    exact (keeps_items hinline tight items h.2).enclosed (by rw [hk]; decide) (by rw [hk]; decide)
  | table header rows =>
    obtain ⟨hheader, hrows⟩ := List.forall_mem_singleton.1 h
    exact keeps_table hinline hheader hrows
  | directive d => exact keeps_singleton fun b hb => hb.feedDirective d
  | rule | code | fence | html => exact keeps_singleton fun b hb => hb.leaf _
  | definition => exact keeps_nil

theorem keeps_blocks (hinline : ∀ t, ∀ u ∈ (inline t).value, u.isSpan = true) (tight : Bool)
    (bs : List Block) (h : Block.AreCut q bs) :
    Keeps source (blocksTokens inline tight bs).value := by
  cases bs with
  | nil => exact keeps_nil
  | cons b bs =>
    rw [Block.areCut_cons] at h
    exact (keeps_block hinline tight b h.1).append (keeps_blocks hinline tight bs h.2)

theorem keeps_items (hinline : ∀ t, ∀ u ∈ (inline t).value, u.isSpan = true) (tight : Bool)
    (items : List (List Block)) (h : ∀ c ∈ Block.partsInItems items, c.IsCut q) :
    Keeps source (itemsTokens inline tight items).value := by
  cases items with
  | nil => exact keeps_nil
  | cons i is =>
    rw [Block.partsInItems, List.forall_mem_append] at h
    exact ((keeps_blocks hinline tight i h.1).enclosed (c := .item) (by decide) (by decide)).append
      (keeps_items hinline tight is h.2)

end

end

end Builder

/-! ## Documents -/

theorem keeps_tokens (name source : String) : Builder.Keeps name (tokens source).value := by
  have hlines : ∀ l ∈ Line.lines (plainSource source.toList), l.IsOf fun _ => True :=
    fun l _ => ⟨fun _ _ => trivial, fun _ _ => trivial⟩
  have hcut := Block.areCut_ofLines Directive.probe trivial trivial hlines
  exact Builder.keeps_blocks (Inline.isSpan_of_read _ _) false _ hcut

theorem hasCells_of_tokens (name source : String) :
    ∀ m ∈ (ofTokens name (tokens source).value).1.walk, HasCells m := by
  have hfed := (keeps_tokens name source _ Builder.off_start).ready
  rw [walk_eq, List.forall_mem_cons]
  refine ⟨hasCells_of_kind nofun, fun m hm => ?_⟩
  exact (hfed.popMany _).roots m (mem_walkAll_reverse.1 hm)

/-- Every row of a document that is read has a cell, and cells only. -/
theorem hasCells_of_read {name source : String} {n : Node}
    (h : (read name source).result = .ok n) : ∀ m ∈ n.walk, HasCells m := by
  unfold read at h
  dsimp only at h
  split at h
  · cases h
  · rw [← Except.ok.inj h]
    exact hasCells_of_tokens name source

end DocPress.Document
