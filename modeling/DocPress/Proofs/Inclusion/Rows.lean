import DocPress.Proofs.Document.Rows
import DocPress.Proofs.Element.Row
import DocPress.Proofs.Inclusion.Whole

/-!
# The rows of a compiled template

Resolving a document makes the rows of its tables rows of cells, and so it is in the partials
that are included, however deep. Such a row is printed as one line that is divided into its cells
again exactly if none of their texts has a bar or a line end: neither is escaped.
-/

set_option autoImplicit false

namespace DocPress

namespace Resolution

open Element Document Node

variable {scope : Scope} {n : Node} {ns : List Node} {r : Resolved} {es : List Element}

theorem headingName_ne_row (attributes : Attributes) : headingName attributes ≠ "tr" := by
  have hfirst : ∀ s : String, ("h" ++ s).toList.head? ≠ "tr".toList.head? := by simp
  unfold headingName
  split
  · exact fun h => hfirst _ (congrArg (fun s => s.toList.head?) h)
  · decide

/-- What resolving a node of a kind, with some children, comes to: something without rows, what is
included, the elements of the children, or an element around them, which is a row if the node is
one, and a cell if the node is one. -/
inductive Outcome (scope : Scope) (kind : NodeKind) (children : List Node) : Resolved → Prop
  | plain (e : Element) : e.rows = [] → kind ∉ cellKinds → Outcome scope kind children (.one e)
  | included (s : String) (e : Element) : (scope.include_ s).result = .ok e → kind ∉ cellKinds →
      Outcome scope kind children (.one e)
  | many (es : List Element) : (resolveAll scope children).result = .ok es → kind ∉ cellKinds →
      Outcome scope kind children (.many es)
  | around (name : String) (attributes : Attributes) (es : List Element) :
      (resolveAll scope children).result = .ok es → (name = "tr" → kind = .tableRow) →
      (kind ∈ cellKinds → name = "th" ∨ name = "td") →
      Outcome scope kind children (.one (.named name attributes es))

theorem outcome_of_resolve (h : (resolve scope n).result = .ok r) :
    Outcome scope n.kind n.children r := by
  obtain ⟨kind, name, attributes, children, content⟩ := n
  show Outcome scope kind children r
  have hother : ∀ {k : NodeKind} {P : Prop}, k ∉ cellKinds → k ∈ cellKinds → P :=
    fun hk hmem => absurd hmem hk
  cases kind with
  | text | softBreak | fence | code | image =>
    rw [← Except.ok.inj h]
    exact .plain _ rfl (by decide)
  | function =>
    obtain ⟨e, he, rfl⟩ := Reporting.ok_of_map h
    obtain ⟨v, rfl⟩ := call_value he
    exact .plain _ rfl (by decide)
  | tag =>
    cases hf : Schema.find? (name.getD "") with
    | none =>
      simp only [resolve, hf] at h
      obtain ⟨es, hes, rfl⟩ := Reporting.ok_of_map h
      exact .many es hes (by decide)
    | some tag =>
      simp only [resolve, hf] at h
      cases hc : (checkedAttributes scope.file tag attributes (!children.isEmpty)).result with
      | error f =>
        rw [Reporting.bind_of_error _ hc] at h
        cases h
      | ok kept =>
        rw [Reporting.bind_of_ok _ hc] at h
        dsimp only at h
        split at h
        · obtain ⟨e, he, rfl⟩ := Reporting.ok_of_map h
          exact .included _ e (include_of_includeFile he).2 (by decide)
        · obtain ⟨es, hes, rfl⟩ := Reporting.ok_of_map h
          have hname : ∀ t ∈ Schema.tags, t.name ≠ "tr" := by decide
          exact .around _ _ es hes (absurd · (hname tag (List.mem_of_find?_eq_some hf)))
            (hother (by decide))
  | heading =>
    obtain ⟨es, hes, rfl⟩ := Reporting.ok_of_map h
    exact .around _ _ es hes (absurd · (headingName_ne_row _)) (hother (by decide))
  | list =>
    obtain ⟨es, hes, rfl⟩ := Reporting.ok_of_map h
    refine .around _ _ es hes (fun hrow => ?_) (hother (by decide))
    unfold listName at hrow
    split at hrow <;> exact absurd hrow (by decide)
  | other label =>
    obtain ⟨es, hes, rfl⟩ := Reporting.ok_of_map h
    exact .many es hes (by simp [cellKinds])
  | _ =>
    obtain ⟨es, hes, rfl⟩ := Reporting.ok_of_map h
    exact .around _ _ es hes (by decide) (by decide)

/-- Cells are resolved one to one. -/
theorem named_of_resolveAll (hns : ∀ m ∈ ns, m.kind ∈ cellKinds)
    (h : (resolveAll scope ns).result = .ok es) :
    es.length = ns.length ∧ ∀ e ∈ es, e.isNamed ["th", "td"] = true := by
  induction ns generalizing es with
  | nil =>
    obtain rfl : [] = es := Except.ok.inj h
    exact ⟨rfl, nofun⟩
  | cons n ns ih =>
    obtain ⟨hn, hns⟩ := List.forall_mem_cons.1 hns
    obtain ⟨r, fs, hr, hfs, rfl⟩ := resolveAll_cons_ok h
    obtain ⟨hlength, hnamed⟩ := ih hns hfs
    cases outcome_of_resolve hr with
    | plain _ _ hk | included _ _ _ hk | many _ _ hk => exact absurd hn hk
    | around name attributes gs _ _ hname =>
      refine ⟨congrArg (· + 1) hlength, List.forall_mem_cons.2 ⟨?_, hnamed⟩⟩
      rcases hname hn with rfl | rfl <;> rfl

mutual

/-- The rows that a document is resolved to are rows of cells, if those of its partials are. -/
theorem areCells_of_resolve
    (hinclude : ∀ s e, (scope.include_ s).result = .ok e → ∀ cells ∈ e.rows, AreCells cells)
    {r : Resolved} : ∀ n : Node, (∀ m ∈ n.walk, HasCells m) → (resolve scope n).result = .ok r →
      ∀ cells ∈ rowsAll r.elements, AreCells cells
  | ⟨kind, name, attributes, children, content⟩, hn, h => by
    rw [Node.walk, List.forall_mem_cons] at hn
    have hone : ∀ e : Element, rowsAll [e] = e.rows := fun e => List.append_nil _
    cases outcome_of_resolve h with
    | plain e he _ =>
      rw [Resolved.elements, hone, he]
      nofun
    | included s e he _ =>
      rw [Resolved.elements, hone]
      exact hinclude s e he
    | many es hes _ => exact areCells_of_resolveAll hinclude children hn.2 hes
    | around name attributes es hes hrow _ =>
      have hbelow := areCells_of_resolveAll hinclude children hn.2 hes
      rw [Resolved.elements, hone, rows]
      split
      · next htr =>
        obtain ⟨hne, hcells⟩ := hn.1 (hrow htr)
        obtain ⟨hlength, hnamed⟩ := named_of_resolveAll hcells hes
        refine List.forall_mem_cons.2 ⟨⟨?_, hnamed⟩, hbelow⟩
        rw [← List.length_pos_iff, hlength]
        exact List.length_pos_iff.2 hne
      · exact hbelow

theorem areCells_of_resolveAll
    (hinclude : ∀ s e, (scope.include_ s).result = .ok e → ∀ cells ∈ e.rows, AreCells cells)
    {es : List Element} : ∀ ns : List Node, (∀ m ∈ walkAll ns, HasCells m) →
      (resolveAll scope ns).result = .ok es → ∀ cells ∈ rowsAll es, AreCells cells
  | [], _, h => by
    obtain rfl : [] = es := Except.ok.inj h
    nofun
  | n :: ns, hns, h => by
    rw [walkAll, List.forall_mem_append] at hns
    obtain ⟨r, fs, hr, hfs, rfl⟩ := resolveAll_cons_ok h
    rw [rowsAll_append, List.forall_mem_append]
    exact ⟨areCells_of_resolve hinclude n hns.1 hr, areCells_of_resolveAll hinclude ns hns.2 hfs⟩

end

theorem rows_document (r : Resolved) : r.document.rows = rowsAll r.elements := by
  unfold Resolved.document
  split
  · exact (List.append_nil _).symm
  · rfl

end Resolution

namespace Compilation

open Element Document Resolution Text Markdown

variable {files : FileTree}

theorem hasCells_of_documentOf {p : Path} {n : Node} (h : (documentOf files p).result = .ok n) :
    ∀ m ∈ n.walk, HasCells m := by
  obtain ⟨source, hl⟩ := exists_load_of_documentOf h
  rw [documentOf_of_load hl] at h
  exact hasCells_of_read h

theorem areCells_of_includePartial (depth : Nat) (place : Place) (index : Reference.Index)
    (file : String) (e : Element)
    (h : (includePartial files depth place index file).result = .ok e) :
    ∀ cells ∈ e.rows, AreCells cells := by
  induction depth using Nat.strongRecOn generalizing place index file e with
  | ind depth ih =>
    obtain rfl | ⟨k, p, n, inner, index, r, rfl, hn, hr, rfl⟩ := includePartial_ok h
    · nofun
    · rw [rows_document]
      exact areCells_of_resolve (fun s e he => ih k (Nat.lt_succ_self k) _ _ s e he) n
        (hasCells_of_documentOf hn) hr

def treeOf (files : FileTree) (source : String) (directory : Path) (file : Option Path) :
    Reporting Element := do
  let n ← Document.read ((file.map Path.toString).getD "") source
  renderTree files ⟨directory, (file.map Path.real).toList⟩ (Reference.Index.ofNode n) n

variable {source : String} {directory : Path} {file : Option Path} {e : Element}

theorem treeOf_ok (h : (treeOf files source directory file).result = .ok e) :
    ∃ n r, (Document.read ((file.map Path.toString).getD "") source).result = .ok n ∧
      (resolve (scope ⟨directory, (file.map Path.real).toList⟩ (Reference.Index.ofNode n)
        (includePartial files (files.files.length + 1) ⟨directory, (file.map Path.real).toList⟩
          (Reference.Index.ofNode n))) n).result = .ok r ∧ e = r.document := by
  unfold treeOf at h
  cases hn : (Document.read ((file.map Path.toString).getD "") source).result with
  | error f =>
    rw [Reporting.bind_of_error _ hn] at h
    cases h
  | ok n =>
    rw [Reporting.bind_of_ok _ hn] at h
    obtain ⟨r, hr, rfl⟩ := Reporting.ok_of_map h
    exact ⟨n, r, rfl, hr, rfl⟩

theorem compileText_of_treeOf (h : (treeOf files source directory file).result = .ok e) :
    (compileText files source directory file).result = .ok (render e) := by
  unfold treeOf at h
  unfold compileText
  cases hn : (Document.read ((file.map Path.toString).getD "") source).result with
  | error f =>
    rw [Reporting.bind_of_error _ hn] at h
    cases h
  | ok n =>
    rw [Reporting.bind_of_ok _ hn] at h ⊢
    dsimp only at h ⊢
    rw [Reporting.map_result, h]
    rfl

theorem areCells_of_treeOf (h : (treeOf files source directory file).result = .ok e) :
    ∀ cells ∈ e.rows, AreCells cells := by
  obtain ⟨n, r, hn, hr, rfl⟩ := treeOf_ok h
  rw [rows_document]
  exact areCells_of_resolve (areCells_of_includePartial _ _ _) n (hasCells_of_read hn) hr

/-- Every row of a template that is compiled, with its partials, has cells only, and one at least.
It is printed as a line that holds the trimmed texts of its cells, followed, if one of them is a
header, by the line that a table is told by, with as many columns. That the row stands on one line,
and this line is divided into exactly these texts again, is so if and only if none of them has a
line end or a bar. -/
theorem row_divides (h : (treeOf files source directory file).result = .ok e) :
    (compileText files source directory file).result = .ok (render e) ∧
    ∀ cells ∈ e.rows, ∀ indent frames attributes,
      let texts := cellTexts indent frames cells
      (cells ≠ [] ∧ ∀ c ∈ cells, c.isNamed ["th", "td"] = true) ∧
      texts.length = cells.length ∧ texts.map strip = texts ∧
      (print indent frames (.named "tr" attributes cells)).1 = rowLine texts ++
        '\n' ::
          (if cells.any (·.isNamed ["th"]) then separatorLine cells.length ++ ['\n'] else []) ∧
      IsLine (separatorLine cells.length) ∧
      Table.columns? (separatorLine cells.length) = some cells.length ∧
      (IsLine (rowLine texts) ∧ (Table.cells (rowLine texts)).map strip = texts ↔
        ∀ t ∈ texts, IsLine t ∧ '|' ∉ t) := by
  refine ⟨compileText_of_treeOf h, ?_⟩
  intro cells hmem indent frames attributes texts
  obtain ⟨hne, hnamed⟩ := areCells_of_treeOf h cells hmem
  obtain ⟨hlength, htrimmed⟩ := cellTexts_of_cells hnamed indent frames
  have hcount : cells.length ≠ 0 := by simpa using hne
  have htexts : texts ≠ [] := by
    rw [← List.length_pos_iff, hlength]
    exact List.length_pos_iff.2 hne
  have hdivides := Table.cells_rowLine_iff texts
  rw [htrimmed] at hdivides
  refine ⟨⟨hne, hnamed⟩, hlength, htrimmed, ?_, isLine_separatorLine _,
    Table.columns?_separatorLine hcount, ?_⟩
  · rw [print_row, rowText_eq htexts, hlength]
  · rw [isLine_rowLine, hdivides, ← forall₂_and]

def rowTextsOf (source : String) : Option (List (List (List Char))) :=
  (treeOf (.directory []) source ⟨.root, []⟩ none).result.toOption.map
    fun e => e.rows.map (cellTexts [] [])

theorem exists_of_rowTextsOf {source : String} {texts : List (List (List Char))}
    (h : rowTextsOf source = some texts) :
    ∃ e, (treeOf (.directory []) source ⟨.root, []⟩ none).result = .ok e ∧
      e.rows.map (cellTexts [] []) = texts := by
  obtain ⟨e, he, htexts⟩ := Option.map_eq_some_iff.1 h
  refine ⟨e, ?_, htexts⟩
  cases hr : (treeOf (.directory []) source ⟨.root, []⟩ none).result with
  | error f =>
    rw [hr] at he
    cases he
  | ok e' =>
    rw [hr] at he
    rw [Option.some.inj he]

def plainTable : String := "| a | *b* |\n|---|---|\n| x | |\n"

theorem row_divides_plain : ∃ e,
    (treeOf (.directory []) plainTable ⟨.root, []⟩ none).result = .ok e ∧
    e.rows.map (cellTexts [] []) = [["a".toList, "*b*".toList], ["x".toList, []]] ∧
    ∀ cells ∈ e.rows, (Table.cells (rowLine (cellTexts [] [] cells))).map strip =
      cellTexts [] [] cells := by
  have hplain : rowTextsOf plainTable = some [["a".toList, "*b*".toList], ["x".toList, []]] := by
    decide +kernel
  obtain ⟨e, he, htexts⟩ := exists_of_rowTextsOf hplain
  refine ⟨e, he, htexts, fun cells hcells => ?_⟩
  obtain ⟨-, hrows⟩ := row_divides he
  obtain ⟨-, -, -, -, -, -, hdivides⟩ := hrows cells hcells [] [] []
  have hmem : cellTexts [] [] cells ∈ e.rows.map (cellTexts [] []) := List.mem_map_of_mem hcells
  rw [htexts] at hmem
  have hall : ∀ texts ∈ [["a".toList, "*b*".toList], ["x".toList, []]], ∀ t ∈ texts,
      IsLine t ∧ '|' ∉ t := by simp [IsLine]
  exact (hdivides.2 (hall _ hmem)).2

/-- A bar that was escaped in the source divides the cell it is printed in, and a line feed that was
written as an entity ends the row. -/
theorem not_row_divides :
    (∃ e, (treeOf (.directory []) "| a |\n|---|\n| x \\| y |\n" ⟨.root, []⟩ none).result = .ok e ∧
      ∃ cells ∈ e.rows, (Table.cells (rowLine (cellTexts [] [] cells))).map strip ≠
        cellTexts [] [] cells) ∧
    ∃ e, (treeOf (.directory []) "| a |\n|---|\n| x&#10;y |\n" ⟨.root, []⟩ none).result = .ok e ∧
      ∃ cells ∈ e.rows, ¬IsLine (rowLine (cellTexts [] [] cells)) := by
  constructor
  · have hbar : rowTextsOf "| a |\n|---|\n| x \\| y |\n" =
        some [["a".toList], ["x | y".toList]] := by
      decide +kernel
    obtain ⟨e, he, htexts⟩ := exists_of_rowTextsOf hbar
    have hmem : ["x | y".toList] ∈ e.rows.map (cellTexts [] []) := by
      rw [htexts]
      decide
    obtain ⟨cells, hcells, hcell⟩ := List.mem_map.1 hmem
    refine ⟨e, he, cells, hcells, ?_⟩
    rw [hcell]
    decide
  · have hfeed : rowTextsOf "| a |\n|---|\n| x&#10;y |\n" =
        some [["a".toList], ["x\ny".toList]] := by
      decide +kernel
    obtain ⟨e, he, htexts⟩ := exists_of_rowTextsOf hfeed
    have hmem : ["x\ny".toList] ∈ e.rows.map (cellTexts [] []) := by
      rw [htexts]
      decide
    obtain ⟨cells, hcells, hcell⟩ := List.mem_map.1 hmem
    refine ⟨e, he, cells, hcells, fun hline => ?_⟩
    rw [hcell] at hline
    exact (hline '\n' (by decide)).1 rfl

end Compilation

end DocPress
