import DocPress.Element.Printer
import DocPress.Markdown.Table
import DocPress.Proofs.Text.Scanning

/-!
# Printed rows of tables

A row is printed as one bar and, for each cell, the text of the cell between spaces and a bar.
The spaces keep the bars of the row apart from a backslash at the end of a cell, so the bars of
the row always divide it. The bars and line feeds in a cell are printed as they are: a bar divides
the cell, or loses the backslash before it, and a line feed ends the row.
-/

set_option autoImplicit false

namespace DocPress

namespace Element

open Text Markdown

mutual

def rows : Element → List (List Element)
  | .value _ => []
  | .sequence es => rowsAll es
  | .named name _ children =>
    if name = "tr" then children :: rowsAll children else rowsAll children

def rowsAll : List Element → List (List Element)
  | [] => []
  | e :: es => rows e ++ rowsAll es

end

theorem rowsAll_append (es gs : List Element) : rowsAll (es ++ gs) = rowsAll es ++ rowsAll gs := by
  induction es with
  | nil => rfl
  | cons e es ih => rw [List.cons_append, rowsAll, rowsAll, ih, List.append_assoc]

def rowLine (cells : List (List Char)) : List Char :=
  '|' :: cells.flatMap fun c => ' ' :: (c ++ [' ', '|'])

def separatorLine (columns : Nat) : List Char := rowLine (List.replicate columns ['-', '-', '-'])

theorem intercalate_eq_rowLine (c : List Char) (cells : List (List Char)) :
    '|' :: ' ' :: ([' ', '|', ' '].intercalate (c :: cells) ++ [' ', '|']) =
      rowLine (c :: cells) := by
  induction cells generalizing c with
  | nil => simp [rowLine]
  | cons d cells ih =>
    have hd := congrArg (List.drop 1) (ih d)
    simp only [List.drop_succ_cons, List.drop_zero] at hd
    rw [List.intercalate_cons_cons, rowLine, List.flatMap_cons]
    rw [rowLine] at hd
    simpa using hd

theorem rowText_eq {cells : List (List Char)} (h : cells ≠ []) (hasHeader : Bool) :
    rowText cells hasHeader = rowLine cells ++
      '\n' :: (if hasHeader then separatorLine cells.length ++ ['\n'] else []) := by
  obtain ⟨c, cells, rfl⟩ := List.exists_cons_of_ne_nil h
  have hmarks : ((c :: cells).map fun _ => ['-', '-', '-']) =
      List.replicate (c :: cells).length ['-', '-', '-'] := List.map_const'
  have hline := intercalate_eq_rowLine c cells
  have hsecond :=
    intercalate_eq_rowLine ['-', '-', '-'] (List.replicate cells.length ['-', '-', '-'])
  rw [rowText, hmarks, List.length_cons, List.replicate_succ, separatorLine, List.replicate_succ,
    ← hline, ← hsecond]
  split <;> simp

end Element

/-! ## Splitting a row -/

namespace Markdown.Table

open Text Element

theorem splitFrom_of_ne {c : Char} (hc : c ≠ '|') (cell r : List Char) :
    splitFrom cell (c :: r) = splitFrom (c :: cell) r :=
  splitFrom.eq_4 cell c r hc fun _ _ h => hc h

theorem splitFrom_ne_nil (cell s : List Char) : splitFrom cell s ≠ [] := by
  fun_induction splitFrom cell s with
  | case1 | case3 => exact List.cons_ne_nil _ _
  | case2 _ _ ih => exact ih
  | case4 _ _ _ _ _ ih => exact ih

theorem splitFrom_append_bar (cell s r : List Char) :
    splitFrom cell (s ++ ' ' :: '|' :: r) = splitFrom cell (s ++ [' ']) ++ splitFrom [] r := by
  fun_induction splitFrom cell s with
  | case1 cell =>
    have hspace : ' ' ≠ '|' := by decide
    rw [List.nil_append, List.nil_append, splitFrom_of_ne hspace, splitFrom_of_ne hspace,
      splitFrom.eq_3 _ _ (by simp), splitFrom, List.singleton_append]
  | case2 cell s ih =>
    simp only [List.cons_append, splitFrom.eq_2]
    exact ih
  | case3 cell s hcell ih =>
    simp only [List.cons_append, splitFrom.eq_3 _ _ hcell, ih]
  | case4 cell c s _ hc ih =>
    simp only [List.cons_append, splitFrom_of_ne hc]
    exact ih

/-- The cells of a printed row: each cell is split for itself. -/
theorem cells_rowLine (cells : List (List Char)) :
    Table.cells (rowLine cells) = cells.flatMap fun c => splitFrom [] (' ' :: (c ++ [' '])) := by
  have hsplit : splitFrom [] (cells.flatMap fun c => ' ' :: (c ++ [' ', '|'])) =
      (cells.flatMap fun c => splitFrom [] (' ' :: (c ++ [' ']))) ++ [[]] := by
    induction cells with
    | nil => rfl
    | cons c cells ih =>
      have hc := splitFrom_append_bar [] (' ' :: c)
        (cells.flatMap fun c => ' ' :: (c ++ [' ', '|']))
      simp only [List.cons_append] at hc
      simp only [List.flatMap_cons, List.cons_append, List.append_assoc, List.nil_append]
      rw [hc, ih]
  have hstrip : strip (rowLine cells) = rowLine cells := by
    have hlast : ∃ s, rowLine cells = s ++ ['|'] := by
      rcases List.eq_nil_or_concat cells with rfl | ⟨front, c, rfl⟩
      · exact ⟨[], rfl⟩
      · exact ⟨'|' :: (front.flatMap fun c => ' ' :: (c ++ [' ', '|'])) ++ ' ' :: (c ++ [' ']),
          by simp [rowLine]⟩
    obtain ⟨s, hs⟩ := hlast
    rw [strip, stripLeft_of_stops (by simp [rowLine]; decide), hs,
      stripRight_of_stops (by simp; decide)]
  rw [Table.cells, hstrip, rowLine, splitFrom.eq_3 _ _ (by simp), hsplit]
  simp

/-! ### Bars in a cell -/

theorem splitFrom_of_no_bar {s : List Char} (h : '|' ∉ s) (cell : List Char) :
    splitFrom cell s = [cell.reverse ++ s] := by
  induction s generalizing cell with
  | nil => simp [splitFrom]
  | cons c s ih =>
    simp only [List.mem_cons, not_or] at h
    rw [splitFrom_of_ne (Ne.symm h.1), ih h.2]
    simp

/-- When no bar divides a text, each bar in it takes the backslash before it. -/
theorem count_of_splitFrom {cell s piece : List Char} (h : splitFrom cell s = [piece]) :
    piece.count '\\' + s.count '|' = cell.count '\\' + s.count '\\' := by
  fun_induction splitFrom cell s with
  | case1 cell =>
    obtain rfl := List.singleton_inj.1 h
    simp
  | case2 cell s ih =>
    have := ih h
    simp only [List.count_cons_self, List.count_cons_of_ne (show '|' ≠ '\\' by decide)] at this ⊢
    omega
  | case3 cell s _ ih => exact absurd (List.cons.inj h).2 (splitFrom_ne_nil _ _)
  | case4 cell c s _ hc ih =>
    have hbar : (c :: s).count '|' = s.count '|' := List.count_cons_of_ne hc
    have hmoved : (c :: cell).count '\\' + s.count '\\' =
        cell.count '\\' + (c :: s).count '\\' := by
      simp only [List.count_cons]
      omega
    rw [hbar, ← hmoved]
    exact ih h

theorem count_strip (s : List Char) : (strip s).count '\\' = s.count '\\' := by
  have hblank : ∀ a, isBlankText a = true → a.count '\\' = 0 := by
    intro a ha
    refine List.count_eq_zero.2 fun hmem => ?_
    exact absurd (List.all_eq_true.1 ha _ hmem) (by decide)
  obtain ⟨a, ha, hs⟩ := exists_stripLeft s
  obtain ⟨b, hb, ht⟩ := exists_stripRight (stripLeft s)
  have hleft := congrArg (List.count '\\') hs
  have hright := congrArg (List.count '\\') ht
  rw [List.count_append, hblank a ha] at hleft
  rw [List.count_append, hblank b hb] at hright
  rw [strip]
  omega

/-- The cell between its spaces, split, is the cell again exactly if it has no bar. -/
theorem strip_splitFrom_iff (c : List Char) :
    (splitFrom [] (' ' :: (c ++ [' ']))).map strip = [strip c] ↔ '|' ∉ c := by
  have hspaces : strip (' ' :: (c ++ [' '])) = strip c :=
    (strip_append_of_left (a := [' ']) (by decide)).trans (strip_append_of_right (by decide))
  constructor
  · intro h
    obtain ⟨piece, hpiece, hstrip⟩ := List.map_eq_singleton_iff.1 h
    have hcount := count_of_splitFrom hpiece
    have hsame := congrArg (List.count '\\') hstrip
    rw [count_strip, count_strip] at hsame
    simp only [List.count_cons, List.count_append, List.count_nil] at hcount
    refine List.count_eq_zero.1 ?_
    simp at hcount
    omega
  · intro h
    rw [splitFrom_of_no_bar (by simp [h])]
    simp [hspaces]

/-- A row gives its cells back exactly if none of them has a bar. -/
theorem cells_rowLine_iff (cells : List (List Char)) :
    (Table.cells (rowLine cells)).map strip = cells.map strip ↔ ∀ c ∈ cells, '|' ∉ c := by
  have hlength : ∀ cs : List (List Char),
      cs.length ≤ (cs.flatMap fun c => splitFrom [] (' ' :: (c ++ [' ']))).length := by
    intro cs
    induction cs with
    | nil => exact Nat.le_refl _
    | cons c cs ih =>
      have hc := List.length_pos_iff.2 (splitFrom_ne_nil [] (' ' :: (c ++ [' '])))
      rw [List.flatMap_cons, List.length_append, List.length_cons]
      omega
  rw [cells_rowLine]
  induction cells with
  | nil => simp
  | cons c cells ih =>
    rw [List.forall_mem_cons, ← strip_splitFrom_iff, List.flatMap_cons, List.map_append,
      List.map_cons]
    refine Iff.trans ?_ (and_congr_right fun _ => ih)
    constructor
    · intro h
      have hc := List.length_pos_iff.2 (splitFrom_ne_nil [] (' ' :: (c ++ [' '])))
      have hall := congrArg List.length h
      simp only [List.length_append, List.length_map, List.length_cons] at hall
      have hone : (splitFrom [] (' ' :: (c ++ [' ']))).length = 1 := by
        have := hlength cells
        omega
      exact List.append_inj h (by simpa using hone)
    · rintro ⟨hc, hcells⟩
      rw [hc, hcells, List.singleton_append]

/-! ### The separating line -/

theorem splitBars_append_bar {s : List Char} (h : '|' ∉ s) (r : List Char) :
    splitBars (s ++ '|' :: r) = s :: splitBars r := by
  induction s with
  | nil => simp [splitBars]
  | cons c s ih =>
    simp only [List.mem_cons, not_or] at h
    rw [List.cons_append, splitBars, if_neg (Ne.symm h.1), ih h.2]

theorem splitBars_separatorLine (n : Nat) : splitBars (separatorLine n) =
    [] :: (List.replicate n [' ', '-', '-', '-', ' '] ++ [[]]) := by
  have hbars : ∀ n, splitBars ((List.replicate n ['-', '-', '-']).flatMap
      fun c => ' ' :: (c ++ [' ', '|'])) = List.replicate n [' ', '-', '-', '-', ' '] ++ [[]] := by
    intro n
    induction n with
    | zero => rfl
    | succ n ih =>
      rw [List.replicate_succ, List.flatMap_cons, List.replicate_succ]
      exact (splitBars_append_bar (s := [' ', '-', '-', '-', ' ']) (by decide) _).trans
        (congrArg _ ih)
  rw [separatorLine, rowLine, splitBars, if_pos rfl, hbars]

/-- The separating line has as many columns as it was printed for. -/
theorem columns?_separatorLine {n : Nat} (h : n ≠ 0) : columns? (separatorLine n) = some n := by
  have hmarks : looksLikeMarks (separatorLine n) = true := by
    obtain ⟨k, rfl⟩ := Nat.exists_eq_succ_of_ne_zero h
    have hall : ∀ c ∈ (List.replicate k ['-', '-', '-']).flatMap fun c => ' ' :: (c ++ [' ', '|']),
        (isMarkChar c || isSpaceOrTab c) = true := by
      intro c hc
      obtain ⟨s, hs, hc⟩ := List.mem_flatMap.1 hc
      rw [List.eq_of_mem_replicate hs] at hc
      have hmark : ∀ d ∈ [' ', '-', '-', '-', ' ', '|'],
          (isMarkChar d || isSpaceOrTab d) = true := by simp [isMarkChar, isSpaceOrTab]
      exact hmark c hc
    rw [separatorLine, rowLine, List.replicate_succ, List.flatMap_cons, List.cons_append,
      looksLikeMarks, List.all_append, List.all_eq_true.2 hall]
    decide
  have hrow : (splitBars (separatorLine n)).map strip =
      [] :: (List.replicate n ['-', '-', '-'] ++ [[]]) := by
    have hstrip : strip [' ', '-', '-', '-', ' '] = ['-', '-', '-'] := by decide
    rw [splitBars_separatorLine, List.map_cons, List.map_append, List.map_replicate, hstrip]
    rfl
  have hmark : isColumnMark ['-', '-', '-'] = true := by decide
  rw [columns?, if_pos hmarks, hrow]
  simp [hmark]

end Markdown.Table

namespace Element

open Text Markdown

/-! ## Lines -/

def IsLine (s : List Char) : Prop := ∀ c ∈ s, c ≠ '\n' ∧ c ≠ '\r'

theorem isLine_rowLine (cells : List (List Char)) :
    IsLine (rowLine cells) ↔ ∀ c ∈ cells, IsLine c := by
  simp only [IsLine, rowLine, List.mem_flatMap, List.mem_cons, List.mem_append, List.not_mem_nil,
    or_false]
  constructor
  · exact fun h c hc d hd => h d (.inr ⟨c, hc, .inr (.inl hd)⟩)
  · rintro h d (rfl | ⟨c, hc, rfl | hd | rfl | rfl⟩)
    · decide
    · decide
    · exact h c hc d hd
    · decide
    · decide

theorem isLine_separatorLine (n : Nat) : IsLine (separatorLine n) := by
  refine (isLine_rowLine _).2 fun c hc => ?_
  rw [List.eq_of_mem_replicate hc]
  simp [IsLine]

/-! ## Printing a row -/

structure AreCells (cells : List Element) : Prop where
  ne_nil : cells ≠ []
  named : ∀ c ∈ cells, c.isNamed ["th", "td"] = true

def cellTexts (indent : List Char) (frames : List ListFrame) (cells : List Element) :
    List (List Char) := (printEach isElement indent frames cells).1

variable {cells : List Element}

theorem print_row (indent : List Char) (frames : List ListFrame) (attributes : Attributes)
    (cells : List Element) : (print indent frames (.named "tr" attributes cells)).1 =
      rowText (cellTexts indent frames cells) (cells.any (·.isNamed ["th"])) := by
  have hlayout : layout indent "tr" attributes cells =
      .each isElement fun texts => rowText texts (cells.any (·.isNamed ["th"])) := rfl
  rw [print, hlayout]
  rfl

theorem strip_print_cell {c : Element} (h : c.isNamed ["th", "td"] = true) (indent : List Char)
    (frames : List ListFrame) : strip (print indent frames c).1 = (print indent frames c).1 := by
  cases c with
  | named name attributes children =>
    have hlayout : layout indent name attributes children = .all indent strip := by
      simp only [isNamed, List.contains_eq_mem, List.mem_cons, List.not_mem_nil, or_false,
        decide_eq_true_eq] at h
      rcases h with rfl | rfl <;> rfl
    rw [print, hlayout]
    exact strip_strip _
  | value | sequence => cases h

theorem cellTexts_of_cells (h : ∀ c ∈ cells, c.isNamed ["th", "td"] = true) (indent : List Char)
    (frames : List ListFrame) : (cellTexts indent frames cells).length = cells.length ∧
      (cellTexts indent frames cells).map strip = cellTexts indent frames cells := by
  induction cells generalizing frames with
  | nil => exact ⟨rfl, rfl⟩
  | cons c cells ih =>
    obtain ⟨hc, hcells⟩ := List.forall_mem_cons.1 h
    have helement : isElement c = true := by
      cases c with
      | named => rfl
      | value | sequence => cases hc
    obtain ⟨hlength, hmap⟩ := ih hcells (print indent frames c).2
    rw [cellTexts] at hlength hmap ⊢
    rw [printEach, if_pos helement]
    dsimp only
    rw [List.length_cons, List.length_cons, List.map_cons, hlength, hmap, strip_print_cell hc]
    exact ⟨rfl, rfl⟩

end Element

end DocPress
