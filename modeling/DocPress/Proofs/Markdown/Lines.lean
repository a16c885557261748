import DocPress.Element.Printer
import DocPress.Markdown.Line
import DocPress.Proofs.Text.Scanning

/-!
# Texts and their lines

A text whose last line is ended is read as the lines that stand between its line feeds, and
lines that are not cut are the text again.
-/

set_option autoImplicit false

namespace DocPress

namespace Element

theorem splitLines_ne_nil (s : List Char) : splitLines s ≠ [] := by
  cases s with
  | nil => simp [splitLines]
  | cons c r =>
    rw [splitLines]
    split
    · simp
    · split <;> simp

theorem splitLines_cons_of_ne {c : Char} (hc : c ≠ '\n') {r l : List Char} {ls : List (List Char)}
    (h : splitLines r = l :: ls) : splitLines (c :: r) = (c :: l) :: ls := by
  rw [splitLines, if_neg hc, h]

theorem splitLines_append (a b : List Char) :
    splitLines (a ++ '\n' :: b) = splitLines a ++ splitLines b := by
  induction a with
  | nil => rfl
  | cons c a ih =>
    by_cases hc : c = '\n'
    · rw [List.cons_append, splitLines, if_pos hc, ih, splitLines, if_pos hc, List.cons_append]
    · obtain ⟨l, ls, hl⟩ := List.exists_cons_of_ne_nil (splitLines_ne_nil a)
      rw [hl, List.cons_append] at ih
      rw [List.cons_append, splitLines_cons_of_ne hc ih, splitLines_cons_of_ne hc hl,
        List.cons_append]

theorem splitLines_of_no_feed {s : List Char} (h : '\n' ∉ s) : splitLines s = [s] := by
  induction s with
  | nil => rfl
  | cons c s ih =>
    simp only [List.mem_cons, not_or] at h
    exact splitLines_cons_of_ne (Ne.symm h.1) (ih h.2)

theorem flatMap_splitLines (s : List Char) :
    ((splitLines s).flatMap fun l => l ++ ['\n']) = s ++ ['\n'] := by
  induction s with
  | nil => rfl
  | cons c s ih =>
    by_cases hc : c = '\n'
    · rw [splitLines, if_pos hc, List.flatMap_cons, ih, hc]
      rfl
    · obtain ⟨l, ls, hl⟩ := List.exists_cons_of_ne_nil (splitLines_ne_nil s)
      rw [hl, List.flatMap_cons] at ih
      rw [splitLines_cons_of_ne hc hl, List.flatMap_cons, List.cons_append, List.cons_append, ih,
        List.cons_append]

end Element

namespace Markdown

open Text Element

def endedLine (l : List Char) : Line := .ofText l true

namespace Line

theorem ofSource_concat (read s : List Char) :
    ofSource read (s ++ ['\n']) = match splitLines s with
      | [] => []
      | l :: ls => endedLine (read.reverse ++ l) :: ls.map endedLine := by
  induction s generalizing read with
  | nil => simp [ofSource, splitLines, endedLine]
  | cons c s ih =>
    obtain ⟨l, ls, hl⟩ := List.exists_cons_of_ne_nil (splitLines_ne_nil s)
    rw [List.cons_append, ofSource, ih, ih, splitLines, hl]
    by_cases hc : c = '\n'
    · simp [hc, endedLine]
    · simp [hc]

theorem lines_concat (s : List Char) : lines (s ++ ['\n']) = (splitLines s).map endedLine := by
  obtain ⟨l, ls, hl⟩ := List.exists_cons_of_ne_nil (splitLines_ne_nil s)
  rw [lines, ofSource_concat, hl]
  simp

theorem ofSource_append (read s r : List Char) :
    ofSource read (s ++ '\n' :: r) = ofSource read (s ++ ['\n']) ++ lines r := by
  induction s generalizing read with
  | nil => simp [ofSource, lines]
  | cons c s ih =>
    rw [List.cons_append, List.cons_append, ofSource, ofSource, ih, ih]
    split <;> rfl

theorem lines_append (s r : List Char) :
    lines (s ++ '\n' :: r) = (splitLines s).map endedLine ++ lines r := by
  rw [← lines_concat, lines, lines, ofSource_append]

theorem ofSource_of_no_feed (read : List Char) {s : List Char} (h : '\n' ∉ s) :
    ofSource read s =
      if (s.reverse ++ read).all isSpaceOrTab then []
      else [ofText (s.reverse ++ read).reverse false] := by
  induction s generalizing read with
  | nil => rfl
  | cons c s ih =>
    simp only [List.mem_cons, not_or] at h
    rw [ofSource, if_neg (Ne.symm h.1), ih _ h.2]
    simp

theorem lines_of_no_feed {s : List Char} (h : '\n' ∉ s) (hs : s.all isSpaceOrTab = false) :
    lines s = [ofText s false] := by
  have hall : (s.reverse ++ []).all isSpaceOrTab = false := by simpa using hs
  rw [lines, ofSource_of_no_feed [] h, hall]
  simp

theorem cut_zero (l : Line) : l.cut 0 = l.lead ++ l.body := by
  unfold cut
  cases l.lead ++ l.body with
  | nil => rfl
  | cons c r => simp [cutFrom]

@[simp] theorem cut_endedLine (s : List Char) : (endedLine s).cut 0 = s := by
  rw [cut_zero]
  exact List.takeWhile_append_dropWhile

@[simp] theorem ended_endedLine (s : List Char) : (endedLine s).ended = true := rfl

theorem textOf_ended (ls : List (List Char)) :
    textOf 0 true (ls.map endedLine) = ls.flatMap fun l => l ++ ['\n'] := by
  induction ls with
  | nil => rfl
  | cons l ls ih =>
    cases ls with
    | nil => simp [textOf]
    | cons m ls =>
      rw [List.map_cons] at ih
      rw [List.map_cons, List.map_cons, textOf, ih, List.flatMap_cons]
      · simp
      · nofun

theorem ofText_of_stops {s : List Char} (h : Stops isSpaceOrTab s) (ended : Bool) :
    ofText s ended = ⟨[], s, 0, 0, ended⟩ := by
  rw [ofText, takeWhile_of_stops h, dropWhile_of_stops h]
  rfl

theorem endedLine_of_stops {s : List Char} (h : Stops isSpaceOrTab s) :
    endedLine s = ⟨[], s, 0, 0, true⟩ := ofText_of_stops h true

theorem isEmpty_endedLine {s : List Char} (h : Stops isSpaceOrTab s) (hne : s ≠ []) :
    (endedLine s).isEmpty = false := by
  rw [endedLine_of_stops h, isEmpty, List.isEmpty_eq_false_iff]
  exact hne

end Line

end Markdown

end DocPress
