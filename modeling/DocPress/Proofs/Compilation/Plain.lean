import DocPress.Element.Printer
import DocPress.Proofs.Markdown.Plain

/-!
# Plain documents

A plain document is a sequence of headings and paragraphs of plain wording, of rules and of code
between fences. It is printed block by block, with a blank line between two of them.
-/

set_option autoImplicit false

namespace DocPress.Compilation

open Text Element Markdown

/-- Code that stands between fences: neither its language nor one of its lines ends it. -/
structure Code where
  language : List Char
  text : List Char
  letters : ∀ c ∈ language, c.isAlpha = true
  plain : '\r' ∉ text ∧ '\x00' ∉ text
  unfenced : ∀ l ∈ splitLines text, Block.IsUnfenced l

inductive Plain where
  | heading (level : Fin 6) (wording : Wording)
  | paragraph (wording : Wording)
  | rule
  | code (code : Code)

def endedCode (text : List Char) : List Char :=
  if !text.isEmpty && text.getLast? != some '\n' then text ++ ['\n'] else text

def codeElement (language text : List Char) : Element :=
  let tagged : Attributes := [("data-language", .string (String.ofList language))]
  .named "pre" tagged [.named "code" tagged [.text (String.ofList text)]]

namespace Plain

def headingElement : Fin 6 → String
  | 0 => "h1"
  | 1 => "h2"
  | 2 => "h3"
  | 3 => "h4"
  | 4 => "h5"
  | 5 => "h6"

def element : Plain → Element
  | .heading level w => .named (headingElement level) [] [.text (String.ofList w.text)]
  | .paragraph w => .named "p" [] [.text (String.ofList w.text)]
  | .rule => .named "hr" [] []
  | .code c => codeElement c.language c.text

def settled : Plain → Element
  | .code c => codeElement c.language (endedCode c.text)
  | p => p.element

/-- The lines that a block is printed as, the last one without its line feed. -/
def text : Plain → List Char
  | .heading level w => List.replicate (level + 1) '#' ++ ' ' :: w.text
  | .paragraph w => w.text
  | .rule => ['-', '-', '-']
  | .code c => (fenceMark ++ c.language) ++ '\n' :: (endedCode c.text ++ fenceMark)

end Plain

/-- A whole document: blank lines stand between its blocks. -/
def docText : List Plain → List Char
  | [] => []
  | [p] => p.text
  | p :: q :: ps => p.text ++ '\n' :: '\n' :: docText (q :: ps)

/-! ## Printing -/

theorem headingLevel?_headingElement (level : Fin 6) :
    headingLevel? (Plain.headingElement level) = some (level + 1 : Nat) := by
  revert level
  decide

theorem endedCode_eq (text : List Char) : endedCode text =
    text ++ (if !text.isEmpty && text.getLast? != some '\n' then ['\n'] else []) := by
  unfold endedCode
  split <;> simp

theorem endedCode_endedCode (text : List Char) : endedCode (endedCode text) = endedCode text := by
  by_cases h : (!text.isEmpty && text.getLast? != some '\n') = true
  · have hended : endedCode text = text ++ ['\n'] := if_pos h
    rw [hended, endedCode, if_neg (by simp)]
  · have hended : endedCode text = text := if_neg h
    rw [hended, hended]

theorem isTruthy_ofList (t : List Char) :
    (Value.string (String.ofList t)).isTruthy = true ↔ t ≠ [] := by
  rw [Value.isTruthy, bne_iff_ne, Ne, ← String.toList_inj]
  simp

theorem attributeText_language (language : List Char) :
    attributeText [("data-language", .string (String.ofList language))] "data-language" =
      language := by
  have hget : Attributes.get [("data-language", .string (String.ofList language))]
      "data-language" = .string (String.ofList language) := rfl
  rw [attributeText, hget]
  split
  · exact String.toList_ofList
  · next h =>
    have hnil : language = [] := by simpa [isTruthy_ofList] using h
    exact hnil.symm

theorem print_codeElement (indent : List Char) (frames : List ListFrame)
    (language text : List Char) : print indent frames (codeElement language text) =
      ((fenceMark ++ language) ++ '\n' :: (endedCode text ++ fenceMark) ++ ['\n', '\n'],
        frames) := by
  have hprint : print indent frames (codeElement language text) = (codeBlock
      (attributeText [("data-language", .string (String.ofList language))] "data-language")
      ((String.ofList text).toList ++ []), frames) := rfl
  rw [hprint, attributeText_language, String.toList_ofList, List.append_nil, codeBlock,
    endedCode_eq]
  simp

theorem print_paragraph {s : List Char} (hs : strip s = s) (hne : s ≠ [])
    (frames : List ListFrame) : print [] frames (.named "p" [] [.text (String.ofList s)]) =
      (s ++ ['\n', '\n'], frames) := by
  have hitems : isItemParagraph [.text (String.ofList s)] = false := by
    rw [isItemParagraph, List.filter_cons]
    split <;> rfl
  have hlayout : layout [] "p" [] [.text (String.ofList s)] = .all [] fun s =>
      let s := strip s
      if s.isEmpty then [] else [] ++ s ++ ['\n', '\n'] := by
    have hp : headingLevel? "p" = none := rfl
    have hp' : inlineMark? "p" = none := rfl
    simp only [layout, hp, hp', hitems]
    rfl
  have hprint : printAll [] frames [.text (String.ofList s)] = (s, frames) := by
    simp [printAll, print, Element.text, valueText]
  rw [print, hlayout]
  dsimp only
  rw [hprint]
  dsimp only
  rw [hs, if_neg (by simpa using hne)]
  rfl

theorem print_element (p : Plain) : print [] [] p.element = (p.text ++ ['\n', '\n'], []) := by
  cases p with
  | heading level w =>
    have hlayout : layout [] (Plain.headingElement level) [] [.text (String.ofList w.text)] =
        .all [] fun s => List.replicate (level + 1) '#' ++ [' '] ++ s ++ ['\n', '\n'] := by
      unfold layout
      rw [headingLevel?_headingElement]
    rw [Plain.element, print, hlayout]
    simp [printAll, print, Element.text, valueText, Plain.text]
  | paragraph w =>
    obtain ⟨c, r, hcr, -⟩ := w.isWording.first
    exact print_paragraph w.isWording.strip_eq (by simp [hcr]) []
  | rule => rfl
  | code c => exact print_codeElement ..

theorem print_settled (p : Plain) : print [] [] p.settled = (p.text ++ ['\n', '\n'], []) := by
  cases p with
  | heading level w => exact print_element (.heading level w)
  | paragraph w => exact print_element (.paragraph w)
  | rule => exact print_element .rule
  | code c =>
    rw [Plain.settled, print_codeElement, endedCode_endedCode]
    rfl

structure IsTrimmed (s : List Char) : Prop where
  ne : s ≠ []
  first : Stops isBlank s
  last : Stops isBlank s.reverse

theorem IsTrimmed.append {a b : List Char} (ha : IsTrimmed a) (hb : IsTrimmed b) (s : List Char) :
    IsTrimmed (a ++ (s ++ b)) := by
  obtain ⟨c, r, hcr⟩ := List.exists_cons_of_ne_nil ha.ne
  obtain ⟨d, q, hdq⟩ := List.exists_cons_of_ne_nil (List.reverse_ne_nil_iff.2 hb.ne)
  have hfirst := ha.first
  have hlast := hb.last
  rw [hcr, stops_cons] at hfirst
  rw [hdq, stops_cons] at hlast
  refine ⟨by simp [hcr], by simp [hcr, hfirst], ?_⟩
  simp [hdq, hlast]

theorem isTrimmed_wording (w : Wording) : IsTrimmed w.text := by
  refine ⟨?_, stops_of_isAlpha isAlpha_of_isBlank w.isWording.first,
    stops_of_isAlpha isAlpha_of_isBlank w.isWording.last⟩
  obtain ⟨c, r, hr, -⟩ := w.isWording.first
  simp [hr]

theorem isTrimmed_fenceMark : IsTrimmed fenceMark := ⟨by decide, rfl, rfl⟩

theorem isTrimmed_text (p : Plain) : IsTrimmed p.text := by
  cases p with
  | heading level w =>
    have hmark : IsTrimmed ['#'] := ⟨by decide, rfl, rfl⟩
    have h := hmark.append (isTrimmed_wording w) (List.replicate level '#' ++ [' '])
    simpa [Plain.text, List.replicate_succ] using h
  | paragraph w => exact isTrimmed_wording w
  | rule => exact ⟨by decide, rfl, rfl⟩
  | code c =>
    have h := isTrimmed_fenceMark.append isTrimmed_fenceMark
      (c.language ++ '\n' :: endedCode c.text)
    simpa [Plain.text] using h

theorem isTrimmed_docText {ps : List Plain} (hne : ps ≠ []) : IsTrimmed (docText ps) := by
  induction ps with
  | nil => exact absurd rfl hne
  | cons p ps ih =>
    cases ps with
    | nil => exact isTrimmed_text p
    | cons q ps => exact (isTrimmed_text p).append (ih (by simp)) ['\n', '\n']

theorem printAll_plain {f : Plain → Element}
    (hf : ∀ p, print [] [] (f p) = (p.text ++ ['\n', '\n'], [])) {ps : List Plain} (hne : ps ≠ []) :
    printAll [] [] (ps.map f) = (docText ps ++ ['\n', '\n'], []) := by
  induction ps with
  | nil => exact absurd rfl hne
  | cons p ps ih =>
    cases ps with
    | nil => simp [printAll, hf, docText]
    | cons q ps =>
      rw [List.map_cons, printAll, hf]
      dsimp only
      rw [ih (by simp)]
      simp [docText]

def article (es : List Element) : Element := .named "article" [] es

theorem render_article {f : Plain → Element}
    (hf : ∀ p, print [] [] (f p) = (p.text ++ ['\n', '\n'], [])) (ps : List Plain) :
    render (article (ps.map f)) = String.ofList (docText ps ++ ['\n']) := by
  have hprint : print [] [] (article (ps.map f)) = printAll [] [] (ps.map f) := rfl
  by_cases hne : ps = []
  · rw [hne]
    rfl
  · have h := isTrimmed_docText hne
    rw [render, hprint, printAll_plain hf hne, strip, stripLeft_of_stops]
    · rw [stripRight_append (by decide), stripRight_of_stops h.last]
    · obtain ⟨c, r, hcr⟩ := List.exists_cons_of_ne_nil h.ne
      have hfirst := h.first
      rw [hcr, stops_cons] at hfirst
      rw [hcr, List.cons_append, stops_cons]
      exact hfirst

/-- Code may hold a directive. -/
example : render (article [Plain.rule.element, Plain.element (.code ⟨"md".toList,
    "\x7b% a /%\x7d".toList, by simp, by decide, by decide⟩)]) =
      "---\n\n\x60\x60\x60md\n\x7b% a /%\x7d\n\x60\x60\x60\n" := by
  decide

end DocPress.Compilation
