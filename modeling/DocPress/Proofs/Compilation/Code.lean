import DocPress.Proofs.Compilation.Printed
import DocPress.Proofs.Document.Fences
import DocPress.Proofs.Markdown.Fence

/-!
# Code that is printed and read again

Code is always printed between three backticks, whatever stood around it in the source. The code
of a document comes back from what is printed exactly if this fence holds it: a longer fence is
never chosen, and the language is written as it is.
-/

set_option autoImplicit false

namespace DocPress

namespace Compilation

open Text Element Markdown Document

/-! ## Lines -/

def blocksOf (s : List Char) : List Block :=
  (Block.ofLines Directive.probe (Line.lines (plainSource s))).value

def codeText (language text : List Char) : List Char :=
  (fenceMark ++ language) ++ '\n' :: (endedCode text ++ fenceMark) ++ ['\n', '\n']

structure IsWritten (language text : List Char) : Prop where
  language : ∀ c ∈ language, isBlank c = false ∧ IsSource c
  text : ∀ c ∈ text, IsSource c

variable {language text : List Char}

theorem IsWritten.codeText (h : IsWritten language text) :
    ∀ c ∈ codeText language text, IsSource c := by
  have hmark : ∀ c ∈ fenceMark, IsSource c := by simp [fenceMark, IsSource]
  have hended : ∀ c ∈ endedCode text, IsSource c := by
    rw [endedCode]
    split
    · exact List.forall_mem_append.2 ⟨h.text, by simp [IsSource]⟩
    · exact h.text
  have hfirst : ∀ c ∈ fenceMark ++ language, IsSource c :=
    List.forall_mem_append.2 ⟨hmark, fun c hc => (h.language c hc).2⟩
  have hbehind : ∀ c ∈ '\n' :: (endedCode text ++ fenceMark), IsSource c :=
    List.forall_mem_cons.2 ⟨by decide, List.forall_mem_append.2 ⟨hended, hmark⟩⟩
  exact List.forall_mem_append.2 ⟨List.forall_mem_append.2 ⟨hfirst, hbehind⟩, by simp [IsSource]⟩

theorem lines_codeText (h : IsWritten language text) (rest : List Char) :
    Line.lines (codeText language text ++ rest) = endedLine (fenceMark ++ language) ::
      ((linesOfCode text).map endedLine ++
        endedLine fenceMark :: endedLine [] :: Line.lines rest) := by
  have hfirst : '\n' ∉ fenceMark ++ language := by
    rw [List.mem_append, not_or]
    exact ⟨by decide, fun hc => absurd (h.language _ hc).1 (by decide)⟩
  have htext : codeText language text ++ rest = (fenceMark ++ language) ++
      '\n' :: ((endedCode text ++ fenceMark) ++ '\n' :: ([] ++ '\n' :: rest)) := by
    simp [codeText]
  rw [htext, Line.lines_append, Line.lines_append, Line.lines_append, splitLines_of_no_feed hfirst,
    (splitLines_endedCode text).1]
  simp [splitLines]

theorem blocksOf_codeText (h : IsWritten language text) (rest : List Char) :
    blocksOf (codeText language text ++ rest) = (Block.readBlocks Directive.probe
      (Block.reader Directive.probe 19) (Block.reader Directive.probe 18) .top false true
      (endedLine (fenceMark ++ language) :: ((linesOfCode text).map endedLine ++
        endedLine fenceMark :: endedLine [] :: Line.lines (plainSource rest)))).value.blocks := by
  rw [← lines_codeText h, ← plainSource_append h.codeText]
  rfl

/-- Code that the fence holds is read as it is, and what follows it as if it stood alone. -/
theorem blocksOf_of_isFenced (h : IsWritten language text)
    (hf : Block.IsFenced language (linesOfCode text)) (rest : List Char) :
    blocksOf (codeText language text ++ rest) =
      .fence language (endedCode text) :: blocksOf rest := by
  rw [blocksOf_codeText h, Block.blocks_of_isFenced hf, (splitLines_endedCode text).2.1,
    Block.blocks_blank _ rfl]
  rfl

theorem isFenced_of_blocksOf (h : IsWritten language text) {info : List Char}
    (hread : blocksOf (codeText language text) = [.fence info (endedCode text)])
    (hinfo : Document.language info = String.ofList language) :
    Block.IsFenced language (linesOfCode text) := by
  rw [← List.append_nil (codeText language text), blocksOf_codeText h,
    ← (splitLines_endedCode text).2.1] at hread
  exact Block.isFenced_of_blocks (fun c hc => (h.language c hc).1) (String.ofList_inj.1 hinfo) hread

theorem blocksOf_nil : blocksOf [] = [] := by
  have hread : blocksOf [] = (Block.readBlocks Directive.probe (Block.reader Directive.probe 19)
    (Block.reader Directive.probe 18) .top false true []).value.blocks := rfl
  rw [hread, Block.readBlocks]
  rfl

theorem language_of_isWritten (h : IsWritten language text) :
    Document.language language = String.ofList language := by
  rw [Document.language, words_of_no_blank fun c hc => (h.language c hc).1]

/-! ## The code of a document -/

theorem resolve_code (scope : Resolution.Scope) (language text : List Char) :
    Resolution.resolve scope (Leaf.fence (String.ofList language) (String.ofList text)).node =
      pure (.one (codeElement language text)) := by
  rw [← codeBlock_language]
  rfl

/-- Each node of code in a document that is read is printed, wherever it stands, as its code, the
last line ended, between three backticks, with its language behind the first of them. What is
printed is read as one block of the same language and code, which ends with the last line, exactly
if the language has no backtick, its line does not start a table with the first line of the code,
and no line of the code closes the fence. In that case what follows is read as if it stood alone. -/
theorem code_reads_back {name source : String} {n m : Node}
    (h : (Document.read name source).result = .ok n) (hm : m ∈ n.walk) (hk : m.kind = .fence) :
    ∃ language text,
      m = (Leaf.fence (String.ofList language) (String.ofList text)).node ∧
      (∀ scope, Resolution.resolve scope m = pure (.one (codeElement language text))) ∧
      (∀ indent frames, print indent frames (codeElement language text) =
        (codeText language text, frames)) ∧
      ((∃ info, blocksOf (codeText language text) = [.fence info (endedCode text)] ∧
          Document.language info = String.ofList language) ↔
        Block.IsFenced language (linesOfCode text)) ∧
      (Block.IsFenced language (linesOfCode text) → ∀ rest,
        blocksOf (codeText language text ++ rest) =
          .fence language (endedCode text) :: blocksOf rest) := by
  obtain ⟨language, text, rfl, hlanguage, htext⟩ := isCode_of_read h hm hk
  have hwritten : IsWritten language text := ⟨hlanguage, htext⟩
  refine ⟨language, text, rfl, fun scope => resolve_code scope language text,
    fun indent frames => print_codeElement indent frames language text, ⟨?_, fun hf => ?_⟩,
    fun hf rest => blocksOf_of_isFenced hwritten hf rest⟩
  · rintro ⟨info, hread, hinfo⟩
    exact isFenced_of_blocksOf hwritten hread hinfo
  · refine ⟨language, ?_, language_of_isWritten hwritten⟩
    have hread := blocksOf_of_isFenced hwritten hf []
    rwa [List.append_nil, blocksOf_nil] at hread

def codesOf (source : String) : Option (List (String × Option String)) :=
  (Document.read "" source).result.toOption.map fun n =>
    (n.walk.filter (·.kind == .fence)).map fun m =>
      ((Attributes.get m.attributes "language").display, m.content)

theorem exists_of_codesOf {source language text : String}
    (h : codesOf source = some [(language, some text)]) :
    ∃ n m, (Document.read "" source).result = .ok n ∧ m ∈ n.walk ∧ m.kind = .fence ∧
      (Attributes.get m.attributes "language").display = language ∧ m.content = some text := by
  obtain ⟨n, hn, hcodes⟩ := Option.map_eq_some_iff.1 h
  obtain ⟨m, hwalk, hm⟩ := List.map_eq_singleton_iff.1 hcodes
  have hmem : m ∈ n.walk.filter (·.kind == .fence) := by
    rw [hwalk]
    exact List.mem_singleton_self m
  obtain ⟨hin, hkind⟩ := List.mem_filter.1 hmem
  refine ⟨n, m, ?_, hin, eq_of_beq hkind, congrArg Prod.fst hm, congrArg Prod.snd hm⟩
  cases hr : (Document.read "" source).result with
  | error f =>
    rw [hr] at hn
    cases hn
  | ok n' =>
    rw [hr] at hn
    rw [Option.some.inj hn]

theorem eq_of_shown {m : Node} {language text : List Char} {shown : String} {content : String}
    (hm : m = (Leaf.fence (String.ofList language) (String.ofList text)).node)
    (hlanguage : (Attributes.get m.attributes "language").display = shown)
    (hcontent : m.content = some content) : language = shown.toList ∧ text = content.toList := by
  subst hm
  have hshown : String.ofList language = shown := hlanguage
  have htext : String.ofList text = content := Option.some.inj hcontent
  rw [← hshown, ← htext, String.toList_ofList, String.toList_ofList]
  exact ⟨rfl, rfl⟩

def tildeSource : String := "~~~ py x\n  a \x60b\x60\n\n\x60\x60\n~~~\n"

def tildeText : String := "  a \x60b\x60\n\n\x60\x60\n"

theorem code_reads_back_of_tildes : ∃ n m, (Document.read "" tildeSource).result = .ok n ∧
    m ∈ n.walk ∧ m.content = some tildeText ∧ ∃ info,
      blocksOf (codeText "py".toList tildeText.toList) = [.fence info tildeText.toList] ∧
        Document.language info = "py" := by
  have hcodes : codesOf tildeSource = some [("py", some tildeText)] := by decide +kernel
  obtain ⟨n, m, hn, hm, hk, hlanguage, hcontent⟩ := exists_of_codesOf hcodes
  obtain ⟨language, text, hnode, -, -, hiff, -⟩ := code_reads_back hn hm hk
  obtain ⟨rfl, rfl⟩ := eq_of_shown hnode hlanguage hcontent
  have hfenced : Block.IsFenced "py".toList (linesOfCode tildeText.toList) := by decide
  obtain ⟨info, hread, hinfo⟩ := hiff.2 hfenced
  exact ⟨n, m, hn, hm, hcontent, info, hread, hinfo⟩

def IsLost (source language text : String) : Prop :=
  (∃ n m, (Document.read "" source).result = .ok n ∧ m ∈ n.walk ∧ m.kind = .fence ∧
    (Attributes.get m.attributes "language").display = language ∧ m.content = some text) ∧
  ¬∃ info, blocksOf (codeText language.toList text.toList) =
      [.fence info (endedCode text.toList)] ∧
    Document.language info = String.ofList language.toList

theorem isLost_of_codesOf {source language text : String}
    (h : codesOf source = some [(language, some text)])
    (hlost : ¬Block.IsFenced language.toList (linesOfCode text.toList)) :
    IsLost source language text := by
  obtain ⟨n, m, hn, hm, hk, hlanguage, hcontent⟩ := exists_of_codesOf h
  obtain ⟨word, content, rfl, hword, htext⟩ := isCode_of_read hn hm hk
  obtain ⟨rfl, rfl⟩ := eq_of_shown rfl hlanguage hcontent
  refine ⟨exists_of_codesOf h, fun ⟨info, hread, hinfo⟩ => hlost ?_⟩
  exact isFenced_of_blocksOf ⟨hword, htext⟩ hread hinfo

/-- Code is lost by a line that closes the fence, by a backtick in the language, and by a line with
which the language becomes the header of a table. -/
theorem not_code_reads_back :
    IsLost "~~~\n\x60\x60\x60\n~~~\n" "" "\x60\x60\x60\n" ∧
    IsLost "~~~ a\x60b\nx\n~~~\n" "a\x60b" "x\n" ∧
    IsLost "~~~ a|b c|d\n---|---\n~~~\n" "a|b" "---|---\n" :=
  ⟨isLost_of_codesOf (by decide +kernel) (by decide),
    isLost_of_codesOf (by decide +kernel) (by decide),
    isLost_of_codesOf (by decide +kernel) (by decide)⟩

end Compilation

end DocPress
