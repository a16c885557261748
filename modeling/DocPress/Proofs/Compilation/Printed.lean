import DocPress.Compilation
import DocPress.Proofs.Compilation.Plain
import DocPress.Proofs.Document.Flattening
import DocPress.Proofs.Markdown.Phrase

/-!
# Printed documents

What a plain document is printed as is read as the same document: every block is told from those
around it, and code comes back as it is, whatever it holds. So to compile it changes nothing.
-/

set_option autoImplicit false

namespace DocPress.Compilation

open Text Element Markdown Document

/-! ## Reading -/

namespace Plain

def block : Plain → Block
  | .heading level w => .heading (level + 1) w.text
  | .paragraph w => .paragraph w.text
  | .rule => .rule
  | .code c => .fence c.language (endedCode c.text)

end Plain

def linesOfCode (text : List Char) : List (List Char) := (splitLines (endedCode text)).dropLast

theorem linesOfCode_ended {text t : List Char} (h : endedCode text = t ++ ['\n']) :
    linesOfCode text = splitLines t := by
  rw [linesOfCode, h, splitLines_append, splitLines_of_no_feed List.not_mem_nil,
    List.dropLast_concat]

theorem exists_endedCode {text : List Char} (hne : text ≠ []) :
    ∃ t, endedCode text = t ++ ['\n'] ∧ ∀ l ∈ splitLines t, l ∈ splitLines text := by
  by_cases h : (!text.isEmpty && text.getLast? != some '\n') = true
  · exact ⟨text, if_pos h, fun _ hl => hl⟩
  · have hlast : text.getLast? = some '\n' := by simpa [hne] using h
    obtain ⟨t, rfl⟩ := List.getLast?_eq_some_iff.1 hlast
    refine ⟨t, if_neg h, fun l hl => ?_⟩
    rw [splitLines_append]
    exact List.mem_append_left _ hl

theorem splitLines_endedCode (text : List Char) :
    splitLines (endedCode text ++ fenceMark) = linesOfCode text ++ [fenceMark] ∧
      ((linesOfCode text).flatMap fun l => l ++ ['\n']) = endedCode text ∧
      ∀ l ∈ linesOfCode text, l ∈ splitLines text := by
  by_cases hne : text = []
  · rw [hne]
    exact ⟨rfl, rfl, by simp [linesOfCode, endedCode, splitLines]⟩
  · obtain ⟨t, ht, hmem⟩ := exists_endedCode hne
    rw [linesOfCode_ended ht, ht, List.append_assoc, List.singleton_append, splitLines_append]
    exact ⟨rfl, flatMap_splitLines t, hmem⟩

section

variable {φ : Type}

theorem IsTrimmed.isEmpty_endedLine {l : List Char} (h : IsTrimmed l) :
    (endedLine l).isEmpty = false :=
  Line.isEmpty_endedLine (h.first.mono isBlank_of_isSpaceOrTab) h.ne

theorem feed_not_mem_wording (w : Wording) : '\n' ∉ w.text :=
  w.isWording.not_mem (by decide) (by decide)

/-- Each block is read off its own lines, when a blank line or nothing follows. -/
theorem exists_lines (recognise : Directive.Recogniser φ) (quoted nested : Block.Reader φ)
    (p : Plain) : ∃ l more, splitLines p.text = l :: more ∧ (endedLine l).isEmpty = false ∧
      ∀ rest, Block.EndsThere rest → Block.readBlock recognise quoted nested .top (endedLine l)
        (more.map endedLine ++ rest) = pure (p.block, more.length) := by
  cases p with
  | heading level w =>
    refine ⟨_, [], splitLines_of_no_feed ?_, ?_, fun rest _ => ?_⟩
    · simp [Plain.text, feed_not_mem_wording]
    · exact (isTrimmed_text (.heading level w)).isEmpty_endedLine
    · exact Block.readBlock_heading w.isWording (Nat.succ_pos _) level.isLt rest
  | paragraph w =>
    exact ⟨_, [], splitLines_of_no_feed (feed_not_mem_wording w),
      (isTrimmed_wording w).isEmpty_endedLine, fun rest hrest =>
        Block.readBlock_paragraph w.isWording hrest⟩
  | rule => exact ⟨_, [], rfl, rfl, fun rest _ => Block.readBlock_rule rest⟩
  | code c =>
    obtain ⟨hls, htext, hmem⟩ := splitLines_endedCode c.text
    have hfeed : '\n' ∉ fenceMark ++ c.language := by
      rw [List.mem_append, not_or]
      exact ⟨by decide, fun hmem => ne_of_isAlpha (c.letters _ hmem) (by decide) rfl⟩
    refine ⟨fenceMark ++ c.language, linesOfCode c.text ++ [fenceMark], ?_, ?_, fun rest _ => ?_⟩
    · rw [Plain.text, splitLines_append, splitLines_of_no_feed hfeed, hls]
      rfl
    · exact Line.isEmpty_endedLine rfl (by simp [fenceMark])
    · rw [List.map_append, List.append_assoc, List.length_append, Plain.block, ← htext]
      exact Block.readBlock_letters c.letters (fun l hl => c.unfenced l (hmem l hl)) rest

theorem reads_docText (recognise : Directive.Recogniser φ) (quoted nested : Block.Reader φ)
    (ps : List Plain) :
    Block.Reads recognise quoted nested ((splitLines (docText ps)).map endedLine)
      (ps.map Plain.block) := by
  induction ps with
  | nil => exact Block.Reads.blank rfl Block.reads_nil
  | cons p ps ih =>
    obtain ⟨l, more, hlines, hne, hread⟩ := exists_lines recognise quoted nested p
    have hdrop : ∀ rest, (more.map endedLine ++ rest).drop more.length = rest := fun rest =>
      List.drop_left' (by simp)
    cases ps with
    | nil =>
      have hends : Block.EndsThere [] := fun l hl => by cases hl
      rw [docText, hlines, List.map_cons, ← List.append_nil (more.map endedLine)]
      refine .block hne (isOutside_endedLine l) (hread [] hends) ?_
      rw [hdrop]
      exact Block.reads_nil
    | cons q ps =>
      have hends : Block.EndsThere
          (endedLine [] :: (splitLines (docText (q :: ps))).map endedLine) := by
        intro l hl
        obtain rfl := Option.some.inj hl
        rfl
      rw [docText, splitLines_append, hlines, splitLines, if_pos rfl, List.cons_append,
        List.map_cons, List.map_append]
      refine .block hne (isOutside_endedLine l) (hread _ hends) ?_
      rw [hdrop]
      exact ih.blank rfl

end

theorem plain_text (p : Plain) : '\r' ∉ p.text ∧ '\x00' ∉ p.text := by
  cases p with
  | heading level w =>
    have hw : ∀ d : Char, d.isAlpha = false → d ≠ ' ' → d ≠ '#' →
        d ∉ List.replicate (level + 1) '#' ++ ' ' :: w.text := fun d hd hs hm => by
      simp [w.isWording.not_mem hd hs, hs, hm]
    exact ⟨hw _ rfl (by decide) (by decide), hw _ rfl (by decide) (by decide)⟩
  | paragraph w => exact ⟨w.isWording.not_mem rfl (by decide), w.isWording.not_mem rfl (by decide)⟩
  | rule => exact ⟨by decide, by decide⟩
  | code c =>
    have hl : ∀ d : Char, d.isAlpha = false → d ∉ c.language := fun d hd hmem =>
      ne_of_isAlpha (c.letters d hmem) hd rfl
    have hc : ∀ d : Char, d.isAlpha = false → d ≠ '\n' → d ≠ '\x60' → d ∉ c.text →
        d ∉ (Plain.code c).text := fun d hd hn hm hmem => by
      rw [Plain.text, endedCode_eq]
      split <;> simp [fenceMark, hl d hd, hn, hm, hmem]
    exact ⟨hc _ rfl (by decide) (by decide) c.plain.1, hc _ rfl (by decide) (by decide) c.plain.2⟩

theorem plain_docText (ps : List Plain) : '\r' ∉ docText ps ∧ '\x00' ∉ docText ps := by
  induction ps with
  | nil => simp [docText]
  | cons p ps ih =>
    cases ps with
    | nil => exact plain_text p
    | cons q ps => simp [docText, plain_text p, ih]

theorem plainSource_docText (ps : List Plain) :
    plainSource (docText ps ++ ['\n']) = docText ps ++ ['\n'] := by
  obtain ⟨hcr, hnul⟩ := plain_docText ps
  rw [plainSource, unifyNewlines_of_cr_not_mem (by simp [hcr])]
  refine (List.map_congr_left fun c hc => if_neg ?_).trans (List.map_id _)
  rintro rfl
  simp [hnul] at hc

theorem ofLines_docText {φ : Type} (recognise : Directive.Recogniser φ) (ps : List Plain) :
    Block.ofLines recognise (Line.lines (plainSource (docText ps ++ ['\n']))) =
      pure (ps.map Plain.block) := by
  obtain ⟨r, hr, hblocks⟩ := reads_docText recognise (Block.reader recognise 19)
    (Block.reader recognise 18) ps false true
  have hreader : Block.ofLines recognise ((splitLines (docText ps)).map endedLine) =
      Block.Reading.blocks <$> Block.readBlocks recognise (Block.reader recognise 19)
        (Block.reader recognise 18) .top false true ((splitLines (docText ps)).map endedLine) := rfl
  rw [plainSource_docText, Line.lines_concat, hreader, hr, ← hblocks]
  rfl

/-! ## Tokens and nodes -/

namespace Plain

def textNode (t : List Char) : Node := { kind := .text, content := some (String.ofList t) }

def node : Plain → Node
  | .heading level w =>
    { kind := .heading, attributes := [("level", .int (level + 1 : Nat))],
      children := [textNode w.text] }
  | .paragraph w => { kind := .paragraph, children := [textNode w.text] }
  | .rule => { kind := .rule }
  | .code c =>
    { kind := .fence, attributes := [("language", .string (String.ofList c.language))],
      content := some (String.ofList (endedCode c.text)) }

def tokens : Plain → List Token
  | .heading level w =>
    enclosed (.heading (level + 1)) [.inline [.leaf (.text (String.ofList w.text))]]
  | .paragraph w => enclosed .paragraph [.inline [.leaf (.text (String.ofList w.text))]]
  | .rule => [.leaf .rule]
  | .code c => [.leaf (.fence (String.ofList c.language) (String.ofList (endedCode c.text)))]

end Plain

theorem words_of_letters {s : List Char} (h : ∀ c ∈ s, c.isAlpha = true) :
    (words s).head?.getD [] = s :=
  words_of_no_blank fun c hc =>
    Bool.eq_false_iff.2 fun hb => ne_of_isAlpha (h c hc) (isAlpha_of_isBlank c hb) rfl

theorem blockTokens_plain {φ : Type} (recognise : Directive.Recogniser φ) (p : Plain) :
    blockTokens (Inline.read recognise []) false p.block = pure p.tokens := by
  cases p with
  | heading level w =>
    rw [Plain.block, blockTokens, textBlock, Inline.read_wording recognise w.isWording]
    rfl
  | paragraph w =>
    rw [Plain.block, blockTokens, if_neg (by simp), textBlock,
      Inline.read_wording recognise w.isWording]
    rfl
  | rule => rfl
  | code c =>
    rw [Plain.block, blockTokens, language, words_of_letters c.letters]
    rfl

theorem blocksTokens_plain {φ : Type} (recognise : Directive.Recogniser φ) (ps : List Plain) :
    blocksTokens (Inline.read recognise []) false (ps.map Plain.block) =
      pure (ps.flatMap Plain.tokens) := by
  induction ps with
  | nil => rfl
  | cons p ps ih =>
    rw [List.map_cons, blocksTokens, blockTokens_plain, ih]
    rfl

theorem definitionsIn_plain (ps : List Plain) : Block.definitionsIn (ps.map Plain.block) = [] := by
  induction ps with
  | nil => rfl
  | cons p ps ih =>
    rw [List.map_cons, Block.definitionsIn, ih]
    cases p <;> rfl

theorem feedAll_tokens (source : String) (roots : List Node) (p : Plain) :
    Builder.feedAll source ⟨[], roots⟩ p.tokens = (⟨[], p.node :: roots⟩, []) := by
  cases p <;> rfl

theorem feedAll_plain (source : String) (roots : List Node) (ps : List Plain) :
    Builder.feedAll source ⟨[], roots⟩ (ps.flatMap Plain.tokens) =
      (⟨[], (ps.map Plain.node).reverse ++ roots⟩, []) := by
  induction ps generalizing roots with
  | nil => rfl
  | cons p ps ih =>
    rw [List.flatMap_cons, Builder.feedAll_append, feedAll_tokens]
    dsimp only
    rw [ih]
    simp

def documentNode (ps : List Plain) : Node := { kind := .document, children := ps.map Plain.node }

theorem read_docText (name : String) (ps : List Plain) :
    Document.read name (String.ofList (docText ps ++ ['\n'])) = pure (documentNode ps) := by
  have htokens :
      tokens (String.ofList (docText ps ++ ['\n'])) = pure (ps.flatMap Plain.tokens) := by
    rw [tokens, tokensWith, String.toList_ofList, ofLines_docText]
    rw [Probed.pure_bind, definitionsIn_plain, blocksTokens_plain]
  have hdocument : ofTokens name (ps.flatMap Plain.tokens) = (documentNode ps, []) := by
    rw [ofTokens, Builder.start, feedAll_plain]
    simp [Builder.finish, Builder.popMany, documentNode]
  rw [Document.read, htokens]
  dsimp only
  rw [Probed.pure_value, hdocument]
  rfl

/-! ## Resolving -/

theorem headingName_level (level : Fin 6) :
    Resolution.headingName [("level", .int (level + 1 : Nat))] = Plain.headingElement level := by
  revert level
  decide

theorem codeBlock_language (language text : List Char) :
    Resolution.codeBlock [("language", .string (String.ofList language))] (String.ofList text) =
      codeElement language text := by
  have hget : Attributes.get [("language", .string (String.ofList language))] "language" =
      .string (String.ofList language) := rfl
  have hvalue : (if (Value.string (String.ofList language)).isTruthy then
      Value.string (String.ofList language) else .string "") =
      .string (String.ofList language) := by
    split
    · rfl
    · next h =>
      have hnil : language = [] := by simpa [isTruthy_ofList] using h
      rw [hnil]
  rw [Resolution.codeBlock, hget, hvalue]
  rfl

theorem resolve_node (scope : Resolution.Scope) (p : Plain) :
    Resolution.resolve scope p.node = pure (.one p.settled) := by
  cases p with
  | heading level w =>
    have h : Resolution.resolve scope (Plain.heading level w).node =
        pure (.one (.named (Resolution.headingName [("level", .int (level + 1 : Nat))]) []
          [.text (String.ofList w.text)])) := rfl
    rw [h, headingName_level]
    rfl
  | paragraph w => rfl
  | rule => rfl
  | code c =>
    have h : Resolution.resolve scope (Plain.code c).node =
        pure (.one (Resolution.codeBlock [("language", .string (String.ofList c.language))]
          (String.ofList (endedCode c.text)))) := rfl
    rw [h, codeBlock_language]
    rfl

theorem resolveAll_nodes (scope : Resolution.Scope) (ps : List Plain) :
    Resolution.resolveAll scope (ps.map Plain.node) = pure (ps.map Plain.settled) := by
  induction ps with
  | nil => rfl
  | cons p ps ih =>
    rw [List.map_cons, Resolution.resolveAll, resolve_node, ih]
    rfl

theorem resolve_document (scope : Resolution.Scope) (ps : List Plain) :
    Resolution.resolve scope (documentNode ps) = pure (.one (article (ps.map Plain.settled))) := by
  have h : Resolution.resolve scope (documentNode ps) =
      (fun es => .one (article es)) <$> Resolution.resolveAll scope (ps.map Plain.node) := rfl
  rw [h, resolveAll_nodes]
  rfl

/-- To compile a printed document changes nothing: what is printed is read and resolved as the
document itself, the last lines of its code ended, without a notice, and printed as it was. -/
theorem compile_printed (files : FileTree) (directory : Path) (file : Option Path) (name : String)
    (ps : List Plain) :
    compileText files (render (article (ps.map Plain.element))) directory file =
        pure (render (article (ps.map Plain.element))) ∧
      ∃ n, Document.read name (render (article (ps.map Plain.element))) = pure n ∧
        ∀ scope, Resolution.resolve scope n = pure (.one (article (ps.map Plain.settled))) := by
  have hprinted := render_article print_element ps
  refine ⟨?_, documentNode ps, ?_, fun scope => resolve_document scope ps⟩
  · rw [hprinted, compileText, read_docText]
    have hpure : ∀ {α β : Type} (a : α) (f : α → Reporting β), (pure a >>= f) = f a :=
      fun _ _ => rfl
    rw [hpure]
    dsimp only
    rw [renderTree, resolve_document, ← render_article print_settled ps]
    rfl
  · rw [hprinted]
    exact read_docText name ps

end DocPress.Compilation
