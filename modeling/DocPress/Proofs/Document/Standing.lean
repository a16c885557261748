import DocPress.Proofs.Directive.Printing
import DocPress.Proofs.Document.Enclosing
import DocPress.Proofs.Document.Fences
import DocPress.Proofs.Markdown.Standing

/-!
# A tag opened on a line of its own

A tag that is opened on the first line and not closed takes the document of all other lines as its
children, with one exception: if the lines that follow end in one that underlines a heading, the
line of the tag is drawn into the heading. The reader looks for such a line before it takes the
tag, and what it comes across on its way may also end the reading.
-/

set_option autoImplicit false

namespace DocPress.Document

open Text Node Element Markdown
open Directive (IsName)

theorem read_eq_ok_iff {name source : String} {n : Node} : (read name source).result = .ok n ↔
    (∀ f ∈ (tokens source).notes, f.isMalformed = true) ∧
      (ofTokens name (tokens source).value).1 = n := by
  unfold read
  dsimp only
  cases hfault : (tokens source).notes.find? (!·.isMalformed) with
  | none =>
    have hkept : ∀ f ∈ (tokens source).notes, f.isMalformed = true := by
      simpa using List.find?_eq_none.1 hfault
    exact ⟨fun h => ⟨hkept, Except.ok.inj h⟩, fun h => congrArg Except.ok h.2⟩
  | some f =>
    refine ⟨nofun, fun h => ?_⟩
    have hf := List.find?_some hfault
    rw [h.1 f (List.mem_of_find?_eq_some hfault)] at hf
    cases hf

def linesOf (source : String) : List Line := Line.lines (plainSource source.toList)

/-! ## Token streams -/

variable {t : List Char} {d : Directive} {source rest : String}

theorem linesOf_cons (hs : source.toList = t ++ '\n' :: rest.toList) (ht : ∀ c ∈ t, IsSource c)
    (hfeed : '\n' ∉ t) : linesOf source = endedLine t :: linesOf rest := by
  have hsource : ∀ c ∈ t ++ ['\n'], IsSource c :=
    List.forall_mem_append.2 ⟨ht, by simp [IsSource]⟩
  rw [linesOf, hs, ← List.singleton_append, ← List.append_assoc, plainSource_append hsource,
    List.append_assoc, List.singleton_append, Line.lines_append, splitLines_of_no_feed hfeed]
  rfl

theorem tokens_eq_blocks (source : String) : tokens source = (do
    let blocks ← Block.ofLines Directive.probe (linesOf source)
    blocksTokens (Inline.read Directive.probe (Block.definitionsIn blocks)) false blocks) := rfl

section

variable (hlines : linesOf source = endedLine t :: linesOf rest) (hbar : '|' ∉ t)
  (h : Block.IsStanding Directive.probe d (endedLine t))

include hlines hbar h

theorem tokens_of_not_underlined
    (hnone : ¬Block.Underlined Directive.probe .top (linesOf rest)) :
    tokens source =
      ⟨(Block.underlined? Directive.probe .top (linesOf rest)).notes ++ (tokens rest).notes,
        .directive d :: (tokens rest).value⟩ := by
  have htable := Block.tableAt?_of_no_bar .top (linesOf rest) (l := endedLine t)
    fun hmem => hbar ((List.dropWhile_suffix _).subset hmem)
  rw [tokens_eq_blocks, hlines, h.ofLines_eq htable hnone, tokens_eq_blocks]
  generalize Block.ofLines Directive.probe (linesOf rest) = blocks
  generalize (Block.underlined? Directive.probe .top (linesOf rest)).notes = ahead
  obtain ⟨notes, blocks⟩ := blocks
  refine congrArg₂ Probed.mk ?_ rfl
  dsimp only [Probed.bind_notes, blocksTokens, blockTokens, Probed.pure_notes,
    Block.definitionsIn, Block.definitions]
  rw [List.nil_append, List.nil_append, List.append_nil, List.append_assoc]

theorem exists_heading_of_underlined
    (hsome : Block.Underlined Directive.probe .top (linesOf rest)) :
    ∃ level ts, (tokens source).value = .opening (.heading level) :: ts := by
  have htable := Block.tableAt?_of_no_bar .top (linesOf rest) (l := endedLine t)
    fun hmem => hbar ((List.dropWhile_suffix _).subset hmem)
  obtain ⟨level, text, bs, hblocks⟩ := h.exists_heading htable hsome
  rw [tokens_eq_blocks, hlines, Probed.bind_value, hblocks]
  exact ⟨level, _, rfl⟩

end

/-! ## The line of a tag -/

def openingText (n : String) : List Char := Directive.delimited (n.toList ++ [' '])

theorem notMem_openingText {n : String} (hn : IsName n.toList) {c : Char}
    (hc : Directive.isNameChar c = false) (hmarks : c ∉ ['{', '%', ' ', '}']) :
    c ∉ openingText n := by
  have hname : c ∉ n.toList := fun hmem => by
    rw [hn.isNameChar c hmem] at hc
    cases hc
  simp only [List.mem_cons, List.not_mem_nil, or_false, not_or] at hmarks
  simp [openingText, Directive.delimited, hname, hmarks]

theorem isStanding_opening {n : String} (hn : IsName n.toList) :
    Block.IsStanding Directive.probe (.opening n []) (endedLine (openingText n)) := by
  have hwrites : Directive.Writes (.opening n []) (openingText n) := by
    simpa [openingText] using @Directive.Writes.opening n [] [] .nil
  have hlex : Directive.lex (openingText n) = .ok (.opening n []) :=
    Directive.lex_eq_ok_iff.2 (Directive.exists_isForm ⟨hn, List.nodup_nil, nofun⟩ hwrites)
  have hend : '}' ∉ '{' :: '%' :: ' ' :: (n.toList ++ [' ']) := by
    have hname : '}' ∉ n.toList := fun hmem => absurd (hn.isNameChar _ hmem) (by decide)
    simp [hname]
  refine Block.isStanding_ofText (s := ' ' :: (n.toList ++ [' '])) (fun h => ?_) ?_ rfl true
  · exact hend (h.subset (by simp))
  · show Directive.probe (openingText n) = _
    rw [Directive.probe, hlex]
    rfl

/-- The document of a text behind a line that opens a tag, which the text does not close, is that
of the text with all of it in the tag, exactly if the text does not start with the rest of a
heading, and nothing on the way to the line under a heading ends the reading. -/
theorem read_behind_opening_iff {name n rest : String} {doc : Node} (hn : IsName n.toList)
    (hrest : (read name rest).result = .ok doc)
    (hopen : ∀ t ∈ Token.splicedAll (tokens rest).value, t.closesTag n = false) :
    (read name ("\x7b% " ++ n ++ " %\x7d\n" ++ rest)).result =
        .ok { kind := .document, children := [tagNode n [] doc.children] } ↔
      ¬Block.Underlined Directive.probe .top (linesOf rest) ∧
        ∀ f ∈ (Block.underlined? Directive.probe .top (linesOf rest)).notes,
          f.isMalformed = true := by
  have hsource : ("\x7b% " ++ n ++ " %\x7d\n" ++ rest).toList =
      openingText n ++ '\n' :: rest.toList := by
    simp [openingText, Directive.delimited]
  have hplain : ∀ c ∈ openingText n, IsSource c := fun c hc =>
    ⟨fun h => notMem_openingText hn (by decide) (by decide) (h ▸ hc),
      fun h => notMem_openingText hn (by decide) (by decide) (h ▸ hc)⟩
  have hlines := linesOf_cons hsource hplain (notMem_openingText hn (by decide) (by decide))
  have hbar : '|' ∉ openingText n := notMem_openingText hn (by decide) (by decide)
  have hline := isStanding_opening hn
  obtain ⟨hkept, rfl⟩ := read_eq_ok_iff.1 hrest
  rw [read_eq_ok_iff]
  by_cases hunder : Block.Underlined Directive.probe .top (linesOf rest)
  · refine ⟨fun ⟨_, hdoc⟩ => ?_, fun h => absurd hunder h.1⟩
    obtain ⟨level, ts, htokens⟩ := exists_heading_of_underlined hlines hbar hline hunder
    have hnodes := bareWalk_ofTokens name
      (tokens ("\x7b% " ++ n ++ " %\x7d\n" ++ rest)).value
    rw [hdoc, htokens, bareWalk_singleton] at hnodes
    cases congrArg Node.kind (List.cons.inj hnodes).1
  · rw [tokens_of_not_underlined hlines hbar hline hunder, ofTokens_opening name [] hopen,
      List.forall_mem_append]
    exact ⟨fun h => ⟨hunder, h.1.1⟩, fun h => ⟨⟨h.2, hkept⟩, rfl⟩⟩

/-- A list, in whose item the line under a heading is text. -/
theorem read_behind_opening_of_list :
    IsName "n".toList ∧ ∃ doc, (read "" "- a\n===\n").result = .ok doc ∧
      (∀ t ∈ Token.splicedAll (tokens "- a\n===\n").value, t.closesTag "n" = false) ∧
      (read "" ("\x7b% " ++ "n" ++ " %\x7d\n" ++ "- a\n===\n")).result =
        .ok { kind := .document, children := [tagNode "n" [] doc.children] } := by
  have hn : IsName "n".toList := by decide
  have hkept : ∀ f ∈ (tokens "- a\n===\n").notes, f.isMalformed = true := by decide +kernel
  have hopen : ∀ t ∈ Token.splicedAll (tokens "- a\n===\n").value,
      t.closesTag "n" = false := by decide +kernel
  have hrest : (read "" "- a\n===\n").result =
      .ok (ofTokens "" (tokens "- a\n===\n").value).1 := read_eq_ok_iff.2 ⟨hkept, rfl⟩
  refine ⟨hn, _, hrest, hopen, (read_behind_opening_iff hn hrest hopen).2 ⟨?_, ?_⟩⟩
  · rw [Block.underlined_iff]
    decide +kernel
  · decide +kernel

/-- A line of equals signs draws the tag into a heading. -/
theorem not_read_behind_every_opening :
    ¬∀ (name n rest : String) (doc : Node), IsName n.toList → (read name rest).result = .ok doc →
      (∀ t ∈ Token.splicedAll (tokens rest).value, t.closesTag n = false) →
      (read name ("\x7b% " ++ n ++ " %\x7d\n" ++ rest)).result =
        .ok { kind := .document, children := [tagNode n [] doc.children] } := by
  intro hall
  have hkept : ∀ f ∈ (tokens "===\n").notes, f.isMalformed = true := by decide +kernel
  have hopen : ∀ t ∈ Token.splicedAll (tokens "===\n").value, t.closesTag "n" = false := by
    decide +kernel
  have hread := hall "" "n" "===\n" _ (by decide) (read_eq_ok_iff.2 ⟨hkept, rfl⟩) hopen
  have hkinds : (read "" ("\x7b% " ++ "n" ++ " %\x7d\n" ++ "===\n")).result.toOption.map
      (fun n => n.children.map (·.kind)) = some [.heading] := by decide +kernel
  rw [hread] at hkinds
  cases hkinds

end DocPress.Document
