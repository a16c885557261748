import DocPress.Proofs.Compilation.OutlineWriting
import DocPress.Proofs.Document.Outline
import DocPress.Proofs.Markdown.OutlineReading

/-!
# Compiling outlines

A source that is an outline is compiled to the text that the outline is printed as. This text is
one of the ways to write the outline, unless its lists are too deep or the text of an item stands
too far in for the lists below it. So to compile it changes nothing.
-/

set_option autoImplicit false

namespace DocPress

namespace Markdown

open Text Element Document

/-! ## Elements -/

section

variable (scope : Resolution.Scope)

theorem resolveAll_cons {n : Node} {e : Element} {ns : List Node} {es : List Element}
    (h : Resolution.resolve scope n = pure (.one e))
    (h' : Resolution.resolveAll scope ns = pure es) :
    Resolution.resolveAll scope (n :: ns) = pure (e :: es) := by
  rw [Resolution.resolveAll, h, h']
  rfl

theorem resolve_item {ns : List Node} {es : List Element}
    (h : Resolution.resolveAll scope ns = pure es) :
    Resolution.resolve scope (containerNode .item ns) = pure (.one (.named "li" [] es)) := by
  have hresolve : Resolution.resolve scope (containerNode .item ns) =
      (fun es => .one (.named "li" [] es)) <$> Resolution.resolveAll scope ns := rfl
  rw [hresolve, h]
  rfl

theorem resolve_list (ordered : Bool) {ns : List Node} {es : List Element}
    (h : Resolution.resolveAll scope ns = pure es) :
    Resolution.resolve scope (containerNode (listContainer (startOf ordered)) ns) =
      pure (.one (.named (if ordered then "ol" else "ul") [] es)) := by
  have hresolve : Resolution.resolve scope (containerNode (listContainer (startOf ordered)) ns) =
      (fun es => .one (.named (if ordered then "ol" else "ul") [] es)) <$>
        Resolution.resolveAll scope ns := by cases ordered <;> rfl
  rw [hresolve, h]
  rfl

mutual

theorem resolveAll_entries : ∀ items : Entries,
    Resolution.resolveAll scope items.nodes = pure items.elements
  | .last _ ordered below => resolveAll_cons scope
    (resolve_item scope (resolveAll_cons scope rfl (resolveAll_lists below ordered))) rfl
  | .more _ ordered below others => resolveAll_cons scope
    (resolve_item scope (resolveAll_cons scope rfl (resolveAll_lists below ordered)))
    (resolveAll_entries others)

theorem resolveAll_lists : ∀ (lists : Lists) (ordered : Bool),
    Resolution.resolveAll scope (lists.nodes ordered) = pure (lists.elements ordered)
  | .none, _ => rfl
  | .list items others, ordered => resolveAll_cons scope
    (resolve_list scope ordered (resolveAll_entries items)) (resolveAll_lists others !ordered)

end

theorem resolveAll_outline (o : Outline) :
    Resolution.resolveAll scope o.nodes = pure o.elements := by
  obtain ⟨ts, ordered, lists⟩ := o
  induction ts with
  | nil => exact resolveAll_lists scope lists ordered
  | cons t ts ih => exact resolveAll_cons scope rfl ih

end

end Markdown

namespace Compilation

open Text Element Markdown Document

/-! ## Documents -/

/-- A source whose blocks are those of an outline, and in which nothing is noted. -/
def IsReadAs (source : String) (o : Outline) : Prop :=
  Block.ofLines Directive.probe (Line.lines (plainSource source.toList)) = pure o.blocks

theorem compileText_outline {o : Outline} {source : String} (h : IsReadAs source o)
    (files : FileTree) (directory : Path) (file : Option Path) :
    compileText files source directory file = pure (String.ofList o.text) := by
  obtain ⟨ts, hts, hbuilds⟩ := tokens_outline Directive.probe o
  have htokens : tokens source = pure ts := by
    rw [tokens, tokensWith, h, Probed.pure_bind, definitionsIn_outline, hts]
  have hread : ∀ name, Document.read name source =
      pure { kind := .document, children := o.nodes } := fun name => by
    rw [Document.read, htokens]
    dsimp only
    rw [Probed.pure_value, hbuilds.ofTokens]
    rfl
  have hresolve : ∀ scope, Resolution.resolve scope { kind := .document, children := o.nodes } =
      pure (.one (article o.elements)) := fun scope => by
    have h : Resolution.resolve scope { kind := .document, children := o.nodes } =
        (fun es => .one (article es)) <$> Resolution.resolveAll scope o.nodes := rfl
    rw [h, resolveAll_outline]
    rfl
  have hpure : ∀ {α β : Type} (a : α) (f : α → Reporting β), (pure a >>= f) = f a :=
    fun _ _ => rfl
  rw [compileText, hread, hpure]
  dsimp only
  rw [renderTree, hresolve, ← render_outline]
  rfl

structure IsStable (o : Outline) : Prop where
  depth : o.lists.depth ≤ 9
  fits : o.lists.Fits o.ordered

theorem isReadAs_text {o : Outline} (h : IsStable o) : IsReadAs (String.ofList o.text) o := by
  rw [IsReadAs, String.toList_ofList, plainSource_outline]
  have hwritten := written_outline h.fits
  by_cases hne : o.lines = []
  · have htext : o.text = ['\n'] := by rw [Outline.text, hne]; rfl
    rw [hne] at hwritten
    rw [htext]
    exact Block.ofLines_written (hwritten.blank (l := endedLine []) rfl) h.depth
  · have htext : o.text = feedLines o.lines := if_neg (by simpa using hne)
    rw [htext, lines_feedLines fun l hl hc => by
      rcases mem_outline_lines o l hl _ hc with h | h <;> exact absurd h (by decide)]
    exact Block.ofLines_written hwritten h.depth

/-- A source that is an outline, however it is written, or that is read as one, is compiled to the
text of the outline, without a notice, if the lists of the outline are at most nine deep, its
numbers have at most nine digits, and no lists stand below an item whose number has more than one.
To compile this text again gives it back. -/
theorem compile_again {o : Outline} (ho : IsStable o) {source : String}
    (hs : o.Written (Line.lines (plainSource source.toList)) ∨ IsReadAs source o)
    (files : FileTree) (directory : Path) (file : Option Path) :
    compileText files source directory file = pure (String.ofList o.text) ∧
      compileText files (String.ofList o.text) directory file = pure (String.ofList o.text) := by
  have hread : IsReadAs source o := hs.elim (fun h => Block.ofLines_written h ho.depth) id
  exact ⟨compileText_outline hread files directory file,
    compileText_outline (isReadAs_text ho) files directory file⟩

def sampleSource : String := "  One 2\n\n+ a\n    1) b\n    7) c\n+ d\n\n1. e\n"

def samplePhrase (c : Char) (h : IsPhrase [c]) : Phrase := ⟨[c], h⟩

def sampleInner : Entries :=
  .more (samplePhrase 'b' (by decide)) false .none
    (.last (samplePhrase 'c' (by decide)) false .none)

def sampleItems : Entries :=
  .more (samplePhrase 'a' (by decide)) true (.list sampleInner .none)
    (.last (samplePhrase 'd' (by decide)) false .none)

def sampleOutline : Outline :=
  ⟨[⟨"One 2".toList, by decide⟩], false,
    .list sampleItems (.list (.last (samplePhrase 'e' (by decide)) false .none) .none)⟩

def plusMarker : Marker := ⟨none, '+', ['+'], 1, .bullet (by simp), by decide, by decide⟩

def digitMarker (c d : Char) (h : c.isDigit = true) (h' : d ∈ ['.', ')']) : Marker :=
  ⟨some (numberOf [c]), d, [c, d], 1,
    @IsMarker.number [c] d (by simp) (by simpa using h) (by simp [maxListDigits]) h', by decide,
    by decide⟩

theorem written_sample : sampleOutline.Written (Line.lines (plainSource sampleSource.toList)) := by
  have hseven : Entries.Written 4 (digitMarker '7' ')' rfl (by simp))
      (.last (samplePhrase 'c' (by decide)) false .none) [.ofText "    7) c".toList true] :=
    .last (Nat.le_refl _) (Nat.le_add_right _ _) .none
  have hinner : sampleInner.Written 4 (digitMarker '1' ')' rfl (by simp))
      [.ofText "    1) b".toList true, .ofText "    7) c".toList true] :=
    .more (Nat.le_refl _) (Nat.le_add_right _ _) .none rfl hseven
  have hplus : Entries.Written 0 plusMarker (.last (samplePhrase 'd' (by decide)) false .none)
      [.ofText "+ d".toList true] := .last (Nat.le_refl _) (Nat.le_add_right _ _) .none
  have hitems : sampleItems.Written 0 plusMarker [.ofText "+ a".toList true,
      .ofText "    1) b".toList true, .ofText "    7) c".toList true, .ofText "+ d".toList true] :=
    .more (j := 4) (by decide) (by decide) (.list rfl hinner .none) rfl hplus
  have hlast : Entries.Written 0 (digitMarker '1' '.' rfl (by simp))
      (.last (samplePhrase 'e' (by decide)) false .none) [.ofText "1. e".toList true] :=
    .last (Nat.le_refl _) (Nat.le_add_right _ _) .none
  have hlines : Line.lines (plainSource sampleSource.toList) =
      [.ofText "  One 2".toList true, .ofText [] true, .ofText "+ a".toList true,
        .ofText "    1) b".toList true, .ofText "    7) c".toList true, .ofText "+ d".toList true,
        .ofText [] true, .ofText "1. e".toList true] := by decide
  have hspread : Lists.Spread 0 false (.list sampleItems (.list _ .none))
      (_ ++ ([.ofText [] true] ++ (_ ++ ([] ++ [])))) :=
    .list rfl hitems (by simp [Line.isEmpty, Line.ofText])
      (.list rfl hlast (List.forall_mem_nil _) .none)
  rw [hlines]
  exact .paragraph (k := 2) (by decide) (by simp [Block.EndsThere, Line.isEmpty, Line.ofText])
    (.blank rfl (.lists (by decide) hspread))

theorem compile_again_of_sample :
    compileText (.directory []) sampleSource ⟨.root, []⟩ none =
        pure "One 2\n\n- a\n   1. b\n   2. c\n- d\n1. e\n" ∧
      compileText (.directory []) "One 2\n\n- a\n   1. b\n   2. c\n- d\n1. e\n" ⟨.root, []⟩ none =
        pure "One 2\n\n- a\n   1. b\n   2. c\n- d\n1. e\n" := by
  have hstable : IsStable sampleOutline :=
    ⟨by decide, by simp [sampleOutline, sampleItems, sampleInner, Lists.Fits, Entries.Fits, HasRoom,
      ListFrame.next]⟩
  have htext : String.ofList sampleOutline.text =
      "One 2\n\n- a\n   1. b\n   2. c\n- d\n1. e\n" := by
    decide
  rw [← htext]
  exact compile_again hstable (.inl written_sample) (.directory []) ⟨.root, []⟩ none

def IsUnsettled (source : String) : Prop :=
  ∃ first second,
    (compileText (.directory []) source ⟨.root, []⟩ none).result.toOption = some first ∧
      (compileText (.directory []) first ⟨.root, []⟩ none).result.toOption = some second ∧
      first ≠ second

/-- A paragraph goes on with the list before it, the text of a tenth item stands further in than
the lists below it, a tenth list is too deep to be read, and a number of ten digits is none. -/
theorem not_compile_again :
    IsUnsettled "- a\n\nb\n" ∧
    IsUnsettled "1. a\n1. a\n1. a\n1. a\n1. a\n1. a\n1. a\n1. a\n1. a\n1. b\n   - c\n" ∧
    IsUnsettled (String.ofList ((List.range 10).flatMap fun n =>
      List.replicate (2 * n) ' ' ++ ['-', ' ', 'a', '\n'])) ∧
    listMark? (Nat.toDigits 10 1000000000 ++ ['.', ' ', 'a']) = none := by
  refine ⟨⟨"- a\nb\n", "- a b\n", ?_, ?_, ?_⟩, ⟨
    "1. a\n2. a\n3. a\n4. a\n5. a\n6. a\n7. a\n8. a\n9. a\n10. b\n   - c\n",
    "1. a\n2. a\n3. a\n4. a\n5. a\n6. a\n7. a\n8. a\n9. a\n10. b\n- c\n", ?_, ?_, ?_⟩,
    ⟨String.ofList (((List.range 9).flatMap fun n => List.replicate (3 * n) ' ' ++
        ['-', ' ', 'a', '\n']) ++ List.replicate 27 ' ' ++ ['-', '\n']),
      String.ofList (((List.range 8).flatMap fun n => List.replicate (3 * n) ' ' ++
        ['-', ' ', 'a', '\n']) ++ List.replicate 24 ' ' ++ "- ## a\n".toList), ?_, ?_, ?_⟩, ?_⟩ <;>
  decide +kernel

end Compilation

end DocPress
