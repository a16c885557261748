import Mathlib.Data.List.TakeWhile
import DocPress.Markdown.Block
import DocPress.Proofs.Markdown.Lines
import DocPress.Proofs.Markdown.Wording

/-!
# Blocks of plain lines

Headings of plain wording, rules and fenced code are read as what they are, whatever the code is:
nothing of them is taken for a block of another kind, and nothing that follows changes them.
-/

set_option autoImplicit false

namespace DocPress

theorem Probed.pure_bind {φ α β : Type} (a : α) (f : α → Probed φ β) : (pure a >>= f) = f a := rfl

namespace Markdown

open Text Element Directive

/-! ## Indents -/

theorem le_columnAfter (base : Nat) (column : Int) (c : Char) :
    column ≤ columnAfter base column c := by
  unfold columnAfter
  split <;> omega

theorem le_columnAfterAll (base : Nat) (column : Int) (s : List Char) :
    column ≤ columnAfterAll base column s := by
  induction s generalizing column with
  | nil => exact Int.le_refl _
  | cons c s ih => exact Int.le_trans (le_columnAfter base column c) (ih _)

theorem columnAfterAll_append (base : Nat) (column : Int) (a b : List Char) :
    columnAfterAll base column (a ++ b) =
      columnAfterAll base (columnAfterAll base column a) b := List.foldl_append

theorem isOutside_endedLine (s : List Char) : (endedLine s).isOutside .top = false := by
  have h := le_columnAfterAll 0 0 (s.takeWhile isSpaceOrTab)
  rw [Line.isOutside, decide_eq_false_iff_not]
  exact Int.not_lt.2 h

/-- A tab reaches the fourth column. -/
theorem isCodeAt_of_tab {a b : List Char} (ha : ∀ c ∈ a, c = ' ') :
    (endedLine (a ++ '\t' :: b)).isCodeAt .top = true := by
  have hlead : (a ++ '\t' :: b).takeWhile isSpaceOrTab =
      a ++ '\t' :: b.takeWhile isSpaceOrTab := by
    rw [List.takeWhile_append_of_pos fun c hc => by rw [ha c hc]; rfl]
    rfl
  have hstart := le_columnAfterAll 0 0 a
  have htab : columnAfter 0 (columnAfterAll 0 0 a) '\t' =
      columnAfterAll 0 0 a + (4 - (columnAfterAll 0 0 a + 0) % 4) := rfl
  have hend := le_columnAfterAll 0 (columnAfter 0 (columnAfterAll 0 0 a) '\t')
    (b.takeWhile isSpaceOrTab)
  have hindent : (endedLine (a ++ '\t' :: b)).indent =
      columnAfterAll 0 (columnAfter 0 (columnAfterAll 0 0 a) '\t') (b.takeWhile isSpaceOrTab) := by
    rw [endedLine, Line.ofText, hlead, columnAfterAll_append]
    rfl
  rw [Line.isCodeAt, decide_eq_true_iff, hindent]
  simp only [Place.top]
  omega

namespace Block

variable {φ : Type} {recognise : Recogniser φ} {quoted nested : Reader φ}

/-! ## Lines that start with nothing else -/

theorem tableAt?_of_no_bar (p : Place) {l : Line} (rest : List Line) (h : '|' ∉ l.body) :
    tableAt? p l rest = none := by
  unfold tableAt?
  split
  · rfl
  · split
    · rfl
    · unfold Table.header?
      split
      · rfl
      · rw [if_neg (by simpa using h)]

/-- The characters that a block of another kind than text starts with. -/
def startMarks : List Char := ['~', '\x60', '>', '*', '-', '_', '+', ')', '.', '[']

/-- The block at a line that is neither markup nor a heading by itself: what follows may make a
heading of it. -/
def readRunning (recognise : Recogniser φ) (p : Place) (l : Line) (rest : List Line) :
    Probed φ (Block × Nat) := do
  match ← underlined? recognise p rest with
  | some (level, n) =>
    pure (.heading level (Line.paragraphText p.indent (l :: rest.take n)), n + 1)
  | none =>
    match ← directive? recognise p l with
    | some d => pure (.directive d, 0)
    | none =>
      let n ← paragraphLines recognise .paragraph p rest
      pure (.paragraph (Line.paragraphText p.indent (l :: rest.take n)), n)

section

variable {c : Char} {r : List Char}

theorem fence?_eq_none (hc : c ∉ startMarks) : fence? (c :: r) = none := by
  simp only [startMarks, List.mem_cons, not_or] at hc
  simp [fence?, hc]

theorem isRule_eq_false (hc : c ∉ startMarks) : isRule (c :: r) = false := by
  simp only [startMarks, List.mem_cons, not_or] at hc
  simp [isRule, hc]

theorem listMark?_eq_none (hc : c ∉ startMarks) (hd : c.isDigit = false) :
    listMark? (c :: r) = none := by
  simp only [startMarks, List.mem_cons, not_or] at hc
  simp [listMark?, hc, hd]

variable {p : Place} {l : Line} {rest : List Line}

theorem readBlock_of_text (hbody : l.body = c :: r) (hc : c ∉ startMarks)
    (hmark : listMark? l.body = none) (hcode : l.isCodeAt p = false)
    (htable : tableAt? p l rest = none) :
    readBlock recognise quoted nested p l rest = readText recognise p l rest := by
  have hnot := hc
  simp only [startMarks, List.mem_cons, not_or] at hnot
  have hquote : (l.body.head? == some '>') = false := by simp [hbody, hnot]
  have hlist : listMarkAt? p l = none := by rw [listMarkAt?, hmark, ite_self]
  have hdefinition : definition? recognise p l rest = pure none := by
    unfold definition?
    rw [if_pos (by simp [hbody, hnot])]
  have hfence : fence? l.body = none := hbody ▸ fence?_eq_none hc
  have hrule : isRule l.body = false := hbody ▸ isRule_eq_false hc
  rw [readBlock, htable]
  dsimp only
  rw [hcode, hfence]
  dsimp only
  rw [hquote, hrule, hlist, hdefinition]
  rfl

theorem readText_of_start (hbody : l.body = c :: r) (hmarkup : c ≠ '<') (hhash : c ≠ '#') :
    readText recognise p l rest = readRunning recognise p l rest := by
  have hkind : Html.blockKind? l.body = none := by
    rw [hbody, Html.blockKind?]
    exact fun s hs => hmarkup (List.cons.inj hs).1
  have hheading : heading? l.body = none := by
    simp [heading?, hbody, hhash]
  rw [readText, hkind]
  dsimp only
  rw [hheading]
  rfl

/-- A line of running text is a paragraph, if no line after it goes on with it. -/
theorem readBlock_running (hbody : l.body = c :: r) (hc : c ∉ startMarks) (hmarkup : c ≠ '<')
    (hhash : c ≠ '#') (hmark : listMark? l.body = none) (hcode : l.isCodeAt p = false)
    (htable : tableAt? p l rest = none) (hunderlined : underlined? recognise p rest = pure none)
    (hdirective : directive? recognise p l = pure none)
    (hmore : paragraphLines recognise .paragraph p rest = pure 0) :
    readBlock recognise quoted nested p l rest =
      pure (.paragraph (Line.paragraphText p.indent [l]), 0) := by
  rw [readBlock_of_text hbody hc hmark hcode htable, readText_of_start hbody hmarkup hhash,
    readRunning, hunderlined, hdirective, hmore]
  rfl

end

/-! ## Blocks of one line -/

def EndsThere (rest : List Line) : Prop := ∀ l ∈ rest.head?, l.isEmpty = true

theorem underlined?_of_endsThere {rest : List Line} (h : EndsThere rest) (p : Place) :
    underlined? recognise p rest = pure none := by
  cases rest with
  | nil => rfl
  | cons l rest => rw [underlined?, if_pos (h l rfl)]

theorem paragraphLines_of_endsThere {rest : List Line} (h : EndsThere rest) (k : Host) (p : Place) :
    paragraphLines recognise k p rest = pure 0 := by
  cases rest with
  | nil => rfl
  | cons l rest => rw [paragraphLines, if_pos (h l rfl)]

theorem heading?_of_wording {t : List Char} (ht : IsWording t) {level : Nat} (h : 1 ≤ level)
    (h' : level ≤ 6) : heading? (List.replicate level '#' ++ ' ' :: t) = some (level, t) := by
  have hrest : Stops (· == '#') (' ' :: t) := by simp
  have hall : ∀ c ∈ List.replicate level '#', (c == '#') = true := by simp
  have hlast : ∀ p : Char → Bool, (∀ c, p c = true → c.isAlpha = false) →
      Stops p (' ' :: t).reverse := by
    intro p hp
    obtain ⟨c, r, hr, hc⟩ := ht.last
    exact stops_of_isAlpha hp ⟨c, r ++ [' '], by simp [hr], hc⟩
  have htext : headingText (' ' :: t) = t := by
    have hclosing : ∀ c, (c == '#') = true → c.isAlpha = false := by
      intro c hc
      rw [eq_of_beq hc]
      rfl
    rw [headingText, trimRight, dropWhile_of_stops (hlast _ isAlpha_of_isSpaceOrTab),
      List.reverse_reverse, dropWhile_of_stops (hlast _ hclosing), List.reverse_reverse, ite_self]
    exact ht.trim_eq
  rw [heading?, takeWhile_run hall hrest, dropWhile_run hall hrest, List.length_replicate,
    if_pos ⟨h, h', rfl⟩, htext]

theorem readBlock_heading {t : List Char} (ht : IsWording t) {level : Nat} (h : 1 ≤ level)
    (h' : level ≤ 6) (rest : List Line) :
    readBlock recognise quoted nested .top (endedLine (List.replicate level '#' ++ ' ' :: t)) rest =
      pure (.heading level t, 0) := by
  have hheading := heading?_of_wording ht h h'
  have hbar : '|' ∉ List.replicate level '#' ++ ' ' :: t := by
    simp [ht.not_mem]
  obtain ⟨n, rfl⟩ := Nat.exists_eq_add_of_le' h
  rw [List.replicate_succ, List.cons_append] at hheading hbar ⊢
  rw [Line.endedLine_of_stops (by simp [isSpaceOrTab]), readBlock_of_text rfl (by decide)
    (listMark?_eq_none (by decide) (by decide)) rfl (tableAt?_of_no_bar .top rest hbar), readText]
  dsimp only
  rw [hheading]
  rfl

theorem readBlock_rule (rest : List Line) :
    readBlock recognise quoted nested .top (endedLine ['-', '-', '-']) rest = pure (.rule, 0) := by
  rw [readBlock, tableAt?_of_no_bar .top rest (by decide)]
  rfl

/-! ## Fenced code -/

/-- Whether a line closes code between three backticks: it stands less than four columns in and is
three backticks or more, with spaces and tabs behind them. -/
def closesFence (l : List Char) : Bool :=
  !(endedLine l).isCodeAt .top && (⟨'\x60', 3, []⟩ : Fence).closedBy (endedLine l).body

theorem fenceLines_endedLine (info : List Char) (ls : List (List Char)) (rest : List Line) :
    fenceLines .top ⟨'\x60', 3, info⟩ (ls.map endedLine ++ endedLine fenceMark :: rest) =
      ((ls.takeWhile fun l => !closesFence l).length, true) := by
  have hstep : ∀ l rest, fenceLines .top ⟨'\x60', 3, info⟩ (endedLine l :: rest) =
      if closesFence l then (0, true) else
        ((fenceLines .top ⟨'\x60', 3, info⟩ rest).1 + 1,
          (fenceLines .top ⟨'\x60', 3, info⟩ rest).2) := by
    intro l rest
    rw [fenceLines, isOutside_endedLine, if_neg (by simp)]
    rfl
  induction ls with
  | nil => rw [List.map_nil, List.nil_append, hstep, if_pos (by decide), List.takeWhile_nil,
      List.length_nil]
  | cons l ls ih =>
    rw [List.map_cons, List.cons_append, hstep, ih, List.takeWhile_cons]
    cases closesFence l <;> rfl

theorem fence?_fenceMark {language : List Char} (h : '\x60' ∉ language) :
    fence? (fenceMark ++ language) = some ⟨'\x60', 3, language⟩ := by
  have hrest : Stops (· == '\x60') language := by
    cases language with
    | nil => rfl
    | cons c r =>
      simp only [List.mem_cons, not_or] at h
      simpa using Ne.symm h.1
  have hmarks : ∀ c ∈ fenceMark, (c == '\x60') = true := by simp [fenceMark]
  have htake := takeWhile_run hmarks hrest
  have hdrop := dropWhile_run hmarks hrest
  have hinfo : language.contains '\x60' = false := by simpa using h
  simp only [fenceMark, List.cons_append, List.nil_append] at htake hdrop ⊢
  rw [fence?, htake, hdrop, hinfo]
  rfl

/-- Lines between two fences are read as code up to the first one that closes the fence, if the
line of the first fence starts no table. -/
theorem readBlock_fence {language : List Char} (hl : '\x60' ∉ language) {ls : List (List Char)}
    {rest : List Line} (htable : tableAt? .top (endedLine (fenceMark ++ language))
      (ls.map endedLine ++ endedLine fenceMark :: rest) = none) :
    readBlock recognise quoted nested .top (endedLine (fenceMark ++ language))
        (ls.map endedLine ++ endedLine fenceMark :: rest) =
      pure (.fence language ((ls.takeWhile fun l => !closesFence l).flatMap fun l => l ++ ['\n']),
        (ls.takeWhile fun l => !closesFence l).length + 1) := by
  have hstops : Stops isSpaceOrTab (fenceMark ++ language) := rfl
  have htake : (ls.map endedLine ++ endedLine fenceMark :: rest).take
      (ls.takeWhile fun l => !closesFence l).length =
      (ls.takeWhile fun l => !closesFence l).map endedLine := by
    obtain ⟨more, hmore⟩ := List.takeWhile_prefix (l := ls) fun l => !closesFence l
    generalize ls.takeWhile (fun l => !closesFence l) = first at hmore
    rw [← hmore, List.map_append, List.append_assoc]
    exact List.take_left' (by simp)
  rw [Line.endedLine_of_stops hstops] at htable ⊢
  rw [readBlock, htable]
  dsimp only
  rw [if_neg (by simp [Line.isCodeAt, Place.top]), fence?_fenceMark hl]
  dsimp only
  rw [fenceLines_endedLine]
  dsimp only
  rw [htake, Line.textOf_ended]
  rfl

def IsUnfenced (l : List Char) : Prop := ¬fenceMark <+: l.dropWhile (· == ' ')

instance (l : List Char) : Decidable (IsUnfenced l) :=
  inferInstanceAs (Decidable ¬fenceMark <+: l.dropWhile (· == ' '))

theorem fenceMark_isPrefix {s : List Char} (h : 3 ≤ (s.takeWhile (· == '\x60')).length) :
    fenceMark <+: s := by
  have hrun : s.takeWhile (· == '\x60') =
      List.replicate (s.takeWhile (· == '\x60')).length '\x60' :=
    List.eq_replicate_of_mem fun c hc => by simpa using List.all_eq_true.1 List.all_takeWhile c hc
  obtain ⟨k, hk⟩ := Nat.exists_eq_add_of_le h
  rw [hk, ← List.replicate_append_replicate] at hrun
  rw [← List.takeWhile_append_dropWhile (p := (· == '\x60')) (l := s), hrun, List.append_assoc]
  exact List.prefix_append ..

theorem closesFence_of_isUnfenced {l : List Char} (h : IsUnfenced l) : closesFence l = false := by
  have hsplit := List.takeWhile_append_dropWhile (p := (· == ' ')) (l := l)
  have hspaces : ∀ c ∈ l.takeWhile (· == ' '), c = ' ' := fun c hc => by
    simpa using List.all_eq_true.1 List.all_takeWhile c hc
  rw [closesFence, Bool.and_eq_false_iff]
  -- A tab before the content makes the line code; otherwise only spaces stand there.
  by_cases htab : (l.dropWhile (· == ' ')).head? = some '\t'
  · obtain ⟨r, hr⟩ := List.head?_eq_some_iff.1 htab
    rw [hr] at hsplit
    rw [← hsplit, isCodeAt_of_tab hspaces]
    exact Or.inl rfl
  · right
    have hstops : Stops isSpaceOrTab (l.dropWhile (· == ' ')) := by
      have hspace := stops_dropWhile (· == ' ') l
      cases hl : l.dropWhile (· == ' ') with
      | nil => rfl
      | cons c r =>
        rw [hl] at hspace htab
        simp_all [isSpaceOrTab]
    have hbody : (endedLine l).body = l.dropWhile (· == ' ') := by
      have hlead : ∀ c ∈ l.takeWhile (· == ' '), isSpaceOrTab c = true := fun c hc => by
        rw [hspaces c hc]
        rfl
      calc (endedLine l).body
          = (l.takeWhile (· == ' ') ++ l.dropWhile (· == ' ')).dropWhile isSpaceOrTab := by
            rw [hsplit]
            rfl
        _ = l.dropWhile (· == ' ') := dropWhile_run hlead hstops
    rw [hbody, Bool.eq_false_iff]
    intro hclosed
    simp only [Fence.closedBy, Bool.and_eq_true, decide_eq_true_iff] at hclosed
    exact h (fenceMark_isPrefix hclosed.1.2)

theorem readBlock_letters {language : List Char} (hl : ∀ c ∈ language, c.isAlpha = true)
    {ls : List (List Char)} (h : ∀ l ∈ ls, IsUnfenced l) (rest : List Line) :
    readBlock recognise quoted nested .top (endedLine (fenceMark ++ language))
        (ls.map endedLine ++ endedLine fenceMark :: rest) =
      pure (.fence language (ls.flatMap fun l => l ++ ['\n']), ls.length + 1) := by
  have hnot : ∀ d : Char, d.isAlpha = false → d ∉ language := fun d hd hmem =>
    ne_of_isAlpha (hl d hmem) hd rfl
  have hbar : '|' ∉ fenceMark ++ language := by
    simp [fenceMark, hnot '|' (by decide)]
  have hstops : Stops isSpaceOrTab (fenceMark ++ language) := rfl
  have hall : ls.takeWhile (fun l => !closesFence l) = ls :=
    List.takeWhile_eq_self_iff.2 fun l hmem => by rw [closesFence_of_isUnfenced (h l hmem)]; rfl
  rw [readBlock_fence (hnot '\x60' (by decide)) (tableAt?_of_no_bar .top _ ?_), hall]
  rwa [Line.endedLine_of_stops hstops]

/-! ## One block after another -/

/-- Whether blank lines stand before and between blocks changes neither what they are nor what is
noted. -/
theorem readBlocks_flags (p : Place) (loose tight : Bool) (lines : List Line) :
    (readBlocks recognise quoted nested p loose tight lines).notes =
        (readBlocks recognise quoted nested p false true lines).notes ∧
      (readBlocks recognise quoted nested p loose tight lines).value.blocks =
        (readBlocks recognise quoted nested p false true lines).value.blocks := by
  rw [readBlocks.eq_def, readBlocks.eq_def]
  cases lines with
  | nil => exact ⟨rfl, rfl⟩
  | cons l rest =>
    have hshorter : ∀ n, (rest.drop n).length < (l :: rest).length := fun n => by
      simp only [List.length_drop, List.length_cons]
      omega
    dsimp only
    split
    · obtain ⟨hnotes, hblocks⟩ := readBlocks_flags p loose tight rest
      exact ⟨congrArg (· ++ []) hnotes, hblocks⟩
    split
    · exact ⟨rfl, rfl⟩
    · have hrest : ∀ n loose tight loose' tight',
          (readBlocks recognise quoted nested p loose tight (rest.drop n)).notes =
              (readBlocks recognise quoted nested p loose' tight' (rest.drop n)).notes ∧
            (readBlocks recognise quoted nested p loose tight (rest.drop n)).value.blocks =
              (readBlocks recognise quoted nested p loose' tight' (rest.drop n)).value.blocks := by
        intro n loose tight loose' tight'
        have h := readBlocks_flags p loose tight (rest.drop n)
        have h' := readBlocks_flags p loose' tight' (rest.drop n)
        exact ⟨h.1.trans h'.1.symm, h.2.trans h'.2.symm⟩
      exact ⟨congrArg (_ ++ ·) (congrArg (· ++ []) (hrest _ _ _ _ _).1),
        congrArg (_ :: ·) (hrest _ _ _ _ _).2⟩
termination_by lines.length

theorem ofLines_eq (lines : List Line) : ofLines recognise lines = Reading.blocks <$>
    readBlocks recognise (reader recognise 19) (reader recognise 18) .top false true lines := rfl

theorem ofLines_cons {l : Line} (hl : l.isEmpty = false) (hp : l.isOutside .top = false)
    (rest : List Line) :
    let first := readBlock recognise (reader recognise 19) (reader recognise 18) .top l rest
    let more := ofLines recognise (rest.drop first.value.2)
    ofLines recognise (l :: rest) = ⟨first.notes ++ more.notes, first.value.1 :: more.value⟩ := by
  rw [ofLines_eq, readBlocks, if_neg (by simp [hl]), if_neg (by simp [hp])]
  generalize readBlock recognise (reader recognise 19) (reader recognise 18) .top l rest = first
  obtain ⟨notes, block, n⟩ := first
  dsimp only
  rw [ofLines_eq]
  obtain ⟨hnotes, hblocks⟩ := @readBlocks_flags φ recognise (reader recognise 19)
    (reader recognise 18) .top _ _ (rest.drop n)
  refine congrArg₂ Probed.mk ?_ (congrArg (block :: ·) hblocks)
  rw [Probed.map_notes, ← hnotes]
  exact (List.append_nil _).trans (congrArg (notes ++ ·) (List.append_nil _))

/-- The blocks of some lines, wherever they stand. -/
def Reads (recognise : Recogniser φ) (quoted nested : Reader φ) (ls : List Line)
    (bs : List Block) : Prop :=
  ∀ loose tight, ∃ r,
    readBlocks recognise quoted nested .top loose tight ls = pure r ∧ r.blocks = bs

theorem reads_nil : Reads recognise quoted nested [] [] := fun loose tight =>
  ⟨_, by rw [readBlocks], rfl⟩

theorem Reads.blank {l : Line} {ls : List Line} {bs : List Block} (hl : l.isEmpty = true)
    (h : Reads recognise quoted nested ls bs) : Reads recognise quoted nested (l :: ls) bs := by
  intro loose tight
  obtain ⟨r, hr, hbs⟩ := h loose tight
  refine ⟨{ r with used := r.used + 1 }, ?_, hbs⟩
  rw [readBlocks, if_pos hl, hr]
  rfl

theorem Reads.block {l : Line} {rest : List Line} {n : Nat} {b : Block} {bs : List Block}
    (hl : l.isEmpty = false) (hin : l.isOutside .top = false)
    (hb : readBlock recognise quoted nested .top l rest = pure (b, n))
    (h : Reads recognise quoted nested (rest.drop n) bs) :
    Reads recognise quoted nested (l :: rest) (b :: bs) := by
  intro loose tight
  rw [readBlocks, if_neg (by simp [hl]), if_neg (by simp [hin]), hb,
    Probed.pure_bind]
  dsimp only
  generalize (loose || _ || _) = flag
  obtain ⟨r, hr, hbs⟩ := h flag (!loose)
  rw [hr]
  exact ⟨_, rfl, congrArg (b :: ·) hbs⟩

end Block

end Markdown

end DocPress
