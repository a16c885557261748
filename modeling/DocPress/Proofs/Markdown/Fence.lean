import DocPress.Document.Reading
import DocPress.Proofs.Markdown.Plain

/-!
# Code between fences

Code is printed between two lines of three backticks, the first with the language behind it. What
is printed is read as one block of the same code and language exactly if nothing in it is taken
for something else: no backtick in the language, no line that closes the fence before its end, and
no table that starts with the line of the language.
-/

set_option autoImplicit false

namespace DocPress.Markdown

open Text Element Directive

namespace Block

variable {φ : Type} {recognise : Recogniser φ} {quoted nested : Reader φ}

/-! ## The first block -/

theorem blocks_cons (p : Place) {l : Line} (hl : l.isEmpty = false) (hp : l.isOutside p = false)
    (rest : List Line) :
    let first := (readBlock recognise quoted nested p l rest).value
    (readBlocks recognise quoted nested p false true (l :: rest)).value.blocks =
      first.1 ::
        (readBlocks recognise quoted nested p false true (rest.drop first.2)).value.blocks := by
  rw [readBlocks, if_neg (by simp [hl]), if_neg (by simp [hp])]
  exact congrArg (_ :: ·) (readBlocks_flags p _ _ _).2

theorem blocks_blank (p : Place) {l : Line} (hl : l.isEmpty = true) (rest : List Line) :
    (readBlocks recognise quoted nested p false true (l :: rest)).value.blocks =
      (readBlocks recognise quoted nested p false true rest).value.blocks := by
  rw [readBlocks, if_pos hl]
  rfl

/-! ## No fence -/

theorem readText_ne_fence (p : Place) (l : Line) (rest : List Line) (info content : List Char) :
    (readText recognise p l rest).value.1 ≠ .fence info content := by
  unfold readText
  cases Html.blockKind? l.body with
  | some k => nofun
  | none =>
    cases heading? l.body with
    | some e => nofun
    | none =>
      dsimp only
      rw [Probed.bind_value]
      cases (underlined? recognise p rest).value with
      | some e => nofun
      | none =>
        dsimp only
        rw [Probed.bind_value]
        cases (directive? recognise p l).value with
        | some d => nofun
        | none => nofun

/-- Code between fences starts with the line of a fence, and with no table. -/
theorem fence?_of_readBlock {p : Place} {l : Line} {rest : List Line} {info content : List Char}
    (h : (readBlock recognise quoted nested p l rest).value.1 = .fence info content) :
    tableAt? p l rest = none ∧ ∃ f, fence? l.body = some f ∧ f.info = info := by
  unfold readBlock at h
  cases htable : tableAt? p l rest with
  | some header =>
    rw [htable] at h
    cases h
  | none =>
    rw [htable] at h
    dsimp only at h
    refine ⟨rfl, ?_⟩
    split at h
    · cases h
    cases hfence : fence? l.body with
    | some f =>
      rw [hfence] at h
      dsimp only [Probed.pure_value] at h
      injection h with hinfo _
      exact ⟨f, rfl, hinfo⟩
    | none =>
      rw [hfence] at h
      dsimp only at h
      split at h
      · cases h
      split at h
      · cases h
      cases hmark : listMarkAt? p l with
      | some m =>
        rw [hmark] at h
        cases h
      | none =>
        rw [hmark] at h
        dsimp only at h
        rw [Probed.bind_value] at h
        cases hdefinition : (definition? recognise p l rest).value with
        | some e =>
          rw [hdefinition] at h
          cases h
        | none =>
          rw [hdefinition] at h
          exact absurd h (readText_ne_fence p l rest info content)

/-! ## Printed code -/

/-- Whether a line behind the line of a fence with a language makes both the start of a table. -/
def startsTable (language l : List Char) : Bool :=
  !(endedLine l).isCodeAt .top && (Table.header? (fenceMark ++ language) (endedLine l).body).isSome

theorem tableAt?_fence (language l : List Char) (rest : List Line) :
    tableAt? .top (endedLine (fenceMark ++ language)) (endedLine l :: rest) = none ↔
      startsTable language l = false := by
  have hstops : Stops isSpaceOrTab (fenceMark ++ language) := rfl
  have hcode : (endedLine (fenceMark ++ language)).isCodeAt .top = false := by
    rw [Line.endedLine_of_stops hstops]
    rfl
  rw [tableAt?, isOutside_endedLine, hcode, Line.endedLine_of_stops hstops, startsTable]
  cases hl : (endedLine l).isCodeAt .top with
  | true => simp
  | false => simp [Option.isSome_eq_false_iff]

/-- Lines of code in a language that come back as they are from between two fences. -/
structure IsFenced (language : List Char) (ls : List (List Char)) : Prop where
  marks : '\x60' ∉ language
  table : ∀ l ∈ ls.head?, startsTable language l = false
  lines : ∀ l ∈ ls, closesFence l = false

instance (language : List Char) (ls : List (List Char)) : Decidable (IsFenced language ls) :=
  decidable_of_iff ('\x60' ∉ language ∧ (∀ l ∈ ls.head?, startsTable language l = false) ∧
    ∀ l ∈ ls, closesFence l = false)
    ⟨fun h => ⟨h.1, h.2.1, h.2.2⟩, fun h => ⟨h.marks, h.table, h.lines⟩⟩

section

variable {language : List Char} {ls : List (List Char)} {rest : List Line}

theorem tableAt?_printed (rest : List Line) :
    tableAt? .top (endedLine (fenceMark ++ language))
        (ls.map endedLine ++ endedLine fenceMark :: rest) = none ↔
      ∀ l ∈ ls.head?, startsTable language l = false := by
  cases ls with
  | nil =>
    have hmark : startsTable language fenceMark = false := by
      have hbody : (endedLine fenceMark).body = fenceMark := by decide
      have hheader : Table.header? (fenceMark ++ language) fenceMark = none := by
        rw [Table.header?, show Table.columns? fenceMark = none by decide]
      rw [startsTable, hbody, hheader]
      decide
    simpa using (tableAt?_fence language fenceMark rest).2 hmark
  | cons l ls => simpa using tableAt?_fence language l _

theorem isEmpty_fence (language : List Char) :
    (endedLine (fenceMark ++ language)).isEmpty = false :=
  Line.isEmpty_endedLine rfl (by simp [fenceMark])

/-- Code that comes back as it is stands before whatever follows it. -/
theorem blocks_of_isFenced (h : IsFenced language ls) (rest : List Line) :
    (readBlocks recognise quoted nested .top false true (endedLine (fenceMark ++ language) ::
        (ls.map endedLine ++ endedLine fenceMark :: rest))).value.blocks =
      .fence language (ls.flatMap fun l => l ++ ['\n']) ::
        (readBlocks recognise quoted nested .top false true rest).value.blocks := by
  have hall : ls.takeWhile (fun l => !closesFence l) = ls :=
    List.takeWhile_eq_self_iff.2 fun l hl => by rw [h.lines l hl]; rfl
  have hdrop : (ls.map endedLine ++ endedLine fenceMark :: rest).drop (ls.length + 1) = rest := by
    rw [← List.drop_drop, List.drop_left' (by simp)]
    rfl
  rw [blocks_cons .top (isEmpty_fence language) (isOutside_endedLine _),
    readBlock_fence h.marks ((tableAt?_printed rest).2 h.table), hall, Probed.pure_value, hdrop]

theorem not_mem_of_fence? {f : Fence} (hf : fence? (fenceMark ++ language) = some f) :
    f.info = language.dropWhile (· == '\x60') ∧ '\x60' ∉ f.info := by
  have hinfo : (fenceMark ++ language).dropWhile (· == '\x60') =
      language.dropWhile (· == '\x60') :=
    List.dropWhile_append_of_pos (by simp [fenceMark])
  unfold fence? at hf
  split at hf
  · cases hf
  · next c r hcr =>
    obtain rfl : '\x60' = c := (List.cons.inj hcr).1
    rw [hinfo] at hf
    dsimp only at hf
    split at hf
    · next hmarks =>
      obtain rfl := Option.some.inj hf
      have hboth : 3 ≤ ((fenceMark ++ language).takeWhile (· == '\x60')).length ∧
          '\x60' ∉ language.dropWhile (· == '\x60') := by simpa using hmarks
      exact ⟨rfl, hboth.2⟩
    · cases hf

/-- Code of a language that is one word, if it comes back, does so for no other reason. -/
theorem isFenced_of_blocks (hword : ∀ c ∈ language, isBlank c = false) {info : List Char}
    {more : List Block} (hinfo : (words info).head?.getD [] = language)
    (h : (readBlocks recognise quoted nested .top false true (endedLine (fenceMark ++ language) ::
        (ls.map endedLine ++ endedLine fenceMark :: rest))).value.blocks =
      .fence info (ls.flatMap fun l => l ++ ['\n']) :: more) : IsFenced language ls := by
  rw [blocks_cons .top (isEmpty_fence language) (isOutside_endedLine _)] at h
  obtain ⟨hfirst, -⟩ := List.cons.inj h
  obtain ⟨htable, f, hf, rfl⟩ := fence?_of_readBlock hfirst
  have hstops : Stops isSpaceOrTab (fenceMark ++ language) := rfl
  rw [Line.endedLine_of_stops hstops] at hf
  -- What stands behind all backticks of the line has none, and it is the language.
  obtain ⟨hbehind, hmarks⟩ := not_mem_of_fence? hf
  have hblank : ∀ c ∈ f.info, isBlank c = false := fun c hc =>
    hword c ((List.dropWhile_suffix _).subset (hbehind ▸ hc))
  rw [words_of_no_blank hblank] at hinfo
  rw [hinfo] at hmarks
  rw [readBlock_fence hmarks htable] at hfirst
  injection hfirst with _ hcontent
  obtain ⟨later, hlater⟩ := List.takeWhile_prefix (l := ls) fun l => !closesFence l
  have hnil : later = [] := by
    have hsplit := congrArg (List.flatMap fun l => l ++ ['\n']) hlater
    rw [List.flatMap_append, hcontent] at hsplit
    cases later with
    | nil => rfl
    | cons l later => simp at hsplit
  rw [hnil, List.append_nil] at hlater
  refine ⟨hmarks, (tableAt?_printed rest).1 htable, fun l hl => ?_⟩
  simpa using List.takeWhile_eq_self_iff.1 hlater l hl

end

end Block

end DocPress.Markdown
