import DocPress.Document.Reading
import DocPress.Proofs.Directive.Fault
import DocPress.Proofs.Markdown.Walking

/-!
# Documents with malformed directives

The texts in which a source is searched for directives, as a recogniser that only
writes them down tells, decide how its reading ends. Main statement: a document comes
out exactly if each of these texts that is no directive has a fault that can be lived
with; then it is the document that a reader gets who takes those texts for no
directives in the first place, and each of them is noticed. Otherwise one of them
holds a literal without a value.
-/

set_option autoImplicit false

namespace DocPress.Document

open Markdown
open Directive (Fault Recogniser Retells IsDelimited Literal)

variable {φ ψ : Type} {h : φ → List ψ} {r : Recogniser φ} {r' : Recogniser ψ}

/-! ## Token streams -/

section

variable {inline : List Char → Probed φ (List Token)} {inline' : List Char → Probed ψ (List Token)}
  (hinline : ∀ t, inline' t = (inline t).retell h)

include hinline

theorem textBlock_retell (c : Container) (t : List Char) :
    textBlock inline' c t = (textBlock inline c t).retell h := by
  rw [textBlock, textBlock, hinline, Probed.retell_map]

theorem rowTokens_retell (cell : Container) (row : Table.Row) :
    rowTokens inline' cell row = (rowTokens inline cell row).retell h := by
  induction row with
  | nil => rfl
  | cons t row ih =>
    simp only [rowTokens, textBlock_retell hinline, ih, Probed.retell_bind, Probed.retell_pure]

theorem rowsTokens_retell (rows : List Table.Row) :
    rowsTokens inline' rows = (rowsTokens inline rows).retell h := by
  induction rows with
  | nil => rfl
  | cons row rows ih =>
    simp only [rowsTokens, rowTokens_retell hinline, ih, Probed.retell_bind, Probed.retell_pure]

theorem tableTokens_retell (header : Table.Row) (rows : List Table.Row) :
    tableTokens inline' header rows = (tableTokens inline header rows).retell h := by
  simp only [tableTokens, rowTokens_retell hinline, rowsTokens_retell hinline, Probed.retell_bind,
    Probed.retell_pure]

end

section

variable {inline : List Char → Probed φ (List Token)} {inline' : List Char → Probed ψ (List Token)}

mutual

theorem blockTokens_retell (hinline : ∀ t, inline' t = (inline t).retell h) (tight : Bool)
    (b : Block) : blockTokens inline' tight b = (blockTokens inline tight b).retell h := by
  cases b with
  | paragraph t =>
    simp only [blockTokens, hinline, textBlock_retell hinline, Probed.retell_ite, Probed.retell_map]
  | heading level t => simp only [blockTokens, textBlock_retell hinline]
  | quote blocks =>
    simp only [blockTokens, blocksTokens_retell hinline false blocks, Probed.retell_map]
  | list start tight items =>
    simp only [blockTokens, itemsTokens_retell hinline tight items, Probed.retell_map]
  | table header rows => simp only [blockTokens, tableTokens_retell hinline]
  | rule | code | fence | html | directive | definition =>
    simp only [blockTokens, Probed.retell_pure]

theorem blocksTokens_retell (hinline : ∀ t, inline' t = (inline t).retell h) (tight : Bool)
    (bs : List Block) :
    blocksTokens inline' tight bs = (blocksTokens inline tight bs).retell h := by
  cases bs with
  | nil => rfl
  | cons b bs =>
    simp only [blocksTokens, blockTokens_retell hinline tight b,
      blocksTokens_retell hinline tight bs, Probed.retell_bind, Probed.retell_pure]

theorem itemsTokens_retell (hinline : ∀ t, inline' t = (inline t).retell h) (tight : Bool)
    (items : List (List Block)) :
    itemsTokens inline' tight items = (itemsTokens inline tight items).retell h := by
  cases items with
  | nil => rfl
  | cons i is =>
    simp only [itemsTokens, blocksTokens_retell hinline tight i,
      itemsTokens_retell hinline tight is, Probed.retell_bind, Probed.retell_pure]

end

end

theorem tokensWith_retell (hr : Retells h r r') (source : String) :
    tokensWith r' source = (tokensWith r source).retell h := by
  simp only [tokensWith, Block.ofLines_retell hr, Probed.retell_bind,
    blocksTokens_retell (Inline.read_retell hr _)]

/-! ## The texts that are looked at -/

/-- The recogniser that writes down what it is asked about. -/
def record : Recogniser (List Char) := fun t => ⟨[t], (Directive.lex t).toOption⟩

/-- The recogniser that knows directives and is silent about anything else. -/
def silent : Recogniser Empty := fun t => ⟨[], (Directive.lex t).toOption⟩

/-- The texts in which a source is searched for directives, in the order of the search. -/
def looked (source : String) : List (List Char) := (tokensWith record source).notes

def faultsOf (t : List Char) : List Fault :=
  match Directive.lex t with
  | .ok _ => []
  | .error f => [f]

theorem tokens_eq (source : String) : tokens source =
    ⟨(looked source).flatMap faultsOf, (tokensWith silent source).value⟩ := by
  have hprobe : Retells faultsOf record Directive.probe := by
    intro t _
    simp only [Directive.probe, record, faultsOf, Probed.retell, List.flatMap_singleton]
    cases Directive.lex t <;> rfl
  have hsilent : Retells (fun _ => []) record silent := fun t _ => rfl
  rw [tokens, tokensWith_retell hprobe, tokensWith_retell hsilent]
  rfl

theorem isDelimited_of_mem_looked {source : String} {t : List Char} (ht : t ∈ looked source) :
    IsDelimited t := by
  classical
  let attested : Recogniser { t // IsDelimited t } := fun t =>
    if h : IsDelimited t then ⟨[⟨t, h⟩], (Directive.lex t).toOption⟩ else ⟨[], none⟩
  have hr : Retells (fun t : { t // IsDelimited t } => [t.1]) attested record := by
    intro t h
    simp [attested, record, h, Probed.retell]
  rw [looked, tokensWith_retell hr, Probed.retell_notes] at ht
  obtain ⟨⟨t', ht'⟩, -, hmem⟩ := List.mem_flatMap.1 ht
  obtain rfl := List.mem_singleton.1 hmem
  exact ht'

/-! ## How reading ends -/

theorem read_of_kept (name : String) {source : String}
    (h : ((looked source).flatMap faultsOf).find? (!·.isMalformed) = none) :
    read name source = ⟨faultNotices ((looked source).flatMap faultsOf) ++
      (ofTokens name (tokensWith silent source).value).2,
        .ok (ofTokens name (tokensWith silent source).value).1⟩ := by
  simp only [read, tokens_eq, h]

theorem read_of_fault (name : String) {source : String} {f : Fault}
    (h : ((looked source).flatMap faultsOf).find? (!·.isMalformed) = some f) :
    (read name source).result = .error (.directive f) := by
  simp only [read, tokens_eq, h]

theorem mem_faultsOf {t : List Char} {f : Fault} : f ∈ faultsOf t ↔ Directive.lex t = .error f := by
  unfold faultsOf
  cases Directive.lex t <;> simp [eq_comm]

/-- Only delimited texts are looked at for directives. If those among them that are none are all
malformed, the source is read into the document that a reader gets who takes them for no
directives, with a warning about each before the other notices. Else one of them holds a literal
without a value, and the fault of that literal is all that the reading yields. -/
theorem read_keeps_malformed (name source : String) :
    (∀ t ∈ looked source, IsDelimited t) ∧
    ((∀ t ∈ looked source, ∀ f, Directive.lex t = .error f → f.isMalformed = true) →
      read name source =
        ⟨faultNotices ((looked source).flatMap faultsOf) ++
            (ofTokens name (tokensWith silent source).value).2,
          .ok (ofTokens name (tokensWith silent source).value).1⟩) ∧
    ((∃ t ∈ looked source, ∃ f, Directive.lex t = .error f ∧ f.isMalformed = false) →
      ∃ t ∈ looked source, ∃ f, Directive.lex t = .error f ∧
        (read name source).result = .error (.directive f) ∧
          ∃ l : Literal, l.IsWritten ∧ ¬l.IsValid ∧ l.text <:+: t) := by
  refine ⟨fun t => isDelimited_of_mem_looked, fun hall => ?_, ?_⟩
  · have hnone : ((looked source).flatMap faultsOf).find? (!·.isMalformed) = none := by
      rw [List.find?_eq_none]
      intro f hf
      obtain ⟨t, ht, hft⟩ := List.mem_flatMap.1 hf
      simp [hall t ht f (mem_faultsOf.1 hft)]
    exact read_of_kept name hnone
  · rintro ⟨t, ht, f, hf, hends⟩
    have hmem : f ∈ (looked source).flatMap faultsOf :=
      List.mem_flatMap.2 ⟨t, ht, mem_faultsOf.2 hf⟩
    cases hfind : ((looked source).flatMap faultsOf).find? (!·.isMalformed) with
    | none =>
      have hkept := List.find?_eq_none.1 hfind f hmem
      simp [hends] at hkept
    | some g =>
      obtain ⟨u, hu, hg⟩ := List.mem_flatMap.1 (List.mem_of_find?_eq_some hfind)
      have hgends : g.isMalformed = false := by simpa using List.find?_some hfind
      obtain ⟨l, hl, hvalue, htext⟩ := Directive.holdsFaulty_of_lex (mem_faultsOf.1 hg) hgends
      refine ⟨u, hu, g, mem_faultsOf.1 hg, read_of_fault name hfind, l, hl, fun hvalid => ?_, htext⟩
      rw [Directive.value_of_isValid hvalid] at hvalue
      cases hvalue

/-- A tag may not start with a digit: the text stays in its paragraph, and is warned about. -/
theorem read_keeps_digits :
    let source := "a \x7b% 1 %\x7d\n"
    looked source = ["\x7b% 1 %\x7d".toList] ∧
    (read "" source).log = [.keptAsText (.invalidTag "\x7b% 1 %\x7d")] ∧
    (read "" source).result.toOption.map (fun n => n.walk.map fun m => (m.kind, m.content)) =
      some [(.document, none), (.paragraph, none), (.text, "a \x7b% 1 %\x7d")] := by
  intro source
  have hlooked : looked source = ["\x7b% 1 %\x7d".toList] := by decide +kernel
  have hmalformed : ∀ t ∈ looked source, ∀ f, Directive.lex t = .error f →
      f.isMalformed = true := by
    rw [hlooked]
    rintro t ht f hf
    obtain rfl := List.mem_singleton.1 ht
    cases hf
    rfl
  refine ⟨hlooked, ?_⟩
  rw [(read_keeps_malformed "" source).2.1 hmalformed]
  decide +kernel

/-- A string with an escape that there is not ends the reading of the whole source. -/
theorem not_reads_every_source : ¬∀ name source, ∃ n, (read name source).result = .ok n := by
  intro hall
  obtain ⟨n, hn⟩ := hall "" "\x7b% a x=\"\\q\" %\x7d\n"
  have hfails : (read "" "\x7b% a x=\"\\q\" %\x7d\n").result.toOption.isNone = true := by
    decide +kernel
  rw [hn] at hfails
  cases hfails

end DocPress.Document
