import DocPress.Proofs.Directive.Quote
import DocPress.Proofs.Document.Standing
import DocPress.Proofs.Markdown.Amid

/-!
# A tag with a string

Both rules that look for directives, the one for lines and the one for running text, end a
directive where the text of the closing delimiter first stands. The lexer takes a string as a
whole, whatever is in it. So a tag is found, alone on its line or between words, unless its string
is written with that text in it: then what is cut out holds a quote that is not closed.
-/

set_option autoImplicit false

namespace DocPress.Document

open Text Node Element Markdown
open Directive (IsName)

/-! ## The text of a tag -/

theorem le_toNat_of_isUnit {n : Nat} {t : List Char} (h : StringLiteral.IsUnit n t) :
    ∀ d ∈ t, 0x20 ≤ d.toNat := by
  have hdigit : ∀ {n : Nat} {c : Char}, StringLiteral.IsHex n c → 0x20 ≤ c.toNat := by
    intro n c hc
    have hall : (StringLiteral.lowerDigits ++ StringLiteral.upperDigits).all
        (fun d => decide (0x20 ≤ d.toNat)) = true := by decide +kernel
    have hmem := List.mem_append.2 (hc.imp List.mem_of_getElem? List.mem_of_getElem?)
    exact of_decide_eq_true (List.all_eq_true.1 hall c hmem)
  obtain ⟨ha, hb, hc, hd⟩ := h
  simp only [List.forall_mem_cons]
  exact ⟨by decide, by decide, hdigit ha, hdigit hb, hdigit hc, hdigit hd, List.forall_mem_nil _⟩

theorem le_toNat_of_writesChar {c : Char} {t : List Char} (h : StringLiteral.WritesChar c t) :
    ∀ d ∈ t, 0x20 ≤ d.toNat := by
  cases h with
  | plain _ _ hc => exact List.forall_mem_singleton.2 hc
  | short he =>
    have hall : ∀ p ∈ StringLiteral.shortEscapes, 0x20 ≤ p.1.toNat := by decide
    exact List.forall_mem_cons.2 ⟨by decide, List.forall_mem_singleton.2 (hall _ he)⟩
  | unit ht => exact le_toNat_of_isUnit ht
  | pair _ ht hu => exact List.forall_mem_append.2 ⟨le_toNat_of_isUnit ht, le_toNat_of_isUnit hu⟩

theorem le_toNat_of_writes {s inside : List Char} (h : StringLiteral.Writes s inside) :
    ∀ d ∈ inside, 0x20 ≤ d.toNat := by
  induction h with
  | nil => exact List.forall_mem_nil _
  | cons hc _ ih => exact List.forall_mem_append.2 ⟨le_toNat_of_writesChar hc, ih⟩

def IsWithinLine (c : Char) : Prop := IsSource c ∧ c ≠ '\n'

instance (c : Char) : Decidable (IsWithinLine c) := inferInstanceAs (Decidable (_ ∧ _))

theorem isWithinLine_of_le {c : Char} (h : 0x20 ≤ c.toNat) : IsWithinLine c := by
  refine ⟨⟨?_, ?_⟩, ?_⟩ <;> rintro rfl <;> exact absurd h (by decide)

theorem isWithinLine_of_isName {t : List Char} (h : IsName t) : ∀ c ∈ t, IsWithinLine c := by
  intro c hc
  have hchar := h.isNameChar c hc
  refine ⟨⟨?_, ?_⟩, ?_⟩ <;> rintro rfl <;> cases hchar

theorem isWithinLine_of_writesValue {v : String} {t : List Char}
    (h : Directive.WritesValue (.string v) t) : ∀ c ∈ t, IsWithinLine c := by
  cases h with
  | string hinside =>
    exact List.forall_mem_cons.2 ⟨by decide, List.forall_mem_append.2
      ⟨fun c hc => isWithinLine_of_le (le_toNat_of_writes hinside c hc),
        List.forall_mem_singleton.2 (by decide)⟩⟩

theorem exists_inside_of_writesValue {v : String} {t : List Char}
    (h : Directive.WritesValue (.string v) t) :
    ∃ inside, t = '"' :: (inside ++ ['"']) ∧ Directive.IsInside inside := by
  cases h with
  | string hs =>
    exact ⟨_, rfl, StringLiteral.isInside_of_isSound (StringLiteral.isSound_of_writes hs)⟩

/-- What stands between the first and the last delimiter of a tag without content. -/
def tagInside (n k literal : String) : List Char :=
  ' ' :: (n.toList ++ ' ' :: (k.toList ++ '=' :: (literal.toList ++ [' ', '/'])))

def tagText (n k literal : String) : List Char :=
  '{' :: '%' :: (tagInside n k literal ++ ['%', '}'])

section

variable {n k v literal : String} (hn : IsName n.toList) (hk : IsName k.toList)
  (hv : Directive.WritesValue (.string v) literal.toList)

include hn hk

/-- The text of a closing delimiter may stand in the literal only. -/
theorem isInfix_tagInside_iff :
    ['%', '}'] <:+: '{' :: '%' :: tagInside n k literal ↔ ['%', '}'] <:+: literal.toList := by
  have hname : ∀ {t : List Char}, IsName t → ¬['%', '}'] <:+: t := fun ht h =>
    absurd (ht.isNameChar '}' (h.subset (by simp))) (by decide)
  constructor
  · intro h
    have hopen : ¬['%', '}'] <:+: ['{', '%'] := by decide
    have hclose : ¬['%', '}'] <:+: ['/'] := by decide
    have hbehind := (isInfix_or_of_not_mem (a := ['{', '%']) (by decide) h).resolve_left hopen
    have hattribute := (isInfix_or_of_not_mem (by decide) hbehind).resolve_left (hname hn)
    have hliteral := (isInfix_or_of_not_mem (by decide) hattribute).resolve_left (hname hk)
    exact (isInfix_or_of_not_mem (by decide) hliteral).resolve_right hclose
  · intro h
    refine h.trans ⟨'{' :: '%' :: ' ' :: (n.toList ++ ' ' :: (k.toList ++ ['='])), [' ', '/'], ?_⟩
    simp [tagInside]

include hv

theorem probe_tagText :
    Directive.probe (tagText n k literal) = pure (some (.selfClosing n [(k, .string v)])) := by
  have hwrites : Directive.Writes (.selfClosing n [(k, .string v)]) (tagText n k literal) := by
    have hattribute : Directive.WritesAttributes [(k, .string v)] _ := .cons hv .nil
    have htag : Directive.Writes (.selfClosing n [(k, .string v)]) _ := .selfClosing hattribute
    simpa [tagText, tagInside, Directive.delimited] using htag
  have hlex : Directive.lex (tagText n k literal) = .ok (.selfClosing n [(k, .string v)]) :=
    Directive.lex_eq_ok_iff.2 (Directive.exists_isForm
      ⟨hn, List.nodup_singleton _, List.forall_mem_singleton.2 ⟨hk, trivial⟩⟩ hwrites)
  rw [Directive.probe, hlex]
  rfl

/-- What ends where the text of a closing delimiter first stands in the literal is no directive. -/
theorem exists_inner_end (h : ['%', '}'] <:+: literal.toList) :
    ∃ x r, tagInside n k literal = x ++ '%' :: '}' :: r ∧ ¬['%', '}'] <:+: x ∧
      (Directive.probe ('{' :: '%' :: (x ++ ['%', '}']))).value = none := by
  obtain ⟨inside, hliteral, hinside⟩ := exists_inside_of_writesValue hv
  have hquoted : ['%', '}'] <:+: inside := by
    rw [hliteral] at h
    have hbehind := (isInfix_or_of_not_mem (a := []) (by decide) h).resolve_left (by decide)
    exact (isInfix_or_of_not_mem (by decide) hbehind).resolve_right (by decide)
  obtain ⟨y, z, rfl, hy⟩ := Html.exists_first_end hquoted
  have hcut : Directive.takeString? (y ++ ['%', '}']) = none :=
    Directive.takeString?_of_cut (t := z) (by simpa using hinside)
  refine ⟨' ' :: (n.toList ++ ' ' :: (k.toList ++ '=' :: '"' :: y)), z ++ ['"', ' ', '/'],
    ?_, fun hx => hy ?_, ?_⟩
  · simp [tagInside, hliteral]
  · have htag : ['%', '}'] <:+: '{' :: '%' :: tagInside n k (String.ofList ('"' :: y)) :=
      hx.trans ⟨['{', '%'], [' ', '/'], by simp [tagInside]⟩
    have hopen := (isInfix_tagInside_iff hn hk).1 htag
    rw [String.toList_ofList] at hopen
    exact (isInfix_or_of_not_mem (a := []) (by decide) hopen).resolve_left (by decide)
  · have hprobe := Directive.probe_of_open (t := y ++ ['%', '}'])
      (s := '{' :: '%' :: ' ' :: (n.toList ++ ' ' :: (k.toList ++ ['='])))
      (by simp [hn.quote_not_mem, hk.quote_not_mem]) hcut
    simpa using hprobe

theorem isWithinLine_tagText : ∀ c ∈ tagText n k literal, IsWithinLine c := by
  simp only [tagText, tagInside, List.forall_mem_cons, List.forall_mem_append]
  exact ⟨by decide, by decide, ⟨by decide, isWithinLine_of_isName hn, by decide,
    isWithinLine_of_isName hk, by decide, isWithinLine_of_writesValue hv, by decide, by decide,
    List.forall_mem_nil _⟩, by decide, by decide, List.forall_mem_nil _⟩

end

/-! ## Sources of one line -/

/-- A source of one line, which may be ended, is one block if the line is. -/
theorem tokens_single {t : List Char} {source : String} {b : Block} (ht : ∀ c ∈ t, IsWithinLine c)
    (hstart : Stops isSpaceOrTab t) (hne : t ≠ [])
    (hs : source.toList = t ∨ source.toList = t ++ ['\n'])
    (hb : ∀ ended, Block.readBlock Directive.probe (Block.reader Directive.probe 19)
      (Block.reader Directive.probe 18) .top (.ofText t ended) [] = pure (b, 0)) :
    tokens source =
      blocksTokens (Inline.read Directive.probe (Block.definitionsIn [b])) false [b] := by
  have hsource : ∀ c ∈ t, IsSource c := fun c hc => (ht c hc).1
  have hfeed : '\n' ∉ t := fun hc => (ht _ hc).2 rfl
  obtain ⟨ended, hlines⟩ : ∃ ended, linesOf source = [.ofText t ended] := by
    obtain hs | hs := hs
    · have hplain := plainSource_append hsource []
      rw [List.append_nil, show plainSource [] = [] from rfl, List.append_nil] at hplain
      have hblank : t.all isSpaceOrTab = false := by
        obtain ⟨c, r, rfl⟩ := List.exists_cons_of_ne_nil hne
        rw [List.all_cons, stops_cons.1 hstart]
        rfl
      exact ⟨false, by rw [linesOf, hs, hplain, Line.lines_of_no_feed hfeed hblank]⟩
    · have hnone : linesOf "" = [] := rfl
      have hs' : source.toList = t ++ '\n' :: "".toList := hs
      exact ⟨true, by rw [linesOf_cons hs' hsource hfeed, hnone]; rfl⟩
  have hnil : Block.ofLines Directive.probe [] = pure [] := by
    rw [Block.ofLines_eq, Block.readBlocks]
    rfl
  have hempty : (Line.ofText t ended).isEmpty = false := by
    rw [Line.ofText_of_stops hstart, Line.isEmpty, List.isEmpty_eq_false_iff]
    exact hne
  have hinside : (Line.ofText t ended).isOutside .top = false := by
    rw [Line.ofText_of_stops hstart]
    rfl
  rw [tokens_eq_blocks, hlines, Block.ofLines_cons hempty hinside, hb]
  simp only [Probed.pure_value, List.drop_nil, hnil, Probed.pure_notes, List.append_nil]
  rfl

section

variable {n k v literal source : String} (hn : IsName n.toList) (hk : IsName k.toList)
  (hv : Directive.WritesValue (.string v) literal.toList)

include hn hk hv

theorem tokens_alone (h : ¬['%', '}'] <:+: literal.toList)
    (hs : source.toList = tagText n k literal ∨ source.toList = tagText n k literal ++ ['\n']) :
    tokens source = pure [.directive (.selfClosing n [(k, .string v)])] := by
  have hstanding : ∀ ended, Block.IsStanding Directive.probe (.selfClosing n [(k, .string v)])
      (.ofText (tagText n k literal) ended) :=
    Block.isStanding_ofText (mt (isInfix_tagInside_iff hn hk).1 h) (probe_tagText hn hk hv) rfl
  exact tokens_single (isWithinLine_tagText hn hk hv) rfl (List.cons_ne_nil _ _) hs
    fun ended => (hstanding ended).readBlock rfl

theorem tokens_alone_of_inner (h : ['%', '}'] <:+: literal.toList)
    (hs : source.toList = tagText n k literal ∨ source.toList = tagText n k literal ++ ['\n']) :
    ∃ ts, (tokens source).value = .opening .paragraph :: ts := by
  rw [tokens_single (isWithinLine_tagText hn hk hv) rfl (List.cons_ne_nil _ _) hs
    (Block.readBlock_of_inner ((isInfix_tagInside_iff hn hk).2 h))]
  exact ⟨_, rfl⟩

theorem read_alone_iff (name : String)
    (hs : source.toList = tagText n k literal ∨ source.toList = tagText n k literal ++ ['\n']) :
    (read name source).result =
        .ok { kind := .document, children := [tagNode n [(k, .string v)] []] } ↔
      ¬['%', '}'] <:+: literal.toList := by
  refine ⟨fun hread hinner => ?_, fun h => ?_⟩
  · obtain ⟨ts, hts⟩ := tokens_alone_of_inner hn hk hv hinner hs
    have hnodes := bareWalk_ofTokens name (tokens source).value
    rw [(read_eq_ok_iff.1 hread).2, hts, bareWalk_singleton] at hnodes
    cases congrArg Node.kind (List.cons.inj hnodes).1
  · rw [read_eq_ok_iff, tokens_alone hn hk hv h hs]
    exact ⟨nofun, rfl⟩

/-- A line of a tag between two phrases. -/
theorem isWithinLine_between {a b : List Char} (ha : IsPhrase a) (hb : IsPhrase b) :
    ∀ c ∈ a ++ ' ' :: (tagText n k literal ++ ' ' :: b), IsWithinLine c := by
  have hphrase : ∀ {t : List Char}, IsPhrase t → ∀ c ∈ t, IsWithinLine c := by
    intro t ht c hc
    refine ⟨⟨?_, ?_⟩, ?_⟩ <;> rintro rfl <;> exact ht.not_mem (by decide) (by decide) hc
  simp only [List.forall_mem_append, List.forall_mem_cons]
  exact ⟨hphrase ha, by decide, isWithinLine_tagText hn hk hv, by decide, hphrase hb⟩

section

variable {a b : List Char} (ha : IsPhrase a) (hb : IsPhrase b)
  (hs : source.toList = a ++ ' ' :: (tagText n k literal ++ ' ' :: b) ∨
    source.toList = a ++ ' ' :: (tagText n k literal ++ ' ' :: b) ++ ['\n'])

include ha hb hs

theorem tokens_between_eq : tokens source = textBlock (Inline.read Directive.probe []) .paragraph
    (a ++ [' '] ++ ('{' :: '%' :: (tagInside n k literal ++ ['%', '}']) ++ ' ' :: b)) := by
  rw [tokens_single (isWithinLine_between hn hk hv ha hb)
    ((ha.stops isPlain_of_isSpaceOrTab).append ha.ne_nil _) (by simp) hs
    (Block.readBlock_between ha hb)]
  have hsplit : a ++ ' ' :: (tagText n k literal ++ ' ' :: b) =
      a ++ [' '] ++ ('{' :: '%' :: (tagInside n k literal ++ ['%', '}']) ++ ' ' :: b) := by
    simp [tagText]
  show blocksTokens (Inline.read Directive.probe []) false _ = _
  rw [hsplit, blocksTokens, blockTokens, blocksTokens]
  generalize textBlock (Inline.read Directive.probe []) .paragraph _ = ts
  obtain ⟨notes, ts⟩ := ts
  show Probed.mk (notes ++ ([] ++ [])) (ts ++ []) = _
  rw [List.append_nil, List.append_nil, List.append_nil]

/-- Between two phrases. -/
theorem tokens_between (h : ¬['%', '}'] <:+: literal.toList) :
    tokens source = pure (enclosed .paragraph [.inline
      [.leaf (.text (String.ofList (a ++ [' ']))), .directive (.selfClosing n [(k, .string v)]),
        .leaf (.text (String.ofList (' ' :: b)))]]) := by
  have hend : ¬['%', '}'] <:+: tagInside n k literal := fun hx => h <|
    (isInfix_tagInside_iff hn hk).1 (hx.trans (List.suffix_append ['{', '%'] _).isInfix)
  rw [tokens_between_eq hn hk hv ha hb hs, textBlock, Inline.read_amid (by simp) ha.isStop_space
    (by simp) (List.forall_mem_cons.2 ⟨by decide, hb.isStop⟩) hend (probe_tagText hn hk hv)]
  rfl

/-- The text before the tag then goes on at its brace. -/
theorem tokens_between_of_inner (h : ['%', '}'] <:+: literal.toList) :
    ∃ s ts, (tokens source).value =
        enclosed .paragraph [.inline (.leaf (.text (String.ofList s)) :: ts)] ∧
      a ++ [' '] ++ ['{'] <+: s := by
  obtain ⟨x, r, hinside, hx, hnone⟩ := exists_inner_end hn hk hv h
  obtain ⟨s, ts, hread, hstart⟩ := Inline.read_no_directive (a := a ++ [' ']) (by simp)
    ha.isStop_space hx hnone (r ++ '%' :: '}' :: ' ' :: b)
  have hsplit : a ++ [' '] ++ ('{' :: '%' :: (tagInside n k literal ++ ['%', '}']) ++ ' ' :: b) =
      a ++ [' '] ++ ('{' :: '%' :: (x ++ ['%', '}']) ++ (r ++ '%' :: '}' :: ' ' :: b)) := by
    simp [hinside]
  refine ⟨s, ts, ?_, hstart⟩
  rw [tokens_between_eq hn hk hv ha hb hs, hsplit, textBlock, Probed.map_value, hread]

theorem read_between_iff (name : String) :
    (read name source).result =
        .ok { kind := .document,
              children := [containerNode .paragraph [(Leaf.text (String.ofList (a ++ [' ']))).node,
                tagNode n [(k, .string v)] [], (Leaf.text (String.ofList (' ' :: b))).node]] } ↔
      ¬['%', '}'] <:+: literal.toList := by
  refine ⟨fun hread hinner => ?_, fun h => ?_⟩
  · obtain ⟨s, ts, hts, hstart⟩ := tokens_between_of_inner hn hk hv ha hb hs hinner
    have hnodes := bareWalk_ofTokens name (tokens source).value
    rw [(read_eq_ok_iff.1 hread).2, hts, bareWalk_singleton] at hnodes
    have hfirst := (List.cons.inj (List.cons.inj hnodes).2).1
    have htext := String.ofList_injective (Option.some.inj (congrArg Node.content hfirst))
    rw [← htext] at hstart
    exact absurd hstart.length_le (by simp)
  · rw [read_eq_ok_iff, tokens_between hn hk hv ha hb hs h]
    exact ⟨nofun, rfl⟩

end

end

/-! ## Documents -/

def tagSource (n k literal : String) : String :=
  "\x7b% " ++ n ++ " " ++ k ++ "=" ++ literal ++ " /%\x7d"

theorem toList_tagSource (n k literal : String) :
    (tagSource n k literal).toList = tagText n k literal := by
  simp [tagSource, tagText, tagInside]

/-- A tag with a string, however the string is written, is found exactly if the text of a closing
delimiter does not stand in the literal: as the only child of a document that consists of it, and
between the texts of two phrases. -/
theorem read_tag_with_string {n k v literal feed : String} (hn : IsName n.toList)
    (hk : IsName k.toList) (hv : Directive.WritesValue (.string v) literal.toList)
    (hf : feed = "" ∨ feed = "\n") (name : String) :
    ((read name (tagSource n k literal ++ feed)).result =
        .ok { kind := .document, children := [tagNode n [(k, .string v)] []] } ↔
      ¬['%', '}'] <:+: literal.toList) ∧
    ∀ a b : String, IsPhrase a.toList → IsPhrase b.toList →
      ((read name (a ++ " " ++ tagSource n k literal ++ " " ++ b ++ feed)).result =
          .ok { kind := .document,
                children := [containerNode .paragraph [(Leaf.text (a ++ " ")).node,
                  tagNode n [(k, .string v)] [], (Leaf.text (" " ++ b)).node]] } ↔
        ¬['%', '}'] <:+: literal.toList) := by
  have hfeed : ∀ {t : List Char} {s : String}, s.toList = t →
      (s ++ feed).toList = t ∨ (s ++ feed).toList = t ++ ['\n'] := by
    rintro t s rfl
    rcases hf with rfl | rfl <;> simp
  refine ⟨read_alone_iff hn hk hv name (hfeed (toList_tagSource n k literal)), ?_⟩
  intro a b ha hb
  have hbetween := hfeed (s := a ++ " " ++ tagSource n k literal ++ " " ++ b)
    (t := a.toList ++ ' ' :: (tagText n k literal ++ ' ' :: b.toList)) (by simp [toList_tagSource])
  have hiff := read_between_iff hn hk hv ha hb hbetween name
  rwa [show String.ofList (a.toList ++ [' ']) = a ++ " " by simp,
    show String.ofList (' ' :: b.toList) = " " ++ b by simp] at hiff

/-- The text of a closing delimiter as a string, with an escape in its literal. -/
theorem read_tag_with_escape :
    let doc : List Node := [tagNode "n" [("k", .string "%\x7d")] []]
    IsName "n".toList ∧ IsName "k".toList ∧
    Directive.WritesValue (.string "%\x7d") "\"\\u0025\x7d\"".toList ∧
    IsPhrase "a".toList ∧ IsPhrase "b".toList ∧
    (read "" (tagSource "n" "k" "\"\\u0025\x7d\"" ++ "\n")).result =
      .ok { kind := .document, children := doc } ∧
    (read "" ("a" ++ " " ++ tagSource "n" "k" "\"\\u0025\x7d\"" ++ " " ++ "b" ++ "\n")).result =
      .ok { kind := .document,
            children := [containerNode .paragraph [(Leaf.text ("a" ++ " ")).node,
              tagNode "n" [("k", .string "%\x7d")] [], (Leaf.text (" " ++ "b")).node]] } := by
  intro doc
  have hn : IsName "n".toList := by decide +kernel
  have hk : IsName "k".toList := by decide +kernel
  have hliteral : "\"\\u0025\x7d\"".toList =
      '"' :: (['\\', 'u', '0', '0', '2', '5'] ++ (['}'] ++ []) ++ ['"']) := by decide +kernel
  have hpercent : StringLiteral.WritesChar '%' ['\\', 'u', '0', '0', '2', '5'] :=
    .unit (.mk (.inl rfl) (.inl rfl) (.inl rfl) (.inl rfl))
  have hbrace : StringLiteral.WritesChar '}' ['}'] := .plain (by decide) (by decide) (by decide)
  have hchars : "%\x7d".toList = ['%', '}'] := by decide +kernel
  have hv : Directive.WritesValue (.string "%\x7d") "\"\\u0025\x7d\"".toList := by
    rw [hliteral]
    exact .string (hchars ▸ .cons hpercent (.cons hbrace .nil))
  have ha : IsPhrase "a".toList := by decide +kernel
  have hb : IsPhrase "b".toList := by decide +kernel
  have hend : ¬['%', '}'] <:+: "\"\\u0025\x7d\"".toList := by
    rw [hliteral]
    decide
  obtain ⟨halone, hbetween⟩ := read_tag_with_string hn hk hv (.inr rfl) ""
  exact ⟨hn, hk, hv, ha, hb, halone.2 hend, (hbetween "a" "b" ha hb).2 hend⟩

/-- Without the escape the tag is text. -/
theorem not_read_every_tag_with_string :
    ¬∀ (name n k v literal : String), IsName n.toList → IsName k.toList →
      Directive.WritesValue (.string v) literal.toList →
      (read name (tagSource n k literal)).result =
        .ok { kind := .document, children := [tagNode n [(k, .string v)] []] } := by
  intro hall
  have hliteral : "\"%\x7d\"".toList = '"' :: (['%'] ++ (['}'] ++ []) ++ ['"']) := by
    decide +kernel
  have hchars : "%\x7d".toList = ['%', '}'] := by decide +kernel
  have hv : Directive.WritesValue (.string "%\x7d") "\"%\x7d\"".toList := by
    rw [hliteral]
    exact .string (hchars ▸ .cons (.plain (by decide) (by decide) (by decide))
      (.cons (.plain (by decide) (by decide) (by decide)) .nil))
  have hread := hall "" "n" "k" "%\x7d" "\"%\x7d\"" (by decide +kernel) (by decide +kernel) hv
  have hkinds : (read "" (tagSource "n" "k" "\"%\x7d\"")).result.toOption.map
      (fun n => n.children.map (·.kind)) = some [.paragraph] := by decide +kernel
  rw [hread] at hkinds
  cases hkinds

end DocPress.Document
