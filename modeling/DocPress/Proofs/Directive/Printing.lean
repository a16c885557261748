import Mathlib.Data.Nat.Digits.Defs
import DocPress.Proofs.Directive.Lexer

/-!
# Printing directives

The texts that write a directive: a value as a literal, with a string in any of the
ways in which a string literal can write it, and the parts of a directive in their
places. Every directive whose names are names and whose values have literals is
written by some text. Main statement: reading a text that writes a directive gives
the directive back.
-/

set_option autoImplicit false

namespace DocPress

open Text

namespace StringLiteral

/-! ## The ways to write a string -/

def lowerDigits : List Char := "0123456789abcdef".toList

def upperDigits : List Char := "0123456789ABCDEF".toList

def IsHex (n : Nat) (c : Char) : Prop := lowerDigits[n]? = some c ∨ upperDigits[n]? = some c

/-- An escape writes a unit of sixteen bits by its four hexadecimal digits. -/
inductive IsUnit (n : Nat) : List Char → Prop
  | mk {a b c d : Char} : IsHex (n / 0x1000) a → IsHex (n / 0x100 % 16) b → IsHex (n / 16 % 16) c →
      IsHex (n % 16) d → IsUnit n ['\\', 'u', a, b, c, d]

def shortEscapes : List (Char × Char) :=
  [('"', '"'), ('\\', '\\'), ('/', '/'), ('b', '\x08'), ('f', '\x0c'), ('n', '\n'), ('r', '\r'),
    ('t', '\t')]

/-- A character is written as it is, by a short escape, by its code point or, beyond the first
plane, by two surrogates. -/
inductive WritesChar (c : Char) : List Char → Prop
  | plain : c ≠ '"' → c ≠ '\\' → 0x20 ≤ c.toNat → WritesChar c [c]
  | short {e : Char} : (e, c) ∈ shortEscapes → WritesChar c ['\\', e]
  | unit {t : List Char} : IsUnit c.toNat t → WritesChar c t
  | pair {t u : List Char} : 0x10000 ≤ c.toNat →
      IsUnit (0xD800 + (c.toNat - 0x10000) / 0x400) t →
      IsUnit (0xDC00 + (c.toNat - 0x10000) % 0x400) u → WritesChar c (t ++ u)

inductive Writes : List Char → List Char → Prop
  | nil : Writes [] []
  | cons {c : Char} {t s inside : List Char} : WritesChar c t → Writes s inside →
      Writes (c :: s) (t ++ inside)

theorem hexValue?_of_isHex {n : Nat} {c : Char} (h : IsHex n c) : hexValue? c = some n := by
  have hlower : ∀ i (hi : i < lowerDigits.length), hexValue? lowerDigits[i] = some i := by
    decide +kernel
  have hupper : ∀ i (hi : i < upperDigits.length), hexValue? upperDigits[i] = some i := by
    decide +kernel
  rcases h with h | h
  · obtain ⟨hn, rfl⟩ := List.getElem?_eq_some_iff.1 h
    exact hlower n hn
  · obtain ⟨hn, rfl⟩ := List.getElem?_eq_some_iff.1 h
    exact hupper n hn

theorem exists_of_isUnit {n : Nat} {t : List Char} (h : IsUnit n t) :
    ∃ a b c d, t = ['\\', 'u', a, b, c, d] ∧ hexQuad? a b c d = some n := by
  obtain ⟨ha, hb, hc, hd⟩ := h
  refine ⟨_, _, _, _, rfl, ?_⟩
  simp only [hexQuad?, hexValue?_of_isHex ha, hexValue?_of_isHex hb, hexValue?_of_isHex hc,
    hexValue?_of_isHex hd, Option.bind_eq_bind, Option.bind_some, Option.pure_def,
    Option.some.injEq]
  omega

theorem decode_plain {c : Char} (hq : c ≠ '"') (hb : c ≠ '\\') (hc : 0x20 ≤ c.toNat)
    (r : List Char) : decode (c :: r) = (decode r).map (c.toNat :: ·) := by
  have hcontrol : ¬c.toNat < 0x20 := by omega
  rw [decode.eq_def]
  split <;> simp_all

theorem decode_short {e c : Char} (h : (e, c) ∈ shortEscapes) (r : List Char) :
    decode ('\\' :: e :: r) = (decode r).map (c.toNat :: ·) := by
  have hvalue : simpleEscape? e = some c := by
    have hall : ∀ p ∈ shortEscapes, simpleEscape? p.1 = some p.2 := by decide
    exact hall _ h
  have hunit : e ≠ 'u' := by
    rintro rfl
    cases hvalue
  rw [decode, hvalue]
  rintro a b c d r' he
  exact absurd he hunit

theorem decode_unit {n : Nat} {t : List Char} (h : IsUnit n t) (hn : isHighSurrogate n = false)
    (r : List Char) : decode (t ++ r) = (decode r).map (n :: ·) := by
  obtain ⟨a, b, c, d, rfl, hquad⟩ := exists_of_isUnit h
  simp only [List.cons_append, List.nil_append]
  rw [decode.eq_def]
  simp only [hquad]
  split
  · simp [hn]
  · rfl

theorem decode_pair {hi lo : Nat} {t u : List Char} (ht : IsUnit hi t) (hu : IsUnit lo u)
    (hhi : isHighSurrogate hi = true) (hlo : isLowSurrogate lo = true) (r : List Char) :
    decode (t ++ u ++ r) = (decode r).map (pairedCode hi lo :: ·) := by
  obtain ⟨a, b, c, d, rfl, hquad⟩ := exists_of_isUnit ht
  obtain ⟨e, f, g, h, rfl, hquad'⟩ := exists_of_isUnit hu
  simp only [List.cons_append, List.nil_append]
  rw [decode.eq_def]
  simp [hquad, hquad', hhi, hlo]

theorem toNat_lt (c : Char) : c.toNat < 0xD800 ∨ 0xDFFF < c.toNat ∧ c.toNat < 0x110000 := c.valid

theorem isSurrogate_toNat (c : Char) : isSurrogate c.toNat = false := by
  have hrange := toNat_lt c
  simp only [isSurrogate, isHighSurrogate, isLowSurrogate, Bool.or_eq_false_iff,
    Bool.and_eq_false_iff, decide_eq_false_iff_not]
  omega

theorem ofCodes_map_toNat (s : List Char) :
    Value.ofCodes (s.map Char.toNat) = .string (String.ofList s) := by
  have hany : (s.map Char.toNat).any isSurrogate = false := by simp [isSurrogate_toNat]
  simp [Value.ofCodes, hany, List.map_map, Function.comp_def, Char.ofNat_toNat]

theorem decode_of_writesChar {c : Char} {t : List Char} (h : WritesChar c t) (r : List Char) :
    decode (t ++ r) = (decode r).map (c.toNat :: ·) := by
  cases h with
  | plain hq hb hc => exact decode_plain hq hb hc r
  | short he => exact decode_short he r
  | unit ht =>
    exact decode_unit ht (Bool.or_eq_false_iff.1 (isSurrogate_toNat c)).1 r
  | @pair t u hc ht hu =>
    have hrange := toNat_lt c
    have hhigh : isHighSurrogate (0xD800 + (c.toNat - 0x10000) / 0x400) = true := by
      simp only [isHighSurrogate, Bool.and_eq_true, decide_eq_true_eq]
      omega
    have hlow : isLowSurrogate (0xDC00 + (c.toNat - 0x10000) % 0x400) = true := by
      simp only [isLowSurrogate, Bool.and_eq_true, decide_eq_true_eq]
      omega
    have hcode : pairedCode (0xD800 + (c.toNat - 0x10000) / 0x400)
        (0xDC00 + (c.toNat - 0x10000) % 0x400) = c.toNat := by
      unfold pairedCode
      omega
    rw [decode_pair ht hu hhigh hlow, hcode]

theorem decode_of_writes {s inside : List Char} (h : Writes s inside) :
    decode inside = some (s.map Char.toNat) := by
  induction h with
  | nil => rfl
  | cons hc _ ih => rw [decode_of_writesChar hc, ih, Option.map_some, List.map_cons]

theorem isSound_of_writes {s inside : List Char} (h : Writes s inside) : IsSound inside :=
  (decode_isSome_iff inside).1 (by rw [decode_of_writes h]; rfl)

/-- A string that keeps the rules of escapes ends at its closing quote. -/
theorem isInside_of_isSound {inside : List Char} (h : IsSound inside) :
    Directive.IsInside inside := by
  have hhex : ∀ {c : Char}, isHexDigit c = true → c ≠ '"' ∧ c ≠ '\\' := by
    rintro c hc
    constructor <;>
    · rintro rfl
      exact absurd hc (by decide)
  induction h with
  | nil => exact .nil
  | plain hq hb _ _ ih => exact .plain hq hb ih
  | short hc _ ih =>
    refine .pair ?_ ih
    rintro rfl
    exact absurd hc (by decide)
  | code ha hb hc hd _ ih =>
    refine .pair (by decide) (.plain (hhex ha).1 (hhex ha).2 (.plain (hhex hb).1 (hhex hb).2 ?_))
    exact .plain (hhex hc).1 (hhex hc).2 (.plain (hhex hd).1 (hhex hd).2 ih)

theorem isHex_hexDigit {n : Nat} (h : n < 16) : IsHex n (hexDigit n) := by
  have hall : ∀ i < 16, lowerDigits[i]? = some (hexDigit i) := by decide +kernel
  exact .inl (hall n h)

theorem isUnit_hexPadded {n : Nat} (h : n < 0x10000) : IsUnit n (['\\', 'u'] ++ hexPadded 4 n) := by
  have hthousand : n / 16 / 16 / 16 % 16 = n / 0x1000 := by omega
  have hhundred : n / 16 / 16 % 16 = n / 0x100 % 16 := by omega
  simp only [hexPadded, List.nil_append, List.cons_append, hthousand, hhundred]
  exact .mk (isHex_hexDigit (by omega)) (isHex_hexDigit (by omega)) (isHex_hexDigit (by omega))
    (isHex_hexDigit (by omega))

theorem writesChar_escapeChar (c : Char) : WritesChar c (escapeChar c) := by
  unfold escapeChar
  split
  · rename_i h
    subst h
    exact .short (by decide)
  · split
    · rename_i h
      subst h
      exact .short (by decide)
    · rename_i hq hb
      split
      · rename_i hc
        exact .unit (isUnit_hexPadded (by omega))
      · exact .plain hq hb (by omega)

theorem writes_encode (s : List Char) : Writes s (encode s) := by
  induction s with
  | nil => exact .nil
  | cons c s ih => exact .cons (writesChar_escapeChar c) ih

end StringLiteral

namespace Directive

open StringLiteral

/-! ## The ways to write a value -/

/-- The values that a literal can write: strings, truth values, null and integers of no more than
the accepted digits. -/
def IsLiteralValue : Value → Prop
  | .null | .bool _ | .string _ => True
  | .int n => (Nat.toDigits 10 n.natAbs).length ≤ maxIntegerDigits
  | _ => False

inductive WritesValue : Value → List Char → Prop
  | null : WritesValue .null ['n', 'u', 'l', 'l']
  | yes : WritesValue (.bool true) ['t', 'r', 'u', 'e']
  | no : WritesValue (.bool false) ['f', 'a', 'l', 's', 'e']
  | int (n : Int) : WritesValue (.int n) (Value.intText n).toList
  | string {s : String} {inside : List Char} : StringLiteral.Writes s.toList inside →
      WritesValue (.string s) ('"' :: (inside ++ ['"']))

theorem exists_writesValue {v : Value} (h : IsLiteralValue v) : ∃ t, WritesValue v t := by
  cases v with
  | null => exact ⟨_, .null⟩
  | bool b =>
    cases b with
    | true => exact ⟨_, .yes⟩
    | false => exact ⟨_, .no⟩
  | int n => exact ⟨_, .int n⟩
  | string s => exact ⟨_, .string (writes_encode s.toList)⟩
  | float | illFormed | date | list | mapping => exact h.elim

theorem digitValue?_of_isDigit {c : Char} (h : c.isDigit = true) :
    digitValue? c = some (c.toNat - '0'.toNat) := by
  have hall : ∀ n < 58, 48 ≤ n → digitValue? (Char.ofNat n) = some (n - 48) := by decide +kernel
  obtain ⟨hlow, hhigh⟩ := toNat_of_isDigit h
  have hc := hall c.toNat (by omega) hlow
  rwa [Char.ofNat_toNat] at hc

theorem foldl_digitValue {ds : List Char} (h : ∀ c ∈ ds, c.isDigit = true) (k : Nat) :
    ds.foldl (fun n c => 10 * n + (digitValue? c).getD 0) k = Nat.ofDigitChars 10 ds k := by
  induction ds generalizing k with
  | nil => rfl
  | cons c ds ih =>
    rw [List.forall_mem_cons] at h
    rw [List.foldl_cons, ih h.2, digitValue?_of_isDigit h.1]
    rfl

theorem digitsValue_toDigits (n : Nat) : digitsValue (Nat.toDigits 10 n) = n := by
  rw [digitsValue,
    foldl_digitValue fun c hc => Nat.isDigit_of_mem_toDigits (by decide) (by decide) hc,
    Nat.ofDigitChars_toDigits (by decide) (by decide)]

theorem exists_literal {v : Value} {t : List Char} (hv : IsLiteralValue v) (h : WritesValue v t) :
    ∃ l : Literal, l.IsWritten ∧ l.IsValid ∧ l.text = t ∧ l.meaning = v := by
  cases h with
  | null => exact ⟨.null, trivial, trivial, rfl, rfl⟩
  | yes => exact ⟨.yes, trivial, trivial, rfl, rfl⟩
  | no => exact ⟨.no, trivial, trivial, rfl, rfl⟩
  | int n =>
    refine ⟨.number ⟨decide (n < 0), Nat.toDigits 10 n.natAbs, none⟩, ⟨⟨Nat.toDigits_ne_nil, ?_⟩,
      fun f hf => nomatch hf⟩, fun _ => hv, ?_, ?_⟩
    · exact fun c hc => isDecimalDigit_of_isDigit
        (Nat.isDigit_of_mem_toDigits (by decide) (by decide) hc)
    · by_cases hn : n < 0 <;>
        simp [Literal.text, NumberLiteral.text, NumberLiteral.fractionText, Value.intText, hn]
    · simp only [Literal.meaning, digitsValue_toDigits, decide_eq_true_eq, Value.int.injEq]
      omega
  | @string s inside hs =>
    have hsound := isSound_of_writes hs
    refine ⟨.string inside, isInside_of_isSound hsound, hsound, rfl, ?_⟩
    rw [Literal.meaning, decode_of_writes hs, Option.getD_some, ofCodes_map_toNat,
      String.ofList_toList]

/-! ## The ways to write a directive -/

/-- Attributes are written one after another, each after a space. -/
inductive WritesAttributes : Attributes → List Char → Prop
  | nil : WritesAttributes [] []
  | cons {key : String} {v : Value} {t s : List Char} {as : Attributes} : WritesValue v t →
      WritesAttributes as s →
      WritesAttributes ((key, v) :: as) (' ' :: (key.toList ++ '=' :: (t ++ s)))

/-- Arguments are written with a comma and a space between them. -/
inductive WritesArguments : List Value → List Char → Prop
  | nil : WritesArguments [] []
  | one {v : Value} {t : List Char} : WritesValue v t → WritesArguments [v] t
  | cons {v w : Value} {t s : List Char} {vs : List Value} : WritesValue v t →
      WritesArguments (w :: vs) s → WritesArguments (v :: w :: vs) (t ++ ',' :: ' ' :: s)

def delimited (s : List Char) : List Char := '{' :: '%' :: (' ' :: s ++ ['%', '}'])

inductive Writes : Directive → List Char → Prop
  | opening {name : String} {as : Attributes} {s : List Char} : WritesAttributes as s →
      Writes (.opening name as) (delimited (name.toList ++ s ++ [' ']))
  | selfClosing {name : String} {as : Attributes} {s : List Char} : WritesAttributes as s →
      Writes (.selfClosing name as) (delimited (name.toList ++ (s ++ [' ', '/'])))
  | closing {name : String} : Writes (.closing name) (delimited ('/' :: name.toList ++ [' ']))
  | call {name : String} {vs : List Value} {s : List Char} : WritesArguments vs s →
      Writes (.call name vs) (delimited (name.toList ++ '(' :: (s ++ [')']) ++ [' ']))

def AreAttributes (as : Attributes) : Prop :=
  (Ordered.keys as).Nodup ∧ ∀ e ∈ as, IsName e.1.toList ∧ IsLiteralValue e.2

/-- The directives whose names are names, whose keys are different and whose values have
literals. -/
def IsWritable : Directive → Prop
  | .opening name as | .selfClosing name as => IsName name.toList ∧ AreAttributes as
  | .closing name => IsName name.toList
  | .call name vs => IsName name.toList ∧ ∀ v ∈ vs, IsLiteralValue v

theorem exists_writesAttributes {as : Attributes} (h : ∀ e ∈ as, IsLiteralValue e.2) :
    ∃ s, WritesAttributes as s := by
  induction as with
  | nil => exact ⟨[], .nil⟩
  | cons e as ih =>
    rw [List.forall_mem_cons] at h
    obtain ⟨t, ht⟩ := exists_writesValue h.1
    obtain ⟨s, hs⟩ := ih h.2
    exact ⟨_, .cons ht hs⟩

theorem exists_writesArguments {vs : List Value} (h : ∀ v ∈ vs, IsLiteralValue v) :
    ∃ s, WritesArguments vs s := by
  induction vs with
  | nil => exact ⟨[], .nil⟩
  | cons v vs ih =>
    rw [List.forall_mem_cons] at h
    obtain ⟨t, ht⟩ := exists_writesValue h.1
    obtain ⟨s, hs⟩ := ih h.2
    cases vs with
    | nil => exact ⟨t, .one ht⟩
    | cons w vs => exact ⟨_, .cons ht hs⟩

theorem exists_writes {d : Directive} (h : IsWritable d) : ∃ text, Writes d text := by
  cases d with
  | opening name as =>
    obtain ⟨s, hs⟩ := exists_writesAttributes fun e he => (h.2.2 e he).2
    exact ⟨_, .opening hs⟩
  | selfClosing name as =>
    obtain ⟨s, hs⟩ := exists_writesAttributes fun e he => (h.2.2 e he).2
    exact ⟨_, .selfClosing hs⟩
  | closing name => exact ⟨_, .closing⟩
  | call name vs =>
    obtain ⟨s, hs⟩ := exists_writesArguments h.2
    exact ⟨_, .call hs⟩

/-! ## What is written is in the grammar -/

theorem set_of_notMem {as : Attributes} {key : String} (h : key ∉ Ordered.keys as) (v : Value) :
    Ordered.set as key v = as ++ [(key, v)] := by
  induction as with
  | nil => rfl
  | cons e as ih =>
    rw [Ordered.keys, List.map_cons, List.mem_cons, not_or] at h
    rw [Ordered.set, if_neg (Ne.symm h.1), ih h.2, List.cons_append]

/-- Laying different new keys over a dictionary puts them after it. -/
theorem overlay_of_nodup {as bs : Attributes} (h : (Ordered.keys (as ++ bs)).Nodup) :
    Ordered.overlay as bs = as ++ bs := by
  induction bs generalizing as with
  | nil => simp [Ordered.overlay]
  | cons e bs ih =>
    have hnew : e.1 ∉ Ordered.keys as := by
      rw [Ordered.keys, List.map_append, List.nodup_append] at h
      exact fun hmem => h.2.2 _ hmem _ (by simp) rfl
    rw [Ordered.overlay, List.foldl_cons, set_of_notMem hnew, ← Ordered.overlay, ih] <;> simp [*]

theorem exists_isAttributes {as : Attributes} {s : List Char} (h : WritesAttributes as s)
    (has : ∀ e ∈ as, IsName e.1.toList ∧ IsLiteralValue e.2) :
    ∃ ls, IsAttributes ls s ∧ (∀ e ∈ ls, e.2.IsValid) ∧
      ls.map (fun e => (String.ofList e.1, e.2.meaning)) = as := by
  induction h with
  | nil => exact ⟨[], .nil, by simp, rfl⟩
  | @cons key v t s as hv _ ih =>
    rw [List.forall_mem_cons] at has
    obtain ⟨⟨hkey, hvalue⟩, has⟩ := has
    obtain ⟨l, hl, hvalid, rfl, rfl⟩ := exists_literal hvalue hv
    obtain ⟨ls, hls, hvalids, rfl⟩ := ih has
    refine ⟨(key.toList, l) :: ls, ?_, List.forall_mem_cons.2 ⟨hvalid, hvalids⟩, by simp⟩
    exact .cons (a := [' ']) (b := []) (c := []) rfl hkey rfl rfl hl hls

theorem exists_isArguments {vs : List Value} {s : List Char} (h : WritesArguments vs s)
    (hne : vs ≠ []) (hvs : ∀ v ∈ vs, IsLiteralValue v) {a : List Char}
    (ha : isBlankText a = true) :
    ∃ ls, IsArguments ls (a ++ s) ∧ (∀ l ∈ ls, l.IsValid) ∧ ls.map Literal.meaning = vs := by
  induction h generalizing a with
  | nil => exact absurd rfl hne
  | one hv =>
    obtain ⟨l, hl, hvalid, rfl, rfl⟩ := exists_literal (List.forall_mem_singleton.1 hvs) hv
    refine ⟨[l], ?_, List.forall_mem_singleton.2 hvalid, rfl⟩
    simpa using IsArguments.last ha hl isBlankText_nil
  | @cons v w t s vs hv _ ih =>
    rw [List.forall_mem_cons] at hvs
    obtain ⟨l, hl, hvalid, rfl, rfl⟩ := exists_literal hvs.1 hv
    obtain ⟨ls, hls, hvalids, hmeaning⟩ := ih (by simp) hvs.2 (a := [' ']) rfl
    refine ⟨l :: ls, ?_, List.forall_mem_cons.2 ⟨hvalid, hvalids⟩, by rw [List.map_cons, hmeaning]⟩
    exact .cons ha hl isBlankText_nil hls

theorem exists_isTag {name : String} {as : Attributes} {s : List Char} (hn : IsName name.toList)
    (h : WritesAttributes as s) (has : AreAttributes as) :
    ∃ ls, IsTag name.toList ls (name.toList ++ s) ∧ (∀ e ∈ ls, e.2.IsValid) ∧
      Stops isBlank (name.toList ++ s).reverse ∧ Form.attributes ls = as := by
  obtain ⟨ls, hls, hvalid, hmeaning⟩ := exists_isAttributes h has.2
  have hblank : (s.head?.map isBlank).getD true = true := by
    cases h with
    | nil => rfl
    | cons => exact (by decide : isBlank ' ' = true)
  have hends : EndsToken (name.toList ++ s) := by
    by_cases hs : s = []
    · rw [hs, List.append_nil]
      exact hn.endsToken
    · exact (hls.endsToken hs).append _
  have htag :=
    isTag_of_looseAttributes hn hblank (looseAttributes_of_isAttributes hls) hends.trimmed
  refine ⟨ls, htag, hvalid, hends.trimmed, ?_⟩
  rw [Form.attributes, hmeaning, overlay_of_nodup (by simpa using has.1), List.nil_append]

theorem strip_spaced {s b : List Char} (hl : ∀ t, Stops isBlank (s ++ t))
    (hr : Stops isBlank s.reverse) (hb : isBlankText b = true) : strip (' ' :: (s ++ b)) = s := by
  rw [strip, ← List.singleton_append, stripLeft_append (by decide), stripLeft_of_stops (hl b),
    stripRight_append hb, stripRight_of_stops hr]

theorem stops_name {name : String} (hn : IsName name.toList) (s t : List Char) :
    Stops isBlank (name.toList ++ s ++ t) := by
  rw [List.append_assoc]
  exact hn.stops (fun _ => isBlank_of_isNameStart) _

theorem exists_isForm {d : Directive} {text : List Char} (hd : IsWritable d) (h : Writes d text) :
    ∃ b w, text = '{' :: '%' :: (b ++ ['%', '}']) ∧ IsForm w (strip b) ∧
      (∀ l ∈ w.literals, l.IsValid) ∧ d = w.directive := by
  have hslash : Stops isBlank (['/'] : List Char) := stops_cons.2 (by decide)
  have hparen : Stops isBlank ([')'] : List Char) := stops_cons.2 (by decide)
  cases h with
  | @opening name as s hs =>
    obtain ⟨ls, htag, hvalid, htrim, rfl⟩ := exists_isTag hd.1 hs hd.2
    refine ⟨_, .opening name.toList ls, rfl, ?_, List.forall_mem_map.2 hvalid, by
      simp [Form.directive]⟩
    rw [strip_spaced (stops_name hd.1 s) htrim (by decide)]
    exact .opening htag
  | @selfClosing name as s hs =>
    obtain ⟨ls, htag, hvalid, -, rfl⟩ := exists_isTag hd.1 hs hd.2
    refine ⟨_, .selfClosing name.toList ls, rfl, ?_, List.forall_mem_map.2 hvalid, by
      simp [Form.directive]⟩
    have hstrip := strip_spaced (stops_name hd.1 (s ++ [' ', '/'])) (by simpa using hslash)
      isBlankText_nil
    rw [List.append_nil] at hstrip
    rw [hstrip, ← List.append_assoc]
    exact .selfClosing (a := [' ']) htag (by decide)
  | @closing name =>
    refine ⟨_, .closing name.toList, rfl, ?_, by simp [Form.literals], by simp [Form.directive]⟩
    have htrim : Stops isBlank ('/' :: name.toList).reverse :=
      ((IsName.endsToken hd).append ['/']).trimmed
    rw [strip_spaced (fun t => stops_cons.2 (by decide)) htrim (by decide)]
    exact .closing (a := []) rfl hd
  | @call name vs s hs =>
    have hstrip : strip (' ' :: (name.toList ++ '(' :: (s ++ [')']) ++ [' '])) =
        name.toList ++ '(' :: (s ++ [')']) :=
      strip_spaced (stops_name hd.1 _) (by simpa using hparen) (by decide)
    by_cases hvs : vs = []
    · subst hvs
      cases hs
      refine ⟨_, .call name.toList [], rfl, ?_, by simp [Form.literals], by simp [Form.directive]⟩
      rw [hstrip]
      exact .emptyCall (a := []) (s := []) hd.1 rfl rfl
    · obtain ⟨ls, hls, hvalid, rfl⟩ := exists_isArguments hs hvs hd.2 (a := []) rfl
      refine ⟨_, .call name.toList ls, rfl, ?_, hvalid, by simp [Form.directive]⟩
      rw [hstrip]
      exact .call (a := []) hd.1 rfl hls

/-- Every directive with proper names, different keys and values that have literals is written by
some text, and whatever text writes it is read, wherever it starts, as this directive over the
length of the text. -/
theorem lexAt_of_writes {d : Directive} (hd : IsWritable d) :
    (∃ text, Writes d text) ∧ ∀ text start, Writes d text →
      lexAt (String.ofList text) start =
        .ok ⟨d, start, start + text.length, String.ofList text⟩ := by
  refine ⟨exists_writes hd, fun text start h => ?_⟩
  have hlex : lex text = .ok d := lex_eq_ok_iff.2 (exists_isForm hd h)
  rw [lexAt, String.toList_ofList, hlex, String.length_ofList]
  rfl

def spelledImage : Directive :=
  .selfClosing "img" [("alt", .string "\"%\x7d/𝄞"), ("width", .int (-40))]

def spelledImageText : List Char :=
  "\x7b% img alt=\"\\\"%\x7d\\/\\ud834\\uDD1e\" width=-40 /%\x7d".toList

theorem lexAt_spelledImage : IsWritable spelledImage ∧ Writes spelledImage spelledImageText ∧
    lexAt (String.ofList spelledImageText) 7 =
      .ok ⟨spelledImage, 7, 7 + spelledImageText.length, String.ofList spelledImageText⟩ := by
  have hwritable : IsWritable spelledImage := by
    refine ⟨by decide +kernel, by decide +kernel, ?_⟩
    simp only [List.forall_mem_cons]
    have hlength : (Nat.toDigits 10 40).length ≤ maxIntegerDigits := by decide +kernel
    exact ⟨⟨by decide +kernel, trivial⟩, ⟨by decide +kernel, hlength⟩, by simp⟩
  have hclef : StringLiteral.WritesChar '𝄞' "\\ud834\\uDD1e".toList :=
    .pair (t := "\\ud834".toList) (u := "\\uDD1e".toList) (by decide)
      (.mk (.inl rfl) (.inl rfl) (.inl rfl) (.inl rfl))
      (.mk (.inr rfl) (.inr rfl) (.inl rfl) (.inl rfl))
  have hstring : StringLiteral.Writes ['"', '%', '}', '/', '𝄞']
      (['\\', '"'] ++ (['%'] ++ (['}'] ++ (['\\', '/'] ++ ("\\ud834\\uDD1e".toList ++ []))))) :=
    .cons (.short (by decide)) (.cons (.plain (by decide) (by decide) (by decide))
      (.cons (.plain (by decide) (by decide) (by decide))
        (.cons (.short (by decide)) (.cons hclef .nil))))
  have halt : WritesValue (.string "\"%\x7d/𝄞") "\"\\\"%\x7d\\/\\ud834\\uDD1e\"".toList :=
    .string (s := "\"%\x7d/𝄞") hstring
  have hwidth : WritesValue (.int (-40)) "-40".toList := .int (-40)
  have hwrites : Writes spelledImage spelledImageText :=
    .selfClosing (.cons halt (.cons hwidth .nil))
  exact ⟨hwritable, hwrites, (lexAt_of_writes hwritable).2 _ _ hwrites⟩

end Directive

end DocPress
