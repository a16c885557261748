import DocPress.Directive.Literal
import DocPress.Proofs.Text.Scanning

/-!
# What names and literals are

The grammar of the two kinds of token inside a directive, told without a scanner:
a name, a string in quotes, a number, a truth value or `null`. Each scanner finds
exactly the token of its grammar, as long as what follows could not be part of it.
A literal has a value unless it is a string that breaks the rules of its escapes or
an integer of more than the accepted digits.
-/

set_option autoImplicit false

namespace DocPress

open Text

namespace StringLiteral

/-! ## Strings by the rules of their escapes -/

def isHexDigit (c : Char) : Bool :=
  c.isDigit || ('a' ≤ c && c ≤ 'f') || ('A' ≤ c && c ≤ 'F')

/-- The characters that a backslash may stand before, the `u` of code points apart. -/
def isEscapable (c : Char) : Bool := ['"', '\\', '/', 'b', 'f', 'n', 'r', 't'].contains c

/-- The inside of a string literal that keeps the rules: control characters are escaped, and
a backslash starts one of the short escapes or four hexadecimal digits. -/
inductive IsSound : List Char → Prop
  | nil : IsSound []
  | plain {c : Char} {r : List Char} : c ≠ '"' → c ≠ '\\' → 0x20 ≤ c.toNat → IsSound r →
      IsSound (c :: r)
  | short {c : Char} {r : List Char} : isEscapable c = true → IsSound r → IsSound ('\\' :: c :: r)
  | code {a b c d : Char} {r : List Char} : isHexDigit a = true → isHexDigit b = true →
      isHexDigit c = true → isHexDigit d = true → IsSound r →
      IsSound ('\\' :: 'u' :: a :: b :: c :: d :: r)

theorem hexValue?_isSome (c : Char) : (hexValue? c).isSome = isHexDigit c := by
  unfold hexValue? isHexDigit
  split
  · simp_all
  · split
    · simp_all
    · split <;> simp_all

theorem hexQuad?_isSome (a b c d : Char) : (hexQuad? a b c d).isSome = true ↔
    isHexDigit a = true ∧ isHexDigit b = true ∧ isHexDigit c = true ∧ isHexDigit d = true := by
  simp only [← hexValue?_isSome, hexQuad?]
  cases hexValue? a <;> cases hexValue? b <;> cases hexValue? c <;> cases hexValue? d <;> simp

theorem simpleEscape?_isSome (c : Char) : (simpleEscape? c).isSome = isEscapable c := by
  unfold simpleEscape? isEscapable
  split <;> simp_all

theorem isSound_short_iff {c : Char} {r : List Char} (hc : c ≠ 'u') :
    IsSound ('\\' :: c :: r) ↔ isEscapable c = true ∧ IsSound r := by
  constructor
  · intro h
    cases h with
    | plain _ hne => exact absurd rfl hne
    | short hc hr => exact ⟨hc, hr⟩
    | code => exact absurd rfl hc
  · rintro ⟨h, hr⟩
    exact .short h hr

theorem isSound_code_iff {a b c d : Char} {r : List Char} :
    IsSound ('\\' :: 'u' :: a :: b :: c :: d :: r) ↔
      (hexQuad? a b c d).isSome = true ∧ IsSound r := by
  rw [hexQuad?_isSome]
  constructor
  · intro h
    cases h with
    | plain _ hne => exact absurd rfl hne
    | short hu => exact absurd hu (by decide)
    | code ha hb hc hd hr => exact ⟨⟨ha, hb, hc, hd⟩, hr⟩
  · rintro ⟨⟨ha, hb, hc, hd⟩, hr⟩
    exact .code ha hb hc hd hr

/-- A string has a value exactly if it keeps the rules. -/
theorem decode_isSome_iff (s : List Char) : (decode s).isSome = true ↔ IsSound s := by
  fun_induction decode s with
  | case1 => simp [IsSound.nil]
  | case2 a b c d r hx => simp [isSound_code_iff, hx]
  | case3 a b c d hi hx e f g h r _ hy => simp [isSound_code_iff, hx, hy]
  | case4 a b c d hi hx e f g h r _ lo hy _ ih => simp [isSound_code_iff, hx, hy, ih]
  | case5 a b c d hi hx e f g h r _ lo hy _ ih => simp [isSound_code_iff (r := _ :: _), hx, ih]
  | case6 a b c d hi hx e f g h r _ ih => simp [isSound_code_iff (r := _ :: _), hx, ih]
  | case7 a b c d hi hx r _ ih => simp [isSound_code_iff, hx, ih]
  | case8 c r hu hx =>
    have hc : isEscapable c = false := by rw [← simpleEscape?_isSome, hx]; rfl
    simp only [Option.isSome_none, Bool.false_eq_true, false_iff]
    intro h
    cases h with
    | plain _ hne => exact hne rfl
    | short h => simp [hc] at h
    | code => exact hu _ _ _ _ _ rfl rfl
  | case9 c r hu d hx ih =>
    have hc : isEscapable c = true := by rw [← simpleEscape?_isSome, hx]; rfl
    rw [isSound_short_iff (by rintro rfl; exact absurd hc (by decide))]
    simp [hc, ih]
  | case10 c r hu hc h =>
    simp only [Option.isSome_none, Bool.false_eq_true, false_iff]
    intro hs
    cases hs with
    | plain h1 h2 h3 =>
      simp only [Bool.or_eq_true, beq_iff_eq, decide_eq_true_eq] at h
      rcases h with (h | h) | h
      · exact h1 h
      · exact h2 h
      · omega
    | short => exact hc _ _ rfl rfl
    | code => exact hc _ _ rfl rfl
  | case11 c r hu hc h ih =>
    simp only [Bool.or_eq_true, beq_iff_eq, decide_eq_true_eq, not_or] at h
    rw [Option.isSome_map, ih]
    constructor
    · exact .plain h.1.1 h.1.2 (by omega)
    · intro hs
      cases hs with
      | plain _ _ _ hr => exact hr
      | short => exact absurd rfl h.1.2
      | code => exact absurd rfl h.1.2

end StringLiteral

namespace Directive

/-! ## Names -/

/-- A letter or the underscore, then word characters and hyphens. -/
def IsName : List Char → Prop
  | [] => False
  | c :: r => isNameStart c = true ∧ ∀ d ∈ r, isNameChar d = true

instance (s : List Char) : Decidable (IsName s) :=
  match s with
  | [] => inferInstanceAs (Decidable False)
  | c :: r => decidable_of_iff ((isNameStart c && r.all isNameChar) = true) (by simp [IsName])

theorem takeName?_eq_some_iff {s name rest : List Char} :
    takeName? s = some (name, rest) ↔ IsName name ∧ Stops isNameChar rest ∧ s = name ++ rest := by
  constructor
  · intro h
    cases s with
    | nil => cases h
    | cons c r =>
      rw [takeName?] at h
      split at h
      · rename_i hc
        obtain ⟨rfl, rfl⟩ := Prod.mk.inj (Option.some.inj h)
        exact ⟨⟨hc, List.all_eq_true.1 List.all_takeWhile⟩, stops_dropWhile isNameChar r,
          by rw [List.cons_append, List.takeWhile_append_dropWhile]⟩
      · cases h
  · rintro ⟨hn, hs, rfl⟩
    cases name with
    | nil => exact hn.elim
    | cons c r =>
      rw [List.cons_append, takeName?, if_pos hn.1, takeWhile_run hn.2 hs, dropWhile_run hn.2 hs]

/-! ## Strings -/

/-- The inside of a string: characters other than the quote and the backslash, and pairs of a
backslash with any character but a line feed. -/
inductive IsInside : List Char → Prop
  | nil : IsInside []
  | plain {c : Char} {r : List Char} : c ≠ '"' → c ≠ '\\' → IsInside r → IsInside (c :: r)
  | pair {c : Char} {r : List Char} : c ≠ '\n' → IsInside r → IsInside ('\\' :: c :: r)

theorem takeString?_of_isInside {inside : List Char} (h : IsInside inside) (rest : List Char) :
    takeString? (inside ++ '"' :: rest) = some (inside, rest) := by
  induction h with
  | nil => rfl
  | plain hq hb _ ih =>
    rw [List.cons_append, takeString?, if_neg (by simpa using hb), ih]
    · rfl
    · exact hq
    · rintro c r rfl
      exact absurd rfl hb
  | pair hn _ ih =>
    rw [List.cons_append, List.cons_append, takeString?, if_neg (by simpa using hn), ih]
    rfl

theorem isInside_of_takeString? {s inside rest : List Char}
    (h : takeString? s = some (inside, rest)) : IsInside inside := by
  fun_induction takeString? s generalizing inside rest with
  | case1 | case3 | case5 => cases h
  | case2 r =>
    obtain ⟨rfl, -⟩ := Prod.mk.inj (Option.some.inj h)
    exact .nil
  | case4 c r hc ih =>
    obtain ⟨p, hp, he⟩ := Option.map_eq_some_iff.mp h
    obtain ⟨rfl, -⟩ := Prod.mk.inj he
    exact .pair (by simpa using hc) (ih hp)
  | case6 c r hq _ hb ih =>
    obtain ⟨p, hp, he⟩ := Option.map_eq_some_iff.mp h
    obtain ⟨rfl, -⟩ := Prod.mk.inj he
    exact .plain hq (by simpa using hb) (ih hp)

/-! ## Numbers -/

namespace NumberLiteral

def fractionText (n : NumberLiteral) : List Char :=
  match n.fraction with
  | none => []
  | some f => '.' :: f

def text (n : NumberLiteral) : List Char :=
  (if n.negative then ['-'] else []) ++ (n.whole ++ n.fractionText)

def IsDigits (s : List Char) : Prop := s ≠ [] ∧ ∀ c ∈ s, isDecimalDigit c = true

def IsWritten (n : NumberLiteral) : Prop :=
  IsDigits n.whole ∧ ∀ f, n.fraction = some f → IsDigits f

end NumberLiteral

open NumberLiteral

def isNumberChar (c : Char) : Bool := isDecimalDigit c || c == '.'

theorem takeSignedDigits?_of_isWritten {n : NumberLiteral} (h : n.IsWritten) {rest : List Char}
    (hr : Stops isNumberChar rest) :
    takeSignedDigits? n.negative (n.whole ++ n.fractionText ++ rest) = some (n, rest) := by
  obtain ⟨negative, whole, fraction⟩ := n
  obtain ⟨⟨hne, hw⟩, hf⟩ := h
  have hdigit : Stops isDecimalDigit rest := hr.mono fun c hc => by simp [isNumberChar, hc]
  simp only at hne hw hf ⊢
  cases fraction with
  | none =>
    have hpoint : ∀ r, rest ≠ '.' :: r := by
      rintro r rfl
      simp [isNumberChar] at hr
    simp only [fractionText, List.append_nil, takeSignedDigits?, takeWhile_run hw hdigit,
      dropWhile_run hw hdigit, List.isEmpty_iff, hne, if_false]
  | some f =>
    obtain ⟨hfne, hfd⟩ := hf f rfl
    have hstop : Stops isDecimalDigit ('.' :: (f ++ rest)) := by
      rw [stops_cons]
      decide
    simp only [fractionText, List.append_assoc, List.cons_append, takeSignedDigits?,
      takeWhile_run hw hstop, dropWhile_run hw hstop, takeWhile_run hfd hdigit,
      dropWhile_run hfd hdigit, List.isEmpty_iff, hne, hfne, if_false]

theorem isWritten_of_takeSignedDigits? {negative : Bool} {s rest : List Char} {n : NumberLiteral}
    (h : takeSignedDigits? negative s = some (n, rest)) :
    n.IsWritten ∧ n.negative = negative ∧ s = n.whole ++ n.fractionText ++ rest := by
  have hs : s = s.takeWhile isDecimalDigit ++ s.dropWhile isDecimalDigit :=
    List.takeWhile_append_dropWhile.symm
  have hw : ∀ c ∈ s.takeWhile isDecimalDigit, isDecimalDigit c = true :=
    List.all_eq_true.1 List.all_takeWhile
  simp only [takeSignedDigits?, List.isEmpty_iff] at h
  split at h
  · cases h
  · rename_i hne
    split at h
    · rename_i r hr
      split at h
      · obtain ⟨rfl, rfl⟩ := Prod.mk.inj (Option.some.inj h)
        exact ⟨⟨⟨hne, hw⟩, by simp⟩, rfl, by simp [fractionText]⟩
      · rename_i hfne
        obtain ⟨rfl, rfl⟩ := Prod.mk.inj (Option.some.inj h)
        refine ⟨⟨⟨hne, hw⟩, ?_⟩, rfl, ?_⟩
        · intro f hf
          obtain rfl := Option.some.inj hf
          exact ⟨hfne, List.all_eq_true.1 List.all_takeWhile⟩
        · rw [hr] at hs
          simpa [fractionText] using hs
    · obtain ⟨rfl, rfl⟩ := Prod.mk.inj (Option.some.inj h)
      exact ⟨⟨⟨hne, hw⟩, by simp⟩, rfl, by simp [fractionText]⟩

theorem takeNumber?_of_isWritten {n : NumberLiteral} (h : n.IsWritten) {rest : List Char}
    (hr : Stops isNumberChar rest) : takeNumber? (n.text ++ rest) = some (n, rest) := by
  have htake := takeSignedDigits?_of_isWritten h hr
  cases hneg : n.negative with
  | true =>
    rw [hneg] at htake
    simpa [text, hneg, takeNumber?] using htake
  | false =>
    rw [hneg] at htake
    obtain ⟨⟨hne, hw⟩, -⟩ := h
    obtain ⟨c, r, hc⟩ := List.exists_cons_of_ne_nil hne
    have hminus : c ≠ '-' := by
      rintro rfl
      exact absurd (hw '-' (by rw [hc]; exact List.mem_cons_self ..)) (by decide)
    have htext : n.text ++ rest = n.whole ++ n.fractionText ++ rest := by simp [text, hneg]
    rw [htext, ← htake, hc]
    simp [takeNumber?, hminus]

theorem isWritten_of_takeNumber? {s rest : List Char} {n : NumberLiteral}
    (h : takeNumber? s = some (n, rest)) : n.IsWritten ∧ s = n.text ++ rest := by
  unfold takeNumber? at h
  split at h
  · obtain ⟨hn, hneg, rfl⟩ := isWritten_of_takeSignedDigits? h
    exact ⟨hn, by simp [text, hneg]⟩
  · obtain ⟨hn, hneg, rfl⟩ := isWritten_of_takeSignedDigits? h
    exact ⟨hn, by simp [text, hneg]⟩

theorem takeNumber?_eq_none {s : List Char} (h : Stops (fun c => isDecimalDigit c || c == '-') s) :
    takeNumber? s = none := by
  have hdigit : Stops isDecimalDigit s := h.mono fun c hc => by simp [hc]
  cases s with
  | nil => rfl
  | cons c r =>
    have hminus : c ≠ '-' := by
      rintro rfl
      simp at h
    rw [takeNumber?]
    · simp [takeSignedDigits?, takeWhile_of_stops hdigit]
    · rintro r' he
      exact hminus (List.cons.inj he).1

/-! ## Literals -/

namespace Literal

def text : Literal → List Char
  | .string inside => '"' :: (inside ++ ['"'])
  | .number n => n.text
  | .yes => ['t', 'r', 'u', 'e']
  | .no => ['f', 'a', 'l', 's', 'e']
  | .null => ['n', 'u', 'l', 'l']

def IsWritten : Literal → Prop
  | .string inside => IsInside inside
  | .number n => n.IsWritten
  | _ => True

/-- A literal has a value if its string keeps the rules of escapes and its integer is not too
long. -/
def IsValid : Literal → Prop
  | .string inside => StringLiteral.IsSound inside
  | .number n => n.fraction = none → n.whole.length ≤ maxIntegerDigits
  | _ => True

def meaning : Literal → Value
  | .string inside => .ofCodes ((StringLiteral.decode inside).getD [])
  | .number ⟨negative, whole, none⟩ =>
    .int (if negative then -(digitsValue whole : Int) else (digitsValue whole : Int))
  | .number ⟨negative, whole, some fraction⟩ =>
    .float (Binary64.ofParts negative whole fraction 0)
  | .yes => .bool true
  | .no => .bool false
  | .null => .null

end Literal

theorem takeLiteral?_of_isWritten {l : Literal} (h : l.IsWritten) {rest : List Char}
    (hr : Stops isNumberChar rest) : takeLiteral? (l.text ++ rest) = some (l, rest) := by
  cases l with
  | string inside =>
    show takeLiteral? ('"' :: (inside ++ ['"']) ++ rest) = _
    rw [List.cons_append, List.append_assoc, takeLiteral?]
    simp [takeString?_of_isInside h rest]
  | number n =>
    have htake := takeNumber?_of_isWritten h hr
    show takeLiteral? (n.text ++ rest) = _
    unfold takeLiteral?
    split
    · rename_i r he
      rw [he, takeNumber?_eq_none (by rw [stops_cons]; decide)] at htake
      cases htake
    · rw [htake]
  | yes | no | null =>
    simp only [Literal.text, List.cons_append, List.nil_append, takeLiteral?]
    rw [takeNumber?_eq_none (by rw [stops_cons]; decide)]
    simp [after?]

theorem isWritten_of_takeLiteral? {s rest : List Char} {l : Literal}
    (h : takeLiteral? s = some (l, rest)) : l.IsWritten ∧ s = l.text ++ rest := by
  unfold takeLiteral? at h
  split at h
  · obtain ⟨p, hp, he⟩ := Option.map_eq_some_iff.mp h
    obtain ⟨rfl, rfl⟩ := Prod.mk.inj he
    exact ⟨isInside_of_takeString? hp, by rw [takeString?_append hp]; simp [Literal.text]⟩
  · split at h
    · rename_i n r hn
      obtain ⟨rfl, rfl⟩ := Prod.mk.inj (Option.some.inj h)
      exact isWritten_of_takeNumber? hn
    · split at h
      · rename_i r hr
        obtain ⟨rfl, rfl⟩ := Prod.mk.inj (Option.some.inj h)
        exact ⟨trivial, after?_eq_some_iff.mp hr⟩
      · split at h
        · rename_i r hr
          obtain ⟨rfl, rfl⟩ := Prod.mk.inj (Option.some.inj h)
          exact ⟨trivial, after?_eq_some_iff.mp hr⟩
        · obtain ⟨r, hr, he⟩ := Option.map_eq_some_iff.mp h
          obtain ⟨rfl, rfl⟩ := Prod.mk.inj he
          exact ⟨trivial, after?_eq_some_iff.mp hr⟩

theorem value_of_isValid {l : Literal} (h : l.IsValid) : l.value = .ok l.meaning := by
  cases l with
  | string inside =>
    have hs := (StringLiteral.decode_isSome_iff inside).2 h
    obtain ⟨s, hs⟩ := Option.isSome_iff_exists.1 hs
    simp [Literal.value, Literal.meaning, hs]
  | number n =>
    obtain ⟨negative, whole, fraction⟩ := n
    cases fraction with
    | none =>
      have hlen : ¬maxIntegerDigits < whole.length := Nat.not_lt.2 (h rfl)
      simp [Literal.value, Literal.meaning, hlen]
    | some f => rfl
  | yes | no | null => rfl

/-- A literal without a value is one of the two faults that end the reading. -/
theorem value_of_not_isValid {l : Literal} (h : ¬l.IsValid) :
    ∃ f, l.value = .error f ∧ f.isMalformed = false := by
  cases l with
  | string inside =>
    have hs : StringLiteral.decode inside = none := by
      cases hd : StringLiteral.decode inside with
      | none => rfl
      | some s => exact absurd ((StringLiteral.decode_isSome_iff inside).1 (by rw [hd]; rfl)) h
    exact ⟨_, by rw [Literal.value, hs], rfl⟩
  | number n =>
    obtain ⟨negative, whole, fraction⟩ := n
    cases fraction with
    | none =>
      have hlen : maxIntegerDigits < whole.length := Nat.not_le.1 fun hle => h fun _ => hle
      exact ⟨.longInteger, by rw [Literal.value, if_pos hlen], rfl⟩
    | some f => exact absurd (fun hf => nomatch hf) h
  | yes | no | null => exact absurd trivial h

theorem value_eq_ok_iff {l : Literal} {v : Value} :
    l.value = .ok v ↔ l.IsValid ∧ v = l.meaning := by
  by_cases h : l.IsValid
  · rw [value_of_isValid h]
    simp [h, eq_comm]
  · obtain ⟨f, hf, -⟩ := value_of_not_isValid h
    rw [hf]
    simp [h]

end Directive

end DocPress
