import DocPress.Directive.Basic
import DocPress.Directive.StringLiteral
import DocPress.Number.Decimal

/-!
# Names and literals

The two kinds of token inside a directive. A name starts with an ASCII
letter or the underscore and goes on with word characters and hyphens. A
literal is a string in double quotes, a number, a truth value or `null`.
Each scanner returns what it took and the rest, which is shorter.
-/

set_option autoImplicit false

namespace DocPress.Directive

open Text

def isNameStart (c : Char) : Bool := c.isAlpha || c == '_'

def isNameChar (c : Char) : Bool := isWord c || c == '-'

def takeName? : List Char → Option (List Char × List Char)
  | [] => none
  | c :: r =>
    if isNameStart c then some (c :: r.takeWhile isNameChar, r.dropWhile isNameChar) else none

theorem takeName?_append {s name rest : List Char} (h : takeName? s = some (name, rest)) :
    s = name ++ rest := by
  cases s with
  | nil => cases h
  | cons c r =>
    simp only [takeName?] at h
    split at h
    · cases h
      simp
    · cases h

theorem takeName?_length {s name rest : List Char} (h : takeName? s = some (name, rest)) :
    rest.length < s.length := by
  cases s with
  | nil => cases h
  | cons c r =>
    simp only [takeName?] at h
    split at h
    · cases h
      have := (r.dropWhile_sublist isNameChar).length_le
      simp only [List.length_cons]
      omega
    · cases h

def takeString? : List Char → Option (List Char × List Char)
  | [] => none
  | '"' :: r => some ([], r)
  | '\\' :: c :: r =>
    if c == '\n' then none else (takeString? r).map fun p => ('\\' :: c :: p.1, p.2)
  | c :: r => if c == '\\' then none else (takeString? r).map fun p => (c :: p.1, p.2)

theorem takeString?_append {s inside rest : List Char} (h : takeString? s = some (inside, rest)) :
    s = inside ++ '"' :: rest := by
  fun_induction takeString? s generalizing inside rest with
  | case1 => cases h
  | case2 r => cases h; rfl
  | case3 c r hc => cases h
  | case4 c r hc ih =>
    obtain ⟨p, hp, he⟩ := Option.map_eq_some_iff.mp h
    cases he
    simp [ih hp]
  | case5 c r _ _ hc => cases h
  | case6 c r _ _ hc ih =>
    obtain ⟨p, hp, he⟩ := Option.map_eq_some_iff.mp h
    cases he
    simp [ih hp]

structure NumberLiteral where
  negative : Bool
  whole : List Char
  fraction : Option (List Char)
  deriving Repr, DecidableEq

def takeSignedDigits? (negative : Bool) (s : List Char) : Option (NumberLiteral × List Char) :=
  let whole := s.takeWhile isDecimalDigit
  let rest := s.dropWhile isDecimalDigit
  if whole.isEmpty then none
  else
    match rest with
    | '.' :: r =>
      let fraction := r.takeWhile isDecimalDigit
      if fraction.isEmpty then some (⟨negative, whole, none⟩, rest)
      else some (⟨negative, whole, some fraction⟩, r.dropWhile isDecimalDigit)
    | _ => some (⟨negative, whole, none⟩, rest)

def takeNumber? : List Char → Option (NumberLiteral × List Char)
  | '-' :: r => takeSignedDigits? true r
  | r => takeSignedDigits? false r

inductive Literal where
  | string (inside : List Char)
  | number (n : NumberLiteral)
  | yes
  | no
  | null
  deriving Repr, DecidableEq

def after? : List Char → List Char → Option (List Char)
  | [], s => some s
  | _ :: _, [] => none
  | c :: r, d :: s => if c = d then after? r s else none

theorem after?_eq_some_iff {p s rest : List Char} : after? p s = some rest ↔ s = p ++ rest := by
  induction p generalizing s with
  | nil => simp [after?]
  | cons c r ih =>
    cases s with
    | nil => simp [after?]
    | cons d s =>
      by_cases h : c = d
      · simp [after?, h, ih]
      · simp [after?, h, Ne.symm h]

def takeLiteral? (s : List Char) : Option (Literal × List Char) :=
  match s with
  | '"' :: r => (takeString? r).map fun p => (.string p.1, p.2)
  | _ =>
    match takeNumber? s with
    | some (n, rest) => some (.number n, rest)
    | none =>
      match after? ['t', 'r', 'u', 'e'] s with
      | some rest => some (.yes, rest)
      | none =>
        match after? ['f', 'a', 'l', 's', 'e'] s with
        | some rest => some (.no, rest)
        | none => (after? ['n', 'u', 'l', 'l'] s).map fun rest => (.null, rest)

theorem dropWhile_length_le (p : Char → Bool) (s : List Char) :
    (s.dropWhile p).length ≤ s.length := (s.dropWhile_sublist p).length_le

theorem takeSignedDigits?_length {negative : Bool} {s : List Char} {n : NumberLiteral}
    {rest : List Char} (h : takeSignedDigits? negative s = some (n, rest)) :
    rest.length < s.length := by
  have hw : (s.takeWhile isDecimalDigit).length + (s.dropWhile isDecimalDigit).length =
      s.length := by
    rw [← List.length_append, List.takeWhile_append_dropWhile]
  have hpos : (s.takeWhile isDecimalDigit).isEmpty = false →
      0 < (s.takeWhile isDecimalDigit).length := by
    cases s.takeWhile isDecimalDigit <;> simp
  simp only [takeSignedDigits?] at h
  split at h
  · cases h
  · rename_i hne
    have hp := hpos (by simpa using hne)
    split at h
    · rename_i r hr
      split at h
      · cases h
        omega
      · cases h
        have := dropWhile_length_le isDecimalDigit r
        rw [hr] at hw
        simp only [List.length_cons] at hw
        omega
    · cases h
      omega

theorem takeLiteral?_length {s : List Char} {l : Literal} {rest : List Char}
    (h : takeLiteral? s = some (l, rest)) : rest.length < s.length := by
  unfold takeLiteral? at h
  split at h
  · obtain ⟨p, hp, he⟩ := Option.map_eq_some_iff.mp h
    cases he
    have := congrArg List.length (takeString?_append hp)
    simp only [List.length_cons, List.length_append] at this ⊢
    omega
  · split at h
    · rename_i n r hn
      cases h
      unfold takeNumber? at hn
      split at hn
      · have := takeSignedDigits?_length hn
        simp only [List.length_cons]
        omega
      · exact takeSignedDigits?_length hn
    · split at h
      · rename_i r hr
        cases h
        rw [after?_eq_some_iff.mp hr, List.length_append]
        simp only [List.length_cons]
        omega
      · split at h
        · rename_i r hr
          cases h
          rw [after?_eq_some_iff.mp hr, List.length_append]
          simp only [List.length_cons]
          omega
        · obtain ⟨r, hr, he⟩ := Option.map_eq_some_iff.mp h
          cases he
          rw [after?_eq_some_iff.mp hr, List.length_append]
          simp only [List.length_cons]
          omega

def maxIntegerDigits : Nat := 4300

def Literal.value : Literal → Except Fault Value
  | .string inside =>
    match StringLiteral.decode inside with
    | some codes => .ok (.ofCodes codes)
    | none => .error (.invalidString (String.ofList ('"' :: (inside ++ ['"']))))
  | .number ⟨negative, whole, none⟩ =>
    if maxIntegerDigits < whole.length then .error .longInteger
    else .ok (.int (if negative then -(digitsValue whole : Int) else (digitsValue whole : Int)))
  | .number ⟨negative, whole, some fraction⟩ =>
    .ok (.float (Binary64.ofParts negative whole fraction 0))
  | .yes => .ok (.bool true)
  | .no => .ok (.bool false)
  | .null => .ok .null

end DocPress.Directive
