import DocPress.Text.Quoted

/-!
# Surrogates

Escapes can write surrogates, and a surrogate without its partner is a code
point that no character has. A text with one is known by its code points.
Where characters are needed, the last characters of the last private plane
stand for the surrogates, one for each.
-/

set_option autoImplicit false

namespace DocPress.Text

def isHighSurrogate (n : Nat) : Bool := 0xD800 ≤ n && n ≤ 0xDBFF

def isLowSurrogate (n : Nat) : Bool := 0xDC00 ≤ n && n ≤ 0xDFFF

def isSurrogate (n : Nat) : Bool := isHighSurrogate n || isLowSurrogate n

def pairedCode (hi lo : Nat) : Nat := 0x10000 + (hi - 0xD800) * 0x400 + (lo - 0xDC00)

def charOfCode (n : Nat) : Char :=
  if isSurrogate n then Char.ofNat (0x10F800 + (n - 0xD800)) else Char.ofNat n

/-- Whether the name of a file can hold a code point. Some surrogates stand for single bytes. -/
def isEncodable (n : Nat) : Bool := !isSurrogate n || (0xDC80 ≤ n && n ≤ 0xDCFF)

def quoteCode (quote : Char) (n : Nat) : List Char :=
  if isSurrogate n then ['\\', 'u'] ++ hexPadded 4 n else quoteChar quote (Char.ofNat n)

def quotedCodes (codes : List Nat) : String :=
  let q := quoteMark (codes.map charOfCode)
  String.ofList (q :: (codes.flatMap (quoteCode q) ++ [q]))

end DocPress.Text
