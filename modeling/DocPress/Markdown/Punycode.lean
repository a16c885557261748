import DocPress.Text.Blank

/-!
# Punycode

The coding of a host name label in ASCII. The characters beyond ASCII are
taken in increasing order; each place where one is to be inserted is written
as a difference in a variable-length number with an adapting bias.
-/

set_option autoImplicit false

namespace DocPress.Markdown.Punycode

def digit (d : Nat) : Char := if d < 26 then Char.ofNat (0x61 + d) else Char.ofNat (0x30 + d - 26)

def digitValue? (c : Char) : Option Nat :=
  if 'a' ≤ c ∧ c ≤ 'z' then some (c.toNat - 0x61)
  else if 'A' ≤ c ∧ c ≤ 'Z' then some (c.toNat - 0x41)
  else if c.isDigit then some (c.toNat - 0x30 + 26)
  else none

/-- The threshold of the digit at position `k`, in steps of 36. -/
def threshold (k bias : Nat) : Nat :=
  if k ≤ bias then 1 else if bias + 26 ≤ k then 26 else k - bias

theorem threshold_bounds (k bias : Nat) : 1 ≤ threshold k bias ∧ threshold k bias ≤ 26 := by
  unfold threshold
  split
  · omega
  · split <;> omega

/-- Divide by 35 until the difference is small, counting in steps of 36. -/
def settle (delta k : Nat) : Nat :=
  if 455 < delta then settle (delta / 35) (k + 36) else k + 36 * delta / (delta + 38)
termination_by delta
decreasing_by exact Nat.div_lt_self (by omega) (by omega)

/-- The bias after a difference, given how many characters are placed by then. -/
def adapt (delta placed : Nat) (first : Bool) : Nat :=
  let d := if first then delta / 700 else delta / 2
  settle (d + d / placed) 0

def differenceDigits (bias k q : Nat) : List Char :=
  let t := threshold k bias
  if q < t then [digit q]
  else digit (t + (q - t) % (36 - t)) :: differenceDigits bias (k + 36) ((q - t) / (36 - t))
termination_by q
decreasing_by
  have h := threshold_bounds k bias
  have h2 := Nat.div_le_self (q - threshold k bias) (36 - threshold k bias)
  omega

structure Encoder where
  output : List Char
  delta : Nat
  bias : Nat
  placed : Nat

def passChar (basic m : Nat) (e : Encoder) (c : Char) : Encoder :=
  if c.toNat < m then { e with delta := e.delta + 1 }
  else if c.toNat = m then
    ⟨e.output ++ differenceDigits e.bias 36 e.delta, 0,
      adapt e.delta (e.placed + 1) (e.placed == basic), e.placed + 1⟩
  else e

def placeAll (label : List Char) (basic : Nat) : Encoder → Nat → List Nat → Encoder
  | e, _, [] => e
  | e, n, m :: ms =>
    let e := label.foldl (passChar basic m) { e with delta := e.delta + (m - n) * (e.placed + 1) }
    placeAll label basic { e with delta := e.delta + 1 } (m + 1) ms

def sortedDistinct (ns : List Nat) : List Nat := (ns.mergeSort (fun a b => a ≤ b)).eraseDups

def encode (label : List Char) : List Char :=
  let basic := label.filter fun c => c.toNat < 0x80
  let others := sortedDistinct ((label.map Char.toNat).filter (0x80 ≤ ·))
  let e := placeAll label basic.length ⟨[], 0, 72, basic.length⟩ 0x80 others
  basic ++ (if basic.isEmpty then [] else ['-']) ++ e.output

/-- Read a difference: the position it leads to and the rest of the digits. -/
def takeDifference? (bias : Nat) : Nat → Nat → Nat → List Char → Option (Nat × List Char)
  | _, _, _, [] => none
  | k, weight, i, c :: r =>
    match digitValue? c with
    | none => none
    | some d =>
      let t := threshold k bias
      if d < t then some (i + d * weight, r)
      else takeDifference? bias (k + 36) (weight * (36 - t)) (i + d * weight) r

def insertAll : Nat → Nat → Nat → Nat → List Char → List Char → Option (List Char)
  | _, _, _, _, output, [] => some output
  | 0, _, _, _, _, _ :: _ => none
  | fuel + 1, bias, n, i, output, ds =>
    match takeDifference? bias 36 1 i ds with
    | none => none
    | some (j, rest) =>
      let count := output.length + 1
      let m := n + j / count
      let place := j % count
      if m ≤ 0x10FFFF then
        insertAll fuel (adapt (j - i) count (i == 0)) m (place + 1)
          (output.take place ++ Char.ofNat m :: output.drop place) rest
      else none

def decode (s : List Char) : Option (List Char) :=
  if s.any (fun c => 0x80 ≤ c.toNat) then none
  else
    let tail := (s.reverse.takeWhile (· != '-')).reverse
    let basic := s.take (s.length - tail.length - 1)
    insertAll s.length 72 0x80 0 basic tail

end DocPress.Markdown.Punycode
