/-!
# Binary64 numbers in exact arithmetic

A finite number is a sign, a mantissa and an exponent of two, so rounding,
printing and comparing are exact calculations on natural numbers. A finite
number built here is canonical: its mantissa has 53 bits unless its exponent
is the least one, so equal numbers are equal values.
-/

set_option autoImplicit false

namespace DocPress

/-- A binary64 number; a finite one is `± mantissa · 2 ^ exponent`. -/
inductive Binary64 where
  | nan
  | infinity (negative : Bool)
  | finite (negative : Bool) (mantissa : Nat) (exponent : Int)
  deriving DecidableEq, Repr

namespace Binary64

def leastExponent : Int := -1074
def greatestExponent : Int := 971

/-- The quotient rounded to the nearest integer, a tie to the even one. -/
def roundDiv (num den : Nat) : Nat :=
  let q := num / den
  let r := num % den
  if den < 2 * r || (2 * r == den && q % 2 == 1) then q + 1 else q

theorem roundDiv_near (num den : Nat) (h : 0 < den) :
    2 * (roundDiv num den * den) ≤ 2 * num + den ∧
      2 * num ≤ 2 * (roundDiv num den * den) + den := by
  have hd := Nat.div_add_mod num den
  have hm := Nat.mod_lt num h
  have hc : num / den * den = den * (num / den) := Nat.mul_comm ..
  unfold roundDiv
  simp only
  split
  · rename_i hr
    simp only [Bool.or_eq_true, decide_eq_true_eq, Bool.and_eq_true, beq_iff_eq] at hr
    rw [Nat.add_mul, Nat.one_mul, hc]
    omega
  · rename_i hr
    simp only [Bool.or_eq_true, decide_eq_true_eq, Bool.and_eq_true, beq_iff_eq, not_or] at hr
    rw [hc]
    omega

/-- `num / den · 2 ^ (-exponent)` as a quotient of natural numbers. -/
def scaled (num den : Nat) (exponent : Int) : Nat × Nat :=
  if exponent < 0 then (num * Nat.pow 2 exponent.natAbs, den)
  else (num, den * Nat.pow 2 exponent.natAbs)

/-- The number nearest to `± num / den`, a tie to the even mantissa. -/
def ofRatio (negative : Bool) (num den : Nat) : Binary64 :=
  if num = 0 then .finite negative 0 leastExponent
  else
    let guess := max ((num.log2 : Int) - (den.log2 : Int) - 52) leastExponent
    let (n, d) := scaled num den guess
    let e := if n < d * Nat.pow 2 52 then max (guess - 1) leastExponent else guess
    let (n, d) := scaled num den e
    let m := roundDiv n d
    let (m, e) := if m = Nat.pow 2 53 then (Nat.pow 2 52, e + 1) else (m, e)
    if e > greatestExponent then .infinity negative else .finite negative m e

def ofDecimal (negative : Bool) (digits : Nat) (exponent : Int) : Binary64 :=
  if digits = 0 then .finite negative 0 leastExponent
  else if exponent < 0 then
    if exponent + (digits.log2 : Int) < -800 then .finite negative 0 leastExponent
    else ofRatio negative digits (Nat.pow 10 exponent.natAbs)
  else if exponent > 400 then .infinity negative
  else ofRatio negative (digits * Nat.pow 10 exponent.natAbs) 1

def ofInt? (n : Int) : Option Binary64 :=
  match ofRatio (n < 0) n.natAbs 1 with
  | .finite s m e => some (.finite s m e)
  | _ => none

def divNat : Binary64 → Nat → Binary64
  | .finite s m e, n =>
    if e < 0 then ofRatio s m (n * Nat.pow 2 e.natAbs) else ofRatio s (m * Nat.pow 2 e.natAbs) n
  | x, _ => x

def isZero : Binary64 → Bool
  | .finite _ 0 _ => true
  | _ => false

def isPositive : Binary64 → Bool
  | .infinity negative => !negative
  | .finite negative m _ => !negative && m != 0
  | .nan => false

end Binary64

end DocPress
