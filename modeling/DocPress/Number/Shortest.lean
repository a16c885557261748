import DocPress.Number.Binary64

/-!
# Shortest decimal text of a number

A finite number is written with the fewest significant digits that read
back as the same number, and among those with the nearest ones. The
interval of reals that round to the number is known exactly, so each count
of digits is decided by testing the two neighbours of the number on that
decimal grid.
-/

set_option autoImplicit false

namespace DocPress.Binary64

/-- The reals that round to a number, as `low / unit … high / unit` around `value / unit`. -/
structure Interval where
  low : Nat
  value : Nat
  high : Nat
  unit : Nat
  closed : Bool

def interval (mantissa : Nat) (exponent : Int) : Interval :=
  let below := if mantissa = Nat.pow 2 52 ∧ exponent > leastExponent then 1 else 2
  let up := if exponent < 0 then 1 else Nat.pow 2 exponent.natAbs
  let down := if exponent < 0 then Nat.pow 2 exponent.natAbs else 1
  ⟨(4 * mantissa - below) * up, 4 * mantissa * up, (4 * mantissa + 2) * up, 4 * down,
    mantissa % 2 == 0⟩

/-- The decimal point of `value / unit`: the least `k` with `value / unit < 10 ^ k`. -/
def decimalPoint (value unit : Nat) : Int :=
  if unit ≤ value then (((Nat.toDigits 10 (value / unit)).length : Nat) : Int)
  else go 400 0 value
where
  go : Nat → Nat → Nat → Int
    | 0, zeros, _ => -(zeros : Int)
    | fuel + 1, zeros, v =>
      if unit ≤ 10 * v then -(zeros : Int) else go fuel (zeros + 1) (10 * v)

/-- Whether `point · 10 ^ grid` rounds to the number. -/
def Interval.admits (i : Interval) (grid : Int) (point : Nat) : Bool :=
  let n := if grid < 0 then point * i.unit else point * i.unit * Nat.pow 10 grid.natAbs
  let s := if grid < 0 then Nat.pow 10 grid.natAbs else 1
  if i.closed then i.low * s ≤ n && n ≤ i.high * s else i.low * s < n && n < i.high * s

def Interval.pointOn? (i : Interval) (grid : Int) : Option Nat :=
  let num := if grid < 0 then i.value * Nat.pow 10 grid.natAbs else i.value
  let den := if grid < 0 then i.unit else i.unit * Nat.pow 10 grid.natAbs
  let a := num / den
  match i.admits grid a, i.admits grid (a + 1) with
  | true, true => some (roundDiv num den)
  | true, false => some a
  | false, true => some (a + 1)
  | false, false => none

/-- The shortest digits of a positive number and its decimal point: `0.d₁d₂… · 10 ^ point`. -/
def shortest (mantissa : Nat) (exponent : Int) : List Char × Int :=
  let i := interval mantissa exponent
  let k := decimalPoint i.value i.unit
  let found := (List.range 18).findSome? fun n =>
    (i.pointOn? (k - ((n : Nat) : Int) - 1)).map fun p => (n + 1, p)
  match found with
  | none => (['0'], 1)
  | some (n, p) =>
    let ds := Nat.toDigits 10 p
    let point := k + ((ds.length : Nat) : Int) - ((n : Nat) : Int)
    ((ds.reverse.dropWhile (· == '0')).reverse, point)

/-- How a number's digits are laid out: positional for decimal points in the
given range, otherwise with an exponent of at least two digits. -/
structure Layout where
  leastPoint : Int
  greatestPoint : Int
  wholeTail : List Char

/-- Numbers are positional from `0.0001` to below `10 ^ 16`, and whole ones end in `.0`. -/
def layout : Layout := ⟨-3, 16, ['.', '0']⟩

def exponentText (e : Int) : List Char :=
  let ds := Nat.toDigits 10 e.natAbs
  ['e', if e < 0 then '-' else '+'] ++ (if ds.length < 2 then '0' :: ds else ds)

def layOut (style : Layout) (digits : List Char) (point : Int) : List Char :=
  if style.leastPoint ≤ point ∧ point ≤ style.greatestPoint then
    if point ≤ 0 then ['0', '.'] ++ List.replicate point.natAbs '0' ++ digits
    else
      let whole := point.natAbs
      if digits.length ≤ whole then
        digits ++ List.replicate (whole - digits.length) '0' ++ style.wholeTail
      else digits.take whole ++ '.' :: digits.drop whole
  else
    match digits with
    | [] => []
    | [d] => d :: exponentText (point - 1)
    | d :: ds => d :: '.' :: ds ++ exponentText (point - 1)

def text : Binary64 → List Char
  | .nan => ['n', 'a', 'n']
  | .infinity negative => (if negative then ['-'] else []) ++ ['i', 'n', 'f']
  | .finite negative m e =>
    (if negative then ['-'] else []) ++
      (if m = 0 then '0' :: layout.wholeTail
      else
        let (digits, point) := shortest m e
        layOut layout digits point)

end DocPress.Binary64
