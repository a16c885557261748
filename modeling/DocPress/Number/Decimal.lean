import DocPress.Number.Binary64
import DocPress.Text.Word

/-!
# Reading decimal numbers

The digits of every script count. A number is an optional sign, digits with
an optional point among them and an optional exponent; the value is the
binary64 number nearest to what is written.
-/

set_option autoImplicit false

namespace DocPress

open Text

def digitsValue (s : List Char) : Nat :=
  s.foldl (fun n c => 10 * n + (digitValue? c).getD 0) 0

def takeSign : List Char → Bool × List Char
  | '-' :: r => (true, r)
  | '+' :: r => (false, r)
  | r => (false, r)

namespace Binary64

def ofParts (negative : Bool) (whole fraction : List Char) (exponent : Int) : Binary64 :=
  ofDecimal negative (digitsValue (whole ++ fraction)) (exponent - ((fraction.length : Nat) : Int))

def exponent? : List Char → Option Int
  | [] => some 0
  | c :: r =>
    if c == 'e' || c == 'E' then
      let (negative, ds) := takeSign r
      if ds.isEmpty || !ds.all isDecimalDigit then none
      else some (if negative then -(digitsValue ds : Int) else (digitsValue ds : Int))
    else none

def ofText? (s : List Char) : Option Binary64 :=
  let (negative, r) := takeSign s
  if r == ['i', 'n', 'f'] then some (.infinity negative)
  else if r == ['n', 'a', 'n'] then some .nan
  else
    let whole := r.takeWhile isDecimalDigit
    let r := r.dropWhile isDecimalDigit
    let fraction := match r with
      | '.' :: r => r.takeWhile isDecimalDigit
      | _ => []
    let r := match r with
      | '.' :: r => r.dropWhile isDecimalDigit
      | r => r
    if whole.isEmpty && fraction.isEmpty then none
    else (exponent? r).map (ofParts negative whole fraction)

end Binary64

end DocPress
