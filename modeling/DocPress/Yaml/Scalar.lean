import DocPress.Number.Decimal
import DocPress.Value
import DocPress.Yaml.Basic

/-!
# Plain texts that are values

A plain text without a tag is a truth value, a number, a calendar date,
nothing, or else a text; which one is told by its form alone. A leading zero
does not change the base of a number, and underscores between digits count
for nothing.
-/

set_option autoImplicit false

namespace DocPress.Yaml

inductive Kind where
  | text
  | null
  | bool
  | int
  | float
  | date
  | merge
  | value
  deriving DecidableEq, Repr

namespace Scalar

def isDigitOrUnderscore (c : Char) : Bool := c.isDigit || c == '_'

def isOneOf (words : List String) (s : List Char) : Bool := words.contains (String.ofList s)

def trueWords : List String := ["true", "True", "TRUE"]

def falseWords : List String := ["false", "False", "FALSE"]

def nullWords : List String := ["", "~", "null", "Null", "NULL"]

def isRun (p : Char → Bool) (s : List Char) : Bool := !s.isEmpty && s.all p

/-! ## Numbers -/

def isExponent (signed : Bool) : List Char → Bool
  | e :: r =>
    (e == 'e' || e == 'E') &&
      (match r with
        | '+' :: ds | '-' :: ds => isRun Char.isDigit ds
        | ds => !signed && isRun Char.isDigit ds)
  | [] => false

/-- The form of a number with a point or an exponent, after its sign. -/
def isFraction (s : List Char) : Bool :=
  match s with
  | '.' :: r =>
    let ds := r.takeWhile isDigitOrUnderscore
    let e := r.dropWhile isDigitOrUnderscore
    isOneOf ["inf", "Inf", "INF"] r || (!ds.isEmpty && (e.isEmpty || isExponent true e))
  | c :: _ =>
    c.isDigit &&
      (match s.dropWhile isDigitOrUnderscore with
        | '.' :: r =>
          let e := r.dropWhile isDigitOrUnderscore
          e.isEmpty || isExponent false e
        | e => isExponent false e)
  | [] => false

def isFloat (s : List Char) : Bool :=
  isOneOf [".nan", ".NaN", ".NAN"] s || isFraction (takeSign s).2

def based? : List Char → Option (Nat × List Char)
  | '0' :: 'b' :: r => some (2, r)
  | '0' :: 'o' :: r => some (8, r)
  | '0' :: 'x' :: r => some (16, r)
  | _ => none

def digitIn? (base : Nat) (c : Char) : Option Nat :=
  let v := if c.isDigit then some (c.toNat - 0x30)
    else if 'a' ≤ c ∧ c ≤ 'f' then some (c.toNat - 0x57)
    else if 'A' ≤ c ∧ c ≤ 'F' then some (c.toNat - 0x37)
    else none
  v.filter (· < base)

def isDigitIn (base : Nat) (c : Char) : Bool := c == '_' || (digitIn? base c).isSome

def isInt (s : List Char) : Bool :=
  s.head? != some '_' &&
    (isRun isDigitOrUnderscore (takeSign s).2 ||
      (match based? (takeSign s).2 with
        | some (base, ds) => isRun (isDigitIn base) ds
        | none => false))

def valueIn (base : Nat) (ds : List Char) : Nat :=
  ds.foldl (fun n d => base * n + (digitIn? base d).getD 0) 0

def digitLimit : Nat := 4300

def readInt (s : List Char) : Except Fault Int :=
  let (negative, r) := takeSign (s.filter (· != '_'))
  let (base, ds) := (based? r).getD (10, r)
  if ds.isEmpty || !ds.all (isDigitIn base) || (base == 10 && digitLimit < ds.length) then
    .error .impossibleValue
  else .ok (if negative then -(valueIn base ds : Int) else (valueIn base ds : Int))

def readFloat (s : List Char) : Except Fault Binary64 :=
  let s := (s.filter (· != '_')).map Char.toLower
  let (negative, r) := takeSign s
  if r == ".inf".toList then .ok (.infinity negative)
  else if s == ".nan".toList then .ok .nan
  else
    match Binary64.ofText? s with
    | some x => .ok x
    | none => .error .impossibleValue

/-! ## Dates -/

def digits? (least greatest : Nat) (s : List Char) : Option (Nat × List Char) :=
  let ds := (s.take greatest).takeWhile Char.isDigit
  if ds.length < least then none else some (valueIn 10 ds, s.drop ds.length)

def after? (c : Char) (s : List Char) : Option (List Char) :=
  if s.head? = some c then some s.tail else none

def day? (least : Nat) (s : List Char) : Option ((Nat × Nat × Nat) × List Char) := do
  let (year, s) ← digits? 4 4 s
  let (month, s) ← digits? least 2 (← after? '-' s)
  let (day, s) ← digits? least 2 (← after? '-' s)
  pure ((year, month, day), s)

def isZone (s : List Char) : Bool :=
  match s.dropWhile isGap with
  | [] => s.isEmpty
  | ['Z'] => true
  | c :: r =>
    (c == '+' || c == '-') &&
      (match digits? 1 2 r with
        | some (_, []) => true
        | some (_, ':' :: r) => (digits? 2 2 r).any (·.2.isEmpty)
        | _ => false)

def time? (s : List Char) : Option ((Nat × Nat × Nat) × List Char) := do
  let (hour, s) ← digits? 1 2 s
  let (minute, s) ← digits? 2 2 (← after? ':' s)
  let (second, s) ← digits? 2 2 (← after? ':' s)
  let s := match s with
    | '.' :: r => r.dropWhile Char.isDigit
    | s => s
  pure ((hour, minute, second), s)

def afterDay? (s : List Char) : Option (List Char) :=
  match s with
  | 'T' :: r | 't' :: r => some r
  | s => if s.head?.any isGap then some (s.dropWhile isGap) else none

def dateTime? (s : List Char) : Option ((Nat × Nat × Nat) × (Nat × Nat × Nat)) := do
  let (d, s) ← day? 1 s
  let (t, s) ← time? (← afterDay? s)
  if isZone s then some (d, t) else none

def isDate (s : List Char) : Bool :=
  (day? 2 s).any (·.2.isEmpty) || (dateTime? s).isSome

def daysIn (year month : Nat) : Nat :=
  if month = 2 then
    if year % 4 = 0 ∧ (year % 100 ≠ 0 ∨ year % 400 = 0) then 29 else 28
  else if month = 4 ∨ month = 6 ∨ month = 9 ∨ month = 11 then 30
  else 31

def isDay (d : Nat × Nat × Nat) : Bool :=
  0 < d.1 && 0 < d.2.1 && d.2.1 ≤ 12 && 0 < d.2.2 && d.2.2 ≤ daysIn d.1 d.2.1

def isTime (t : Nat × Nat × Nat) : Bool := t.1 < 24 && t.2.1 < 60 && t.2.2 < 60

def readDate (s : List Char) : Except Fault Value :=
  let possible (b : Bool) : Except Fault Value :=
    if b then .ok (.date (String.ofList s)) else .error .impossibleValue
  match day? 1 s, dateTime? s with
  | some (d, []), _ => possible (isDay d)
  | _, some (d, t) => possible (isDay d && isTime t)
  | _, none => .error .wrongContent

/-! ## Kinds -/

def kind (s : List Char) : Kind :=
  if isOneOf (trueWords ++ falseWords) s then .bool
  else if isFloat s then .float
  else if isInt s then .int
  else if s == ['<', '<'] then .merge
  else if isOneOf nullWords s then .null
  else if isDate s then .date
  else if s == ['='] then .value
  else .text

def readBool (s : List Char) : Except Fault Bool :=
  match String.ofList (s.map Char.toLower) with
  | "true" | "yes" | "on" => .ok true
  | "false" | "no" | "off" => .ok false
  | _ => .error .impossibleValue

def read (k : Kind) (s : List Char) : Except Fault Value :=
  match k with
  | .text => .ok (.string (String.ofList s))
  | .null => .ok .null
  | .bool => (readBool s).map .bool
  | .int => (readInt s).map .int
  | .float => (readFloat s).map .float
  | .date => readDate s
  | .merge | .value => .error .unknownTag

end Scalar

end DocPress.Yaml
