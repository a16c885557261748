import DocPress.Number.Shortest
import DocPress.Ordered
import DocPress.Text.Surrogate

/-!
# Values

What an attribute, an argument or a configuration entry may hold. A value
counts as present or empty, and it has two printed forms: `display`, which
shows a text as it is, and `quoted`, which shows it in quotes; inside a list
or a mapping every value is quoted. A text with a surrogate that has no
partner is a value of its own kind.
-/

set_option autoImplicit false

namespace DocPress

inductive Value where
  | null
  | bool (b : Bool)
  | int (n : Int)
  | float (x : Binary64)
  | string (s : String)
  | illFormed (codes : List Nat)
  | date (text : String)
  | list (items : List Value)
  | mapping (entries : List (Value × Value))
  deriving Repr, Inhabited

/-- Attributes in the order they were written; each key occurs once. -/
abbrev Attributes := Ordered Value

namespace Value

/-- Zero, nothing, false and what holds no element are empty. -/
def isTruthy : Value → Bool
  | .null => false
  | .bool b => b
  | .int n => n != 0
  | .float x => !x.isZero
  | .string s => s != ""
  | .illFormed _ | .date _ => true
  | .list items => !items.isEmpty
  | .mapping entries => !entries.isEmpty

def intText (n : Int) : String :=
  (if n < 0 then "-" else "") ++ String.ofList (Nat.toDigits 10 n.natAbs)

mutual

def quoted : Value → String
  | .null => "None"
  | .bool b => if b then "True" else "False"
  | .int n => intText n
  | .float x => String.ofList x.text
  | .string s => Text.quoted s
  | .illFormed codes => Text.quotedCodes codes
  | .date s => s
  | .list items => "[" ++ quotedItems items ++ "]"
  | .mapping entries => "\x7b" ++ quotedEntries entries ++ "\x7d"

def quotedItems : List Value → String
  | [] => ""
  | [v] => v.quoted
  | v :: vs => v.quoted ++ ", " ++ quotedItems vs

def quotedEntries : List (Value × Value) → String
  | [] => ""
  | [(k, v)] => k.quoted ++ ": " ++ v.quoted
  | (k, v) :: es => k.quoted ++ ": " ++ v.quoted ++ ", " ++ quotedEntries es

end

def text? : Value → Option String
  | .string s => some s
  | .illFormed codes => some (String.ofList (codes.map Text.charOfCode))
  | _ => none

def display (v : Value) : String := v.text?.getD v.quoted

@[simp] theorem text?_string (s : String) : (string s).text? = some s := rfl

@[simp] theorem display_string (s : String) : (string s).display = s := rfl

def ofCodes (codes : List Nat) : Value :=
  if codes.any Text.isSurrogate then .illFormed codes
  else .string (String.ofList (codes.map Char.ofNat))

def isEncodable : Value → Bool
  | .illFormed codes => codes.all Text.isEncodable
  | _ => true

end Value

/-- The value of a key; an absent key has the value `null`. -/
def Attributes.get (a : Attributes) (key : String) : Value := (Ordered.get? a key).getD .null

end DocPress
