import DocPress.Schema
import DocPress.Text.Blank

/-!
# Reference index

The items of a numbered list can be referred to by selectors. The index
maps a selector to the number of its item in the list, counted from one.
An item registers `.word` for each word of its class attribute and `#name`
for its identifier; inside a list with an identifier both are written after
`#list`. A later item takes a selector over from an earlier one.
-/

set_option autoImplicit false

namespace DocPress

namespace Reference

/-- The number of the item that each selector stands for. -/
abbrev Index := Ordered Nat

/-- The innermost open list: its identifier and the items met so far. -/
structure Scope where
  list : Option String
  count : Nat
  deriving Repr, DecidableEq

def label? (v : Value) : Option String :=
  match v with
  | .null => none
  | v =>
    let s := Text.strip v.display.toList
    if s.isEmpty then none else some (String.ofList s)

def qualified (list : Option String) (selector : String) : String :=
  match list with
  | some l => "#" ++ l ++ " " ++ selector
  | none => selector

/-- The selectors of an item, in the order in which they are registered. -/
def selectors (list : Option String) (attributes : Attributes) : List String :=
  let classes := match label? (Attributes.get attributes "cl") with
    | some s => (Text.words s.toList).map fun w => qualified list ("." ++ String.ofList w)
    | none => []
  let ids := match label? (Attributes.get attributes "id") with
    | some s => [qualified list ("#" ++ s)]
    | none => []
  classes ++ ids

def register (index : Index) (keys : List String) (number : Nat) : Index :=
  keys.foldl (fun index key => index.set key number) index

mutual

def collect : Option Scope → Index → Node → Option Scope × Index
  | scope, index, ⟨kind, name, attributes, children, _⟩ =>
    if kind = .tag ∧ name = some Schema.listTag then
      (scope, (collectAll (some ⟨label? (Attributes.get attributes "id"), 0⟩) index children).2)
    else if kind = .tag ∧ name = some Schema.itemTag then
      match scope with
      | some s =>
        let number := s.count + 1
        collectAll (some ⟨s.list, number⟩) (register index (selectors s.list attributes) number)
          children
      | none => collectAll none index children
    else collectAll scope index children

def collectAll : Option Scope → Index → List Node → Option Scope × Index
  | scope, index, [] => (scope, index)
  | scope, index, n :: ns =>
    let (scope, index) := collect scope index n
    collectAll scope index ns

end

def Index.ofNode (n : Node) : Index := (collect none [] n).2

def Index.merge (inherited own : Index) : Index := Ordered.overlay inherited own

/-- The number of a selector; the question mark for what is not in the index. -/
def Index.lookup (index : Index) (selector : Value) : Value :=
  match selector.text? with
  | some s =>
    match Ordered.get? index s with
    | some n => .int n
    | none => .string "?"
  | none => .string "?"

end Reference

end DocPress
