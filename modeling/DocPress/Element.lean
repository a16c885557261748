import DocPress.Value

/-!
# Render trees

What a resolved document consists of: named elements with attributes and
children, plain values, and sequences that stand side by side.
-/

set_option autoImplicit false

namespace DocPress

inductive Element where
  | named (name : String) (attributes : Attributes) (children : List Element)
  | value (v : Value)
  | sequence (items : List Element)
  deriving Inhabited, Repr

namespace Element

def text (s : String) : Element := .value (.string s)

def isNamed (e : Element) (names : List String) : Bool :=
  match e with
  | .named name _ _ => names.contains name
  | _ => false

def isList (e : Element) : Bool := e.isNamed ["ol", "ul"]

end Element

end DocPress
