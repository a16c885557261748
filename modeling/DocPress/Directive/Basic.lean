import DocPress.Value

/-!
# Directives

A template is Markdown with directives between braces and percent signs.
A directive opens a tag, closes one, stands for a tag without content or
calls a function. A malformed directive is a fault the reader of a template
can live with: the text stays as it is. Two faults stop the template, a
string that breaks the rules of its escapes and an integer beyond the
accepted length.
-/

set_option autoImplicit false

namespace DocPress

inductive Directive where
  | opening (name : String) (attributes : Attributes)
  | closing (name : String)
  | selfClosing (name : String) (attributes : Attributes)
  | call (name : String) (arguments : List Value)
  deriving Repr, Inhabited

namespace Directive

def isCall : Directive → Bool
  | .call _ _ => true
  | _ => false

inductive Fault where
  | notDirective (source : String)
  | invalidClosing (source : String)
  | invalidTag (source : String)
  | invalidTagName (source : String)
  | invalidAttribute (source near : String)
  | invalidArguments (source : String)
  | invalidString (literal : String)
  | longInteger
  deriving Repr, DecidableEq

/-- The faults after which the text is kept as it stands. -/
def Fault.isMalformed : Fault → Bool
  | .invalidString _ | .longInteger => false
  | _ => true

def Fault.message : Fault → String
  | .notDirective s => "Not an annotation: " ++ Text.quoted s
  | .invalidClosing s => "Invalid closing tag: " ++ Text.quoted s
  | .invalidTag s => "Invalid tag: " ++ Text.quoted s
  | .invalidTagName s => "Invalid tag name in " ++ Text.quoted s
  | .invalidAttribute s near =>
    "Invalid attribute syntax in " ++ Text.quoted s ++ " near " ++ Text.quoted near
  | .invalidArguments s => "Invalid function arguments in " ++ Text.quoted s
  | .invalidString s => "Invalid string literal: " ++ s
  | .longInteger => "Integer literal with too many digits"

/-- A directive with its place in the enclosing document, counted in characters. -/
structure Located where
  directive : Directive
  start : Int
  stop : Int
  text : String
  deriving Repr, Inhabited

end Directive

end DocPress
