import DocPress.Directive.Literal
import DocPress.Text.Blank

/-!
# Reading a directive

The text between the delimiters, trimmed, is a closing tag when it starts
with a slash, a call when a name is followed by arguments in parentheses,
and otherwise a tag, without content when it ends with a slash. Values are
evaluated from left to right as they are met, so of two faults the first
one is reported.
-/

set_option autoImplicit false

namespace DocPress.Directive

open Text

/-- The attributes written in a text; a key given twice keeps its first place. -/
def attributes (source : List Char) (s : List Char) (found : Attributes) :
    Except Fault Attributes :=
  if isBlankText s then .ok found
  else
    let fault := Fault.invalidAttribute (String.ofList source) (String.ofList (strip s))
    match _hk : takeName? (stripLeft s) with
    | none => .error fault
    | some (key, afterKey) =>
      match _he : stripLeft afterKey with
      | '=' :: afterSign =>
        match _hl : takeLiteral? (stripLeft afterSign) with
        | none => .error fault
        | some (literal, rest) =>
          match literal.value with
          | .error e => .error e
          | .ok v => attributes source rest (found.set (String.ofList key) v)
      | _ => .error fault
termination_by s.length
decreasing_by
  have h1 := takeLiteral?_length _hl
  have h2 := dropWhile_length_le isBlank afterSign
  have h3 := congrArg List.length _he
  have h4 := dropWhile_length_le isBlank afterKey
  have h5 := takeName?_length _hk
  have h6 := dropWhile_length_le isBlank s
  simp only [stripLeft, List.length_cons] at h1 h2 h3 h4 h5 h6
  omega

/-- The arguments written in a text, separated by commas; the last may have one too. -/
def arguments (source : List Char) (s : List Char) : Except Fault (List Value) :=
  if s.isEmpty then .ok []
  else
    match _hl : takeLiteral? (stripLeft s) with
    | none => .error (.invalidArguments (String.ofList source))
    | some (literal, afterLiteral) =>
      match _hs : stripLeft afterLiteral with
      | [] =>
        match literal.value with
        | .error e => .error e
        | .ok v => .ok [v]
      | ',' :: rest =>
        match literal.value with
        | .error e => .error e
        | .ok v =>
          match arguments source rest with
          | .error e => .error e
          | .ok vs => .ok (v :: vs)
      | _ => .error (.invalidArguments (String.ofList source))
termination_by s.length
decreasing_by
  have h1 := takeLiteral?_length _hl
  have h2 := dropWhile_length_le isBlank s
  have h3 := congrArg List.length _hs
  have h4 := dropWhile_length_le isBlank afterLiteral
  simp only [stripLeft, List.length_cons] at h1 h2 h3 h4
  omega

def body? (source : List Char) : Option (List Char) :=
  match source with
  | '{' :: '%' :: r =>
    match r.reverse with
    | '}' :: '%' :: b => some b.reverse
    | _ => none
  | _ => none

def call? (body : List Char) : Option (List Char × List Char) :=
  match takeName? body with
  | none => none
  | some (name, rest) =>
    match stripLeft rest with
    | '(' :: r =>
      match r.reverse with
      | ')' :: b => some (name, b.reverse)
      | _ => none
    | _ => none

/-- A tag without content ends with a slash; the text before it. -/
def selfClosing? (body : List Char) : Option (List Char) :=
  match body.reverse with
  | '/' :: b => some (stripRight b.reverse)
  | _ => none

def tag (source body : List Char) : Except Fault (String × Attributes) :=
  match takeName? body with
  | none => .error (.invalidTag (String.ofList source))
  | some (name, rest) =>
    if (rest.head?.map isBlank).getD true then
      match attributes source rest [] with
      | .error e => .error e
      | .ok attrs => .ok (String.ofList name, attrs)
    else .error (.invalidTagName (String.ofList source))

def lex (source : List Char) : Except Fault Directive :=
  match (body? source).map strip with
  | none => .error (.notDirective (String.ofList source))
  | some ('/' :: r) =>
    match takeName? (strip r) with
    | some (name, []) => .ok (.closing (String.ofList name))
    | _ => .error (.invalidClosing (String.ofList source))
  | some body =>
    match call? body with
    | some (name, inside) =>
      if isBlankText inside then .ok (.call (String.ofList name) [])
      else
        match arguments source inside with
        | .error e => .error e
        | .ok vs => .ok (.call (String.ofList name) vs)
    | none =>
      match selfClosing? body with
      | some b =>
        match tag source b with
        | .error e => .error e
        | .ok (name, attrs) => .ok (.selfClosing name attrs)
      | none =>
        match tag source body with
        | .error e => .error e
        | .ok (name, attrs) => .ok (.opening name attrs)

def lexAt (source : String) (start : Int) : Except Fault Located :=
  (lex source.toList).map fun a => ⟨a, start, start + source.length, source⟩

end DocPress.Directive
