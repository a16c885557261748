import DocPress.Markdown.Url
import DocPress.Text.Punctuation

/-!
# Markup in Markdown

The forms of HTML that Markdown passes through: tags, comments, processing
instructions, declarations and character data sections inside a line, and
the seven conditions under which a line starts a block of markup.
-/

set_option autoImplicit false

namespace DocPress.Markdown.Html

open Text

def afterFirst? (p : List Char) : List Char → Option (List Char)
  | [] => if p.isEmpty then some [] else none
  | c :: r => if p.isPrefixOf (c :: r) then some ((c :: r).drop p.length) else afterFirst? p r

def holds (p s : List Char) : Bool := (afterFirst? p s).isSome

def isTagNameChar (c : Char) : Bool := c.isAlphanum || c == '-'

def isAttributeStart (c : Char) : Bool := c.isAlpha || c == '_' || c == ':'

def isAttributeChar (c : Char) : Bool :=
  c.isAlphanum || c == ':' || c == '.' || c == '_' || c == '-'

def isBareValueChar (c : Char) : Bool :=
  c.toNat > 0x20 && !(['"', '\'', '=', '<', '>', '\x60'].contains c)

def bareValueEnds : List Char → List (List Char)
  | [] => []
  | c :: r => if isBareValueChar c then bareValueEnds r ++ [r] else []

def quotedValueEnds (s : List Char) : List (List Char) :=
  match s with
  | '\'' :: r =>
    match r.dropWhile (· != '\'') with
    | _ :: rest => [rest]
    | [] => []
  | '"' :: r =>
    match r.dropWhile (· != '"') with
    | _ :: rest => [rest]
    | [] => []
  | _ => []

/-- What may follow a run of white space at the start of a text, the whole run taken first. -/
def blankEnds : List Char → List (List Char)
  | [] => [[]]
  | c :: r => if isBlank c then blankEnds r ++ [c :: r] else [c :: r]

def valueEnds (s : List Char) : List (List Char) :=
  match s.dropWhile isBlank with
  | '=' :: r => (blankEnds r).flatMap fun v => bareValueEnds v ++ quotedValueEnds v
  | _ => []

/-- What follows the attributes and the end of an opening tag; every way to
read the values is tried, the longest first. -/
def afterAttributes? : Nat → List Char → Option (List Char)
  | 0, _ => none
  | fuel + 1, s =>
    let ending := match s.dropWhile isBlank with
      | '/' :: '>' :: r => some r
      | '>' :: r => some r
      | _ => none
    match s with
    | [] => none
    | b :: _ =>
      if isBlank b then
        match s.dropWhile isBlank with
        | [] => none
        | c :: r =>
          if isAttributeStart c then
            let afterName := r.dropWhile isAttributeChar
            match (valueEnds afterName).findSome? (afterAttributes? fuel) with
            | some rest => some rest
            | none => (afterAttributes? fuel afterName).orElse fun _ => ending
          else ending
      else ending

def afterOpenTag? (s : List Char) : Option (List Char) :=
  match s with
  | '<' :: c :: r =>
    if c.isAlpha then afterAttributes? (r.length + 1) (r.dropWhile isTagNameChar) else none
  | _ => none

def afterCloseTag? (s : List Char) : Option (List Char) :=
  match s with
  | '<' :: '/' :: c :: r =>
    if c.isAlpha then
      match (r.dropWhile isTagNameChar).dropWhile isBlank with
      | '>' :: rest => some rest
      | _ => none
    else none
  | _ => none

/-- The end of a comment, from inside it. Hyphens pair up from the left, so a
run of three before the bracket does not end the comment. -/
def afterCommentBody? : List Char → Option (List Char)
  | '-' :: '-' :: '>' :: r => some r
  | '-' :: '-' :: _ :: r => afterCommentBody? r
  | '-' :: '-' :: [] => none
  | '-' :: _ :: r => afterCommentBody? r
  | '-' :: [] => none
  | _ :: r => afterCommentBody? r
  | [] => none

def afterComment? (s : List Char) : Option (List Char) :=
  match s with
  | '<' :: '!' :: '-' :: '-' :: '>' :: r => some r
  | '<' :: '!' :: '-' :: '-' :: '-' :: '>' :: r => some r
  | '<' :: '!' :: '-' :: '-' :: r => afterCommentBody? r
  | _ => none

def afterInstruction? (s : List Char) : Option (List Char) :=
  match s with
  | '<' :: '?' :: r => afterFirst? ['?', '>'] r
  | _ => none

def afterDeclaration? (s : List Char) : Option (List Char) :=
  match s with
  | '<' :: '!' :: c :: r => if c.isAlpha then afterFirst? ['>'] r else none
  | _ => none

def dataStart : List Char := "<![CDATA[".toList

def afterData? (s : List Char) : Option (List Char) :=
  if dataStart.isPrefixOf s then afterFirst? [']', ']', '>'] (s.drop dataStart.length) else none

def afterMarkup? (s : List Char) : Option (List Char) :=
  [afterOpenTag?, afterCloseTag?, afterComment?, afterInstruction?, afterDeclaration?,
    afterData?].findSome? fun f => f s

/-- The tags that start a block of markup which a blank line ends. -/
def blockTags : List (List Char) :=
  ["address", "article", "aside", "base", "basefont", "blockquote", "body", "caption", "center",
    "col", "colgroup", "dd", "details", "dialog", "dir", "div", "dl", "dt", "fieldset",
    "figcaption", "figure", "footer", "form", "frame", "frameset", "h1", "h2", "h3", "h4", "h5",
    "h6", "head", "header", "hr", "html", "iframe", "legend", "li", "link", "main", "menu",
    "menuitem", "nav", "noframes", "ol", "optgroup", "option", "p", "param", "search", "section",
    "summary", "table", "tbody", "td", "tfoot", "th", "thead", "title", "tr", "track",
    "ul"].map String.toList

def rawTags : List (List Char) := ["script", "pre", "style", "textarea"].map String.toList

def afterName? (name : List Char) (s : List Char) : Option (List Char) :=
  if (s.take name.length).map Url.foldLetter = name then some (s.drop name.length) else none

inductive BlockKind where
  | raw
  | upTo (mark : List Char)
  | upToBlank
  | tagLine
  deriving Repr, DecidableEq

def rawFollows (s : List Char) : Bool :=
  match s with
  | [] => true
  | c :: _ => isBlank c || c == '>'

def blockFollows (s : List Char) : Bool :=
  match s with
  | [] => true
  | '/' :: '>' :: _ => true
  | c :: _ => isBlank c || c == '>'

def afterAny (names : List (List Char)) (follows : List Char → Bool) (s : List Char) : Bool :=
  names.any fun name => ((afterName? name s).map follows).getD false

def blockKind? (s : List Char) : Option BlockKind :=
  match s with
  | '<' :: r =>
    if afterAny rawTags rawFollows r then some .raw
    else if ['!', '-', '-'].isPrefixOf r then some (.upTo ['-', '-', '>'])
    else if r.head? = some '?' then some (.upTo ['?', '>'])
    else if r.head? = some '!' && ((r.drop 1).head?.map Char.isUpper).getD false then
      some (.upTo ['>'])
    else if dataStart.isPrefixOf s then some (.upTo [']', ']', '>'])
    else if afterAny blockTags blockFollows (if r.head? = some '/' then r.drop 1 else r) then
      some .upToBlank
    else
      match (afterOpenTag? s).orElse fun _ => afterCloseTag? s with
      | some rest => if isBlankText rest then some .tagLine else none
      | none => none
  | _ => none

/-- A single tag on its line does not end a paragraph. -/
def BlockKind.interrupts : BlockKind → Bool
  | .tagLine => false
  | _ => true

def hasRawEnd : List Char → Bool
  | [] => false
  | c :: r =>
    (c == '<' && r.head? == some '/' &&
      rawTags.any fun name => ((afterName? name (r.drop 1)).map fun t => t.head? == some '>').getD
        false) || hasRawEnd r

def BlockKind.endsAt (k : BlockKind) (s : List Char) : Bool :=
  match k with
  | .raw => hasRawEnd s
  | .upTo mark => holds mark s
  | .upToBlank | .tagLine => s.isEmpty

end DocPress.Markdown.Html
