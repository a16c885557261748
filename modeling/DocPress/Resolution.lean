import DocPress.Element
import DocPress.Reference
import DocPress.Reporting

/-!
# Resolving documents

A document tree becomes a render tree: Markdown nodes turn into elements,
the built-in tags take effect, tags without a meaning leave their content in
place, and calls are replaced by the numbers they look up. How a partial
document is included is a parameter, so the rules for one document stand
apart from the search for its partials.
-/

set_option autoImplicit false

namespace DocPress.Resolution

/-- What a node becomes: one element, or the elements of a node that leaves no trace. -/
inductive Resolved where
  | one (e : Element)
  | many (es : List Element)
  deriving Inhabited, Repr

def Resolved.elements : Resolved → List Element
  | .one e => [e]
  | .many es => es

def Resolved.document : Resolved → Element
  | .one (.named name attributes children) => .named name attributes children
  | r => .named "article" [] r.elements

def containerName? : NodeKind → Option String
  | .blockquote => some "blockquote"
  | .rule => some "hr"
  | .strong => some "strong"
  | .emphasis => some "em"
  | .strike => some "s"
  | .table => some "table"
  | .tableHead => some "thead"
  | .tableBody => some "tbody"
  | .tableRow => some "tr"
  | .headerCell => some "th"
  | .dataCell => some "td"
  | .paragraph => some "p"
  | .item => some "li"
  | .hardBreak => some "br"
  | .document => some "article"
  | _ => none

def headingName (attributes : Attributes) : String :=
  match Ordered.get? attributes "level" with
  | some level => "h" ++ level.display
  | none => "h1"

def listName (attributes : Attributes) : String :=
  if (Attributes.get attributes "ordered").isTruthy then "ol" else "ul"

def codeBlock (attributes : Attributes) (content : String) : Element :=
  let language := Attributes.get attributes "language"
  let tagged : Attributes :=
    [("data-language", if language.isTruthy then language else .string "")]
  .named "pre" tagged [.named "code" tagged [.text content]]

/-! ## Tags -/

def declaredValue : Value → Value
  | .null => .null
  | v => .string v.display

def declared (tag : Schema.Tag) (attributes : Attributes) : Attributes :=
  (attributes.filter fun a => tag.attributes.contains a.1).map fun a => (a.1, declaredValue a.2)

def undeclaredNotices (tag : Schema.Tag) (attributes : Attributes) : List Notice :=
  (attributes.filter fun a => !tag.attributes.contains a.1).map fun a =>
    .undeclaredAttribute a.1 tag.name

def isGiven (attributes : Attributes) (key : String) : Bool :=
  match Attributes.get attributes key with
  | .null => false
  | .string s => s != ""
  | _ => true

def missing (tag : Schema.Tag) (attributes : Attributes) : List String :=
  (tag.required.filter fun key => !isGiven attributes key).mergeSort fun a b => decide (a ≤ b)

/-- The attributes with which a tag takes effect. `file` is the document it stands in. -/
def checkedAttributes (file : Option Path) (tag : Schema.Tag) (attributes : Attributes)
    (hasContent : Bool) : Reporting Attributes :=
  let kept := declared tag attributes
  let notices := undeclaredNotices tag attributes
  match missing tag kept with
  | [] =>
    ⟨notices ++ (if !tag.hasContent && hasContent then [.contentIgnored tag.name] else []),
      .ok kept⟩
  | names => ⟨notices, .error (.missingAttribute tag.name names file)⟩

/-! ## Calls -/

def arguments? : Value → Option (List Value)
  | .list vs => some vs
  | .string s => some (s.toList.map fun c => .string (String.ofList [c]))
  | .illFormed codes => some (codes.map fun n => .ofCodes [n])
  | .mapping es => some (es.map Prod.fst)
  | _ => none

def call (index : Reference.Index) (name : Option String) (attributes : Attributes) :
    Reporting Element :=
  if Schema.referenceFunctions.contains (name.getD "") then
    match arguments? ((Ordered.get? attributes "args").getD (.list [])) with
    | some vs => pure (.value (index.lookup (vs.head?.getD .null)))
    | none => .fail .wrongType
  else do
    .note (.unknownFunction (name.getD "None"))
    pure (.value .null)

/-! ## Nodes -/

/-- The surroundings of a document: the numbers it can look up, the file it
stands in, and how the partial of a name is included. -/
structure Scope where
  index : Reference.Index
  file : Option Path
  include_ : String → Reporting Element

/-- What an inclusion tag with a file becomes. A name that the system cannot encode stops the
compilation. -/
def includeFile (scope : Scope) (file : Value) : Reporting Element :=
  if file.isEncodable then scope.include_ file.display else .fail .unencodable

mutual

def resolve (scope : Scope) : Node → Reporting Resolved
  | ⟨kind, name, attributes, children, content⟩ =>
    match kind with
    | .text => pure (.one (.text (content.getD "")))
    | .tag =>
      match Schema.find? (name.getD "") with
      | none => .many <$> resolveAll scope children
      | some tag => do
        let kept ← checkedAttributes scope.file tag attributes (!children.isEmpty)
        if tag.name = Schema.partialTag then
          .one <$> includeFile scope (Attributes.get attributes "file")
        else
          (fun es => .one (.named tag.name kept es)) <$> resolveAll scope children
    | .function => .one <$> call scope.index name attributes
    | .heading =>
      (fun es => .one (.named (headingName attributes) [] es)) <$> resolveAll scope children
    | .list =>
      (fun es => .one (.named (listName attributes) [] es)) <$> resolveAll scope children
    | .fence => pure (.one (codeBlock attributes (content.getD "")))
    | .code => pure (.one (.named "code" [] [.text (content.getD "")]))
    | .softBreak => pure (.one (.text "\n"))
    | .link => (fun es => .one (.named "a" attributes es)) <$> resolveAll scope children
    | .image => pure (.one (.named "img" attributes []))
    | kind =>
      match containerName? kind with
      | some element => (fun es => .one (.named element [] es)) <$> resolveAll scope children
      | none => .many <$> resolveAll scope children

def resolveAll (scope : Scope) : List Node → Reporting (List Element)
  | [] => pure []
  | n :: ns => do
    let r ← resolve scope n
    let es ← resolveAll scope ns
    pure (r.elements ++ es)

end

end DocPress.Resolution
