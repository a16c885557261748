import DocPress.Yaml.Scalar
import DocPress.Yaml.Tree

/-!
# Documents

A document is one tree, with directives before it that say what the handles
of its tags stand for. Its value is found from the front: a name stands for
the part read last under it. A mapping takes over the entries of those that
it merges; its own entries win. Main function: `load`, the value that a text
writes.
-/

set_option autoImplicit false

namespace DocPress.Yaml

abbrev Handles := List (List Char × List Char)

structure Document where
  handles : Handles
  root : Tree
  deriving Repr

namespace Document

/-! ## The parts of a text -/

def standardTag : String := "tag:yaml.org,2002:"

def defaultHandles : Handles := [(['!'], ['!']), (['!', '!'], standardTag.toList)]

def directives : Bool → Handles → List Token → Except Fault (Handles × List Token)
  | versionSeen, handles, .directive d :: ts =>
    match d with
    | .version major _ =>
      if versionSeen || major != 1 then .error .badDirective else directives true handles ts
    | .handle name replacement =>
      if (handles.lookup name).isSome then .error .badDirective
      else directives versionSeen (handles ++ [(name, replacement)]) ts
    | .unknown => directives versionSeen handles ts
  | _, handles, ts => .ok (handles, ts)

def isOpening : Token → Bool
  | .directive _ | .documentStart => true
  | _ => false

def isOutside (t : Token) : Bool := isOpening t || t == .documentEnd

def rootTree (ts : List Token) : Except Fault (Tree × List Token) :=
  Tree.node .block (4 * ts.length + 4) ts

def first (ts : List Token) : Except Fault (Document × List Token) :=
  if ts.head?.any isOpening then do
    let (handles, ts) ← directives false [] ts
    match ts with
    | .documentStart :: ts =>
      let (t, ts) ← if ts.head?.all isOutside then pure (Tree.empty, ts) else rootTree ts
      pure (⟨handles ++ defaultHandles, t⟩, ts)
    | _ => throw .unexpectedToken
  else (rootTree ts).map fun (t, ts) => (⟨defaultHandles, t⟩, ts)

def ofTokens? (ts : List Token) : Except Fault (Option Document) :=
  if ts.isEmpty then .ok none
  else do
    let (d, rest) ← first ts
    match rest with
    | [] | [.documentEnd] => pure (some d)
    | _ => throw .severalDocuments

/-! ## The value of a tree -/

/-- The values of the names met so far, the newest first. -/
abbrev Names := List (String × Value)

/-- What a name stands for inside its own part: a mapping, whatever it holds. -/
def unfinished : Value := .mapping [(.null, .null)]

def tagName (handles : Handles) (t : Tag) : Except Fault String :=
  match t.handle with
  | none => .ok (String.ofList t.suffix)
  | some h =>
    match handles.lookup h with
    | some replacement => .ok (String.ofList (replacement ++ t.suffix))
    | none => .error .undefinedHandle

/-- The name of a part's tag; the tag `!` says nothing. -/
def tagOf (handles : Handles) (p : Properties) : Except Fault (Option String) :=
  match p.tag with
  | none => .ok none
  | some t => (tagName handles t).map fun n => if n = "!" then none else some n

def kindOfTag (name : String) : Except Fault Kind :=
  if name = standardTag ++ "str" then .ok .text
  else if name = standardTag ++ "null" then .ok .null
  else if name = standardTag ++ "bool" then .ok .bool
  else if name = standardTag ++ "int" then .ok .int
  else if name = standardTag ++ "float" then .ok .float
  else if name = standardTag ++ "timestamp" then .ok .date
  else if name = standardTag ++ "merge" then .ok .merge
  else .error .unknownTag

/-- The kind of a text: by its tag, or by its form when it is plain. A text
whose tag says nothing counts as plain. -/
def kindOfText (handles : Handles) (p : Properties) (s : List Char) (isPlain : Bool) :
    Except Fault Kind := do
  match ← tagOf handles p with
  | some name => kindOfTag name
  | none => pure (if isPlain || p.tag.isSome then Scalar.kind s else .text)

def checkTag (handles : Handles) (p : Properties) (own : String) : Except Fault Unit := do
  match ← tagOf handles p with
  | none => pure ()
  | some name => if name = standardTag ++ own then pure () else throw .unknownTag

def isMergeKey (handles : Handles) : Tree → Bool
  | .text p s isPlain => (kindOfText handles p s isPlain).toOption == some .merge
  | _ => false

/-- A key that stands for itself although it is no text by its form. -/
def literalKey? (handles : Handles) : Tree → Option (Properties × String)
  | .text p s isPlain =>
    if (kindOfText handles p s isPlain).toOption == some .value then some (p, String.ofList s)
    else none
  | _ => none

def isMapping : Value → Bool
  | .mapping _ => true
  | _ => false

def name (p : Properties) (v : Value) (names : Names) : Names :=
  match p.anchor with
  | some a => (a, v) :: names
  | none => names

def keyForm : Value → String
  | .bool b => if b then "1" else "0"
  | v => v.quoted

def setEntry : List (Value × Value) → Value × Value → List (Value × Value)
  | [], e => [e]
  | d :: ds, e => if keyForm d.1 = keyForm e.1 then (d.1, e.2) :: ds else d :: setEntry ds e

def hasKey (es : List (Value × Value)) (k : Value) : Bool :=
  es.any fun e => keyForm e.1 == keyForm k

def hasDuplicate : List (Value × Value) → Bool
  | [] => false
  | e :: es => hasKey es e.1 || hasDuplicate es

/-- The entries that merging a value brings; of several mappings the first wins. -/
def mergedEntries : Value → Except Fault (List (Value × Value))
  | .mapping es => .ok es
  | .list vs => do
    let ess ← vs.mapM fun v =>
      match v with
      | .mapping es => .ok es
      | _ => .error Fault.notMergeable
    pure ess.reverse.flatten
  | _ => .error .notMergeable

def mappingOf (lax : Bool) (merged own : List (Value × Value)) :
    Except Fault (List (Value × Value)) :=
  if merged.isEmpty then
    if !lax && hasDuplicate own then .error .duplicateKey else .ok (own.foldl setEntry [])
  else .ok ((merged ++ own).foldl setEntry [])

mutual

/-- The value of a tree. A mapping that is only merged may give a key twice. -/
def value (handles : Handles) (lax : Bool) : Names → Tree → Except Fault (Value × Names)
  | names, .alias a =>
    match names.lookup a with
    | some v => .ok (v, names)
    | none => .error .undefinedAlias
  | names, .text p s isPlain => do
    let v ← Scalar.read (← kindOfText handles p s isPlain) s
    pure (v, name p v names)
  | names, .sequence p items => do
    checkTag handles p "seq"
    let (vs, names) ← values handles lax (name p unfinished names) items
    pure (.list vs, name p (.list vs) names)
  | names, .mapping p es => do
    checkTag handles p "map"
    let (merged, own, names) ← entries handles (name p unfinished names) es
    let es ← mappingOf lax merged own
    pure (.mapping es, name p (.mapping es) names)

def values (handles : Handles) (lax : Bool) :
    Names → List Tree → Except Fault (List Value × Names)
  | names, [] => .ok ([], names)
  | names, t :: ts => do
    let (v, names) ← value handles lax names t
    let (vs, names) ← values handles lax names ts
    pure (v :: vs, names)

def entries (handles : Handles) :
    Names → List (Tree × Tree) → Except Fault (List (Value × Value) × List (Value × Value) × Names)
  | names, [] => .ok ([], [], names)
  | names, (k, t) :: es => do
    if isMergeKey handles k then
      let (v, names) ← value handles true names t
      let merged ← mergedEntries v
      let (more, own, names) ← entries handles names es
      if !merged.isEmpty && es.any fun e => isMergeKey handles e.1 then throw .duplicateKey
      pure (merged ++ more, own, names)
    else
      let (key, names) ←
        match literalKey? handles k with
        | some (p, s) => pure (Value.string s, name p (.string s) names)
        | none => value handles false names k
      if isMapping key then throw .mappingAsKey
      let (v, names) ← value handles false names t
      let (merged, own, names) ← entries handles names es
      pure (merged, (key, v) :: own, names)

end

end Document

def load (s : String) : Except Fault Value := do
  if !s.toList.all isPrintable then throw .unprintable
  match ← Document.ofTokens? (← tokens s.toList) with
  | none => pure .null
  | some d => (Document.value d.handles false [] d.root).map (·.1)

end DocPress.Yaml
