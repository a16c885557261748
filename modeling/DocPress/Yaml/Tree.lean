import DocPress.Yaml.Token

/-!
# Trees

The tokens of a document make a tree of texts, sequences and mappings. Each
part may have a name and a tag; an alias stands for the part of a name.
Where a value is left out, an empty plain text stands.
-/

set_option autoImplicit false

namespace DocPress.Yaml

structure Properties where
  anchor : Option String
  tag : Option Tag
  deriving Repr

def Properties.isNone (p : Properties) : Bool := p.anchor.isNone && p.tag.isNone

inductive Tree where
  | text (properties : Properties) (s : List Char) (isPlain : Bool)
  | sequence (properties : Properties) (items : List Tree)
  | mapping (properties : Properties) (entries : List (Tree × Tree))
  | alias (name : String)
  deriving Repr, Inhabited

namespace Tree

def empty : Tree := .text ⟨none, none⟩ [] true

def properties : List Token → Properties × List Token
  | .anchor a :: .tag t :: ts => (⟨some a, some t⟩, ts)
  | .tag t :: .anchor a :: ts => (⟨some a, some t⟩, ts)
  | .anchor a :: ts => (⟨some a, none⟩, ts)
  | .tag t :: ts => (⟨none, some t⟩, ts)
  | ts => (⟨none, none⟩, ts)

def starts (options : List Token) (ts : List Token) : Bool := ts.head?.any options.contains

/-- Where a part may be: directly in a sequence or a document, after an
indicator of a mapping, or inside brackets. -/
inductive Place where
  | block
  | entry
  | flow
  deriving DecidableEq, Repr

mutual

def node (place : Place) : Nat → List Token → Except Fault (Tree × List Token)
  | 0, _ => .error .unexpectedToken
  | _ + 1, .alias name :: ts => .ok (.alias name, ts)
  | fuel + 1, ts =>
    let (p, ts) := properties ts
    match ts with
    | .text s isPlain :: ts => .ok (.text p s isPlain, ts)
    | .flowSequence :: ts => do
      let (items, ts) ← flowItems fuel true ts
      pure (.sequence p items, ts)
    | .flowMapping :: ts => do
      let (entries, ts) ← flowEntries fuel true ts
      pure (.mapping p entries, ts)
    | ts =>
      match place, ts with
      | .entry, .item :: _ => do
        let (items, ts) ← unindentedItems fuel ts
        pure (.sequence p items, ts)
      | .block, .blockSequence :: ts | .entry, .blockSequence :: ts => do
        let (items, ts) ← blockItems fuel ts
        pure (.sequence p items, ts)
      | .block, .blockMapping :: ts | .entry, .blockMapping :: ts => do
        let (entries, ts) ← blockEntries fuel ts
        pure (.mapping p entries, ts)
      | _, ts => if p.isNone then .error .unexpectedToken else .ok (.text p [] true, ts)

def nodeOr (place : Place) (before : List Token) :
    Nat → List Token → Except Fault (Tree × List Token)
  | 0, _ => .error .unexpectedToken
  | fuel + 1, ts => if starts before ts then .ok (.empty, ts) else node place fuel ts

def valueOr (place : Place) (before : List Token) :
    Nat → List Token → Except Fault (Tree × List Token)
  | 0, _ => .error .unexpectedToken
  | fuel + 1, .value :: ts => nodeOr place before fuel ts
  | _ + 1, ts => .ok (.empty, ts)

def blockItems : Nat → List Token → Except Fault (List Tree × List Token)
  | 0, _ => .error .unexpectedToken
  | fuel + 1, .item :: ts => do
    let (t, ts) ← nodeOr .block [.item, .blockEnd] fuel ts
    let (more, ts) ← blockItems fuel ts
    pure (t :: more, ts)
  | _ + 1, .blockEnd :: ts => .ok ([], ts)
  | _ + 1, _ => .error .unexpectedToken

/-- The items of a sequence at the indent of the mapping that holds it. -/
def unindentedItems : Nat → List Token → Except Fault (List Tree × List Token)
  | 0, _ => .error .unexpectedToken
  | fuel + 1, .item :: ts => do
    let (t, ts) ← nodeOr .block [.item, .key, .value, .blockEnd] fuel ts
    let (more, ts) ← unindentedItems fuel ts
    pure (t :: more, ts)
  | _ + 1, ts => .ok ([], ts)

def blockEntries : Nat → List Token → Except Fault (List (Tree × Tree) × List Token)
  | 0, _ => .error .unexpectedToken
  | fuel + 1, .key :: ts => do
    let (k, ts) ← nodeOr .entry [.key, .value, .blockEnd] fuel ts
    let (v, ts) ← valueOr .entry [.key, .value, .blockEnd] fuel ts
    let (more, ts) ← blockEntries fuel ts
    pure ((k, v) :: more, ts)
  | fuel + 1, .value :: ts => do
    let (v, ts) ← nodeOr .entry [.key, .value, .blockEnd] fuel ts
    let (more, ts) ← blockEntries fuel ts
    pure ((.empty, v) :: more, ts)
  | _ + 1, .blockEnd :: ts => .ok ([], ts)
  | _ + 1, _ => .error .unexpectedToken

/-- The items of a sequence in brackets; a key makes an item a mapping. -/
def flowItems : Nat → Bool → List Token → Except Fault (List Tree × List Token)
  | 0, _, _ => .error .unexpectedToken
  | _ + 1, _, .flowSequenceEnd :: ts => .ok ([], ts)
  | fuel + 1, isFirst, ts => do
    let ts ← match isFirst, ts with
      | true, ts => pure ts
      | false, .comma :: ts => pure ts
      | false, _ => throw .unexpectedToken
    match ts with
    | .flowSequenceEnd :: ts => pure ([], ts)
    | .key :: ts =>
      let (k, ts) ← nodeOr .flow [.value, .comma, .flowSequenceEnd] fuel ts
      let (v, ts) ← valueOr .flow [.comma, .flowSequenceEnd] fuel ts
      let (more, ts) ← flowItems fuel false ts
      pure (.mapping ⟨none, none⟩ [(k, v)] :: more, ts)
    | ts =>
      let (t, ts) ← node .flow fuel ts
      let (more, ts) ← flowItems fuel false ts
      pure (t :: more, ts)

/-- The entries of a mapping in braces; a key may stand without a value. -/
def flowEntries : Nat → Bool → List Token → Except Fault (List (Tree × Tree) × List Token)
  | 0, _, _ => .error .unexpectedToken
  | _ + 1, _, .flowMappingEnd :: ts => .ok ([], ts)
  | fuel + 1, isFirst, ts => do
    let ts ← match isFirst, ts with
      | true, ts => pure ts
      | false, .comma :: ts => pure ts
      | false, _ => throw .unexpectedToken
    match ts with
    | .flowMappingEnd :: ts => pure ([], ts)
    | .key :: ts =>
      let (k, ts) ← nodeOr .flow [.value, .comma, .flowMappingEnd] fuel ts
      let (v, ts) ← valueOr .flow [.comma, .flowMappingEnd] fuel ts
      let (more, ts) ← flowEntries fuel false ts
      pure ((k, v) :: more, ts)
    | .value :: ts =>
      let (v, ts) ← nodeOr .flow [.comma, .flowMappingEnd] fuel ts
      let (more, ts) ← flowEntries fuel false ts
      pure ((.empty, v) :: more, ts)
    | ts =>
      let (k, ts) ← node .flow fuel ts
      let (more, ts) ← flowEntries fuel false ts
      pure ((k, .empty) :: more, ts)

end

end Tree

end DocPress.Yaml
