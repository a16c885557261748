import DocPress.Document.Token
import DocPress.Text.Punctuation
import DocPress.Text.Blank

/-!
# Emphasis marks

Runs of asterisks, underscores and tildes are first kept as pieces of text
with a note of which of them may open and which may close emphasis. When the
line has been read, openers and closers are paired from left to right, and
pairs of emphasis marks side by side become strong emphasis.
-/

set_option autoImplicit false

namespace DocPress.Markdown

open Text Document

/-- A piece of inline content. Special text never merges before marks are paired. -/
inductive Piece where
  | text (s : List Char)
  | special (s : List Char)
  | markup (s : List Char)
  | leaf (l : Leaf)
  | directive (d : Directive)
  | opening (c : Container)
  | closing (kind : NodeKind)
  | link (target title : List Char) (inside : List Piece)
  deriving Inhabited, Repr

structure Delimiter where
  mark : Char
  length : Nat
  piece : Nat
  partner : Option Nat
  opens : Bool
  closes : Bool
  deriving Inhabited, Repr, DecidableEq

def isMarkPunctuation (c : Char) : Bool := isAsciiPunctuation c || isPunctuation c

def isMarkSpace (c : Char) : Bool :=
  (0x2000 ≤ c.toNat && c.toNat ≤ 0x200A) ||
    [0x09, 0x0A, 0x0B, 0x0C, 0x0D, 0x20, 0xA0, 0x1680, 0x202F, 0x205F, 0x3000].contains c.toNat

def flanking (before after : Char) (splitsWords : Bool) : Bool × Bool :=
  let spaceBefore := isMarkSpace before
  let spaceAfter := isMarkSpace after
  let punctBefore := isMarkPunctuation before
  let punctAfter := isMarkPunctuation after
  let left := !(spaceAfter || (punctAfter && !(spaceBefore || punctBefore)))
  let right := !(spaceBefore || (punctBefore && !(spaceAfter || punctAfter)))
  (left && (splitsWords || !right || punctBefore), right && (splitsWords || !left || punctAfter))

/-- A run that can open and close does not pair with one when their lengths add to a multiple of
three. -/
def oddMatch (opener closer : Delimiter) : Bool :=
  (opener.closes || closer.opens) && (opener.length + closer.length) % 3 == 0 &&
    (opener.length % 3 != 0 || closer.length % 3 != 0)

/-- The state of pairing: how far to jump back from a mark, the start of the
current run, the last piece of it, and below which mark no opener is left. -/
structure Pairing where
  marks : Array Delimiter
  jumps : Array Nat
  runStart : Nat
  lastPiece : Option Nat
  bottoms : List ((Char × Nat) × Int)

namespace Pairing

def jump (p : Pairing) (i : Nat) : Nat := p.jumps.getD i 0

def mark (p : Pairing) (i : Nat) : Delimiter := p.marks.getD i default

def opener? (p : Pairing) (closer : Delimiter) (bound : Int) : Nat → Int → Option Nat
  | 0, _ => none
  | fuel + 1, i =>
    if i ≤ bound then none
    else
      let o := p.mark i.toNat
      if o.mark = closer.mark ∧ o.opens ∧ o.partner = none ∧ oddMatch o closer = false then
        some i.toNat
      else opener? p closer bound fuel (i - (p.jump i.toNat + 1))

def close (p : Pairing) (i : Nat) : Pairing :=
  let closer := p.mark i
  let continues :=
    (p.mark p.runStart).mark = closer.mark ∧ p.lastPiece.map (· + 1) = some closer.piece
  let p := { p with
    jumps := p.jumps.push 0
    runStart := if continues then p.runStart else i
    lastPiece := some closer.piece }
  if !closer.closes then p
  else
    let key := (closer.mark, (if closer.opens then 3 else 0) + closer.length % 3)
    let bound := (p.bottoms.lookup key).getD (-1)
    let first : Int := (p.runStart : Int) - (p.jump p.runStart : Int) - 1
    match p.opener? closer bound (i + 1) first with
    | some o =>
      let back := if 0 < o ∧ (p.mark (o - 1)).opens = false then p.jump (o - 1) + 1 else 0
      { p with
        marks := (p.marks.modify i fun d => { d with opens := false }).modify o fun d =>
          { d with partner := some i, closes := false }
        jumps := (p.jumps.setIfInBounds i (i - o + back)).setIfInBounds o back
        lastPiece := none }
    | none => if first = -1 then p else { p with bottoms := (key, first) :: p.bottoms }

end Pairing

def pairMarks (marks : Array Delimiter) : Array Delimiter :=
  ((List.range marks.size).foldl Pairing.close ⟨marks, #[], 0, none, []⟩).marks

def isLoneTilde : Option Piece → Bool
  | some (.text ['~']) => true
  | _ => false

/-- Turn the pairs of tildes into containers; also the single tildes before closing ones. -/
def openStrikes (marks : Array Delimiter) (ps : Array Piece) : Array Piece × List Nat :=
  marks.foldl (fun ((ps, lone) : Array Piece × List Nat) d =>
    match d.mark, d.partner with
    | '~', some e =>
      let closer := (marks.getD e default).piece
      let ps :=
        (ps.setIfInBounds d.piece (.opening .strike)).setIfInBounds closer (.closing .strike)
      (ps, if 0 < closer && isLoneTilde ps[closer - 1]? then (closer - 1) :: lone else lone)
    | _, _ => (ps, lone)) (ps, [])

def isStrikeEnd : Option Piece → Bool
  | some (.closing .strike) => true
  | _ => false

def lastStrikeEnd (ps : Array Piece) : Nat → Nat → Nat
  | 0, i => i
  | fuel + 1, i => if isStrikeEnd ps[i + 1]? then lastStrikeEnd ps fuel (i + 1) else i

/-- An odd tilde moves behind the closing ones it stands before. -/
def moveLoneTildes (ps : Array Piece) (lone : List Nat) : Array Piece :=
  lone.foldl (fun ps i => ps.swapIfInBounds i (lastStrikeEnd ps ps.size i)) ps

def applyStrikes (marks : Array Delimiter) (ps : Array Piece) : Array Piece :=
  let (ps, lone) := openStrikes marks ps
  moveLoneTildes ps lone

/-- Whether a pair and the pair around it are one pair of strong emphasis. -/
def isStrongPair (marks : Array Delimiter) (i e : Nat) : Bool :=
  let d := marks.getD i default
  let outer := marks.getD (i - 1) default
  0 < i && outer.partner == some (e + 1) && outer.mark == d.mark && outer.piece + 1 == d.piece &&
    (marks.getD (e + 1) default).piece == (marks.getD e default).piece + 1

def applyEmphasisFrom (marks : Array Delimiter) : Nat → Array Piece → Array Piece
  | 0, ps => ps
  | i + 1, ps =>
    let d := marks.getD i default
    match d.partner with
    | some e =>
      if d.mark = '*' ∨ d.mark = '_' then
        let strong := isStrongPair marks i e
        let c : Container := if strong then .strong else .emphasis
        let ps := (ps.setIfInBounds d.piece (.opening c)).setIfInBounds
          (marks.getD e default).piece (.closing c.kind)
        if strong then
          let ps := (ps.setIfInBounds (marks.getD (i - 1) default).piece (.text [])).setIfInBounds
            (marks.getD (e + 1) default).piece (.text [])
          match i with
          | 0 => ps
          | j + 1 => applyEmphasisFrom marks j ps
        else applyEmphasisFrom marks i ps
      else applyEmphasisFrom marks i ps
    | none => applyEmphasisFrom marks i ps

def resolveMarks (marks : Array Delimiter) (ps : Array Piece) : List Piece :=
  let marks := pairMarks marks
  (applyEmphasisFrom marks marks.size (applyStrikes marks ps)).toList

end DocPress.Markdown
