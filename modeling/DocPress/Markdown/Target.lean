import DocPress.Markdown.Entity
import DocPress.Text.Punctuation

/-!
# Link targets and titles

A link names its target in angle brackets or as a run without spaces and
with balanced parentheses, and may give a title in quotes or parentheses.
Backslash escapes and character references inside are resolved once the
extent of the text is known.
-/

set_option autoImplicit false

namespace DocPress.Markdown

open Text

def unescape (s : List Char) : List Char :=
  match s with
  | [] => []
  | '\\' :: c :: r =>
    if isAsciiPunctuation c then c :: unescape r else '\\' :: unescape (c :: r)
  | '&' :: r =>
    match _h : Entity.takeTarget? r with
    | some (t, rest) => t ++ unescape rest
    | none => '&' :: unescape r
  | c :: r => c :: unescape r
termination_by s.length
decreasing_by
  · simp only [List.length_cons]
    omega
  · simp
  · have := Entity.takeTarget?_length _h
    simp only [List.length_cons]
    omega
  · simp
  · simp

def takeAngleTarget? : List Char → Option (List Char × List Char)
  | [] => none
  | '>' :: r => some ([], r)
  | '\n' :: _ => none
  | '<' :: _ => none
  | '\\' :: c :: r => (takeAngleTarget? r).map fun p => ('\\' :: c :: p.1, p.2)
  | c :: r => (takeAngleTarget? r).map fun p => (c :: p.1, p.2)

def maxTargetDepth : Nat := 32

/-- The run of a bare target at a depth of open parentheses, and what follows it. -/
def takeBareTarget? : Nat → List Char → Option (List Char × List Char)
  | depth, [] => if depth = 0 then some ([], []) else none
  | depth, '\\' :: c :: r =>
    if c = ' ' then (if depth = 0 then some ([], '\\' :: c :: r) else none)
    else (takeBareTarget? depth r).map fun p => ('\\' :: c :: p.1, p.2)
  | depth, c :: r =>
    if c.toNat ≤ 0x20 || c.toNat == 0x7F then
      if depth = 0 then some ([], c :: r) else none
    else if c = '(' then
      if maxTargetDepth < depth + 1 then none
      else (takeBareTarget? (depth + 1) r).map fun p => (c :: p.1, p.2)
    else if c = ')' then
      if depth = 0 then some ([], c :: r)
      else (takeBareTarget? (depth - 1) r).map fun p => (c :: p.1, p.2)
    else (takeBareTarget? depth r).map fun p => (c :: p.1, p.2)

def takeTarget? (s : List Char) : Option (List Char × List Char) :=
  match s with
  | '<' :: r => (takeAngleTarget? r).map fun p => (unescape p.1, p.2)
  | _ =>
    match takeBareTarget? 0 s with
    | some ([], _) => none
    | some (raw, rest) => some (unescape raw, rest)
    | none => none

/-- How far a title goes in a text: to its closing mark, beyond the text, or nowhere. -/
inductive TitleScan where
  | closed (title rest : List Char)
  | unfinished (title : List Char)
  | refused (rest : List Char)
  deriving Repr, DecidableEq

def scanTitle (mark : Char) : List Char → TitleScan
  | [] => .unfinished []
  | '\\' :: c :: r =>
    match scanTitle mark r with
    | .closed t rest => .closed ('\\' :: c :: t) rest
    | .unfinished t => .unfinished ('\\' :: c :: t)
    | .refused rest => .refused rest
  | c :: r =>
    if c = mark then .closed [] r
    else if c = '(' ∧ mark = ')' then .refused (c :: r)
    else
      match scanTitle mark r with
      | .closed t rest => .closed (c :: t) rest
      | .unfinished t => .unfinished (c :: t)
      | .refused rest => .refused rest

def titleMark? : Char → Option Char
  | '"' => some '"'
  | '\'' => some '\''
  | '(' => some ')'
  | _ => none

def takeTitle? (s : List Char) : Option (List Char × List Char) :=
  match s with
  | [] => none
  | c :: r =>
    match titleMark? c with
    | none => none
    | some mark =>
      match scanTitle mark r with
      | .closed t rest => some (unescape t, rest)
      | _ => none

end DocPress.Markdown
