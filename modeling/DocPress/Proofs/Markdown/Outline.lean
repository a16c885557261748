import DocPress.Proofs.Markdown.Marker

/-!
# Outlines

An outline is paragraphs of one phrase each and, after them, lists whose items are phrases with
lists below them. Lists that stand side by side are bulleted and numbered in turn, so that none goes
on with the one before it. The lines of an outline can be written in many ways: with any bullet,
any numbers after the first, any room behind a mark, and further in as far as it stays below.
-/

set_option autoImplicit false

namespace DocPress.Markdown

/-! ## Outlines and their blocks -/

mutual

/-- The items of a list, each with the lists below it, the first of which is numbered or not. -/
inductive Entries where
  | last (text : Phrase) (ordered : Bool) (below : Lists)
  | more (text : Phrase) (ordered : Bool) (below : Lists) (others : Entries)

/-- Lists side by side, numbered and not in turn. -/
inductive Lists where
  | none
  | list (items : Entries) (others : Lists)

end

structure Outline where
  paragraphs : List Phrase
  /-- Whether the first of the lists is numbered. -/
  ordered : Bool
  lists : Lists

def startOf (ordered : Bool) : Option Nat := if ordered then some 1 else none

mutual

def Entries.blocks : Entries → List (List Block)
  | .last t ordered below => [.paragraph t.text :: below.blocks ordered]
  | .more t ordered below others => (.paragraph t.text :: below.blocks ordered) :: others.blocks

def Lists.blocks (ordered : Bool) : Lists → List Block
  | .none => []
  | .list items others => .list (startOf ordered) true items.blocks :: others.blocks !ordered

end

def Outline.blocks (o : Outline) : List Block :=
  (o.paragraphs.map fun t => .paragraph t.text) ++ o.lists.blocks o.ordered

mutual

/-- How many lists lie in each other, the one of the items included. -/
def Entries.depth : Entries → Nat
  | .last _ _ below => below.depth + 1
  | .more _ _ below others => max (below.depth + 1) others.depth

def Lists.depth : Lists → Nat
  | .none => 0
  | .list items others => max items.depth others.depth

end

/-! ## The ways to write an outline -/

mutual

/-- The lines of the items of a list, whose marks stand at a column. The lists below an item start
less than four columns behind the start of its text, all at one column. -/
inductive Entries.Written : Nat → Marker → Entries → List Line → Prop
  | last {k j : Nat} {m : Marker} {t : Phrase} {ordered ended : Bool} {below : Lists}
      {ls : List Line} : m.column k ≤ j → j ≤ m.column k + 3 → below.Written j ordered ls →
      Entries.Written k m (.last t ordered below) (m.line k t ended :: ls)
  | more {k j : Nat} {m m' : Marker} {t : Phrase} {ordered ended : Bool} {below : Lists}
      {others : Entries} {ls more : List Line} : m.column k ≤ j → j ≤ m.column k + 3 →
      below.Written j ordered ls → m.joins m' = true → others.Written k m' more →
      Entries.Written k m (.more t ordered below others) (m.line k t ended :: (ls ++ more))

inductive Lists.Written : Nat → Bool → Lists → List Line → Prop
  | none {k : Nat} {ordered : Bool} : Lists.Written k ordered .none []
  | list {k : Nat} {ordered : Bool} {m : Marker} {items : Entries} {others : Lists}
      {ls more : List Line} : m.number = startOf ordered → items.Written k m ls →
      others.Written k (!ordered) more →
      Lists.Written k ordered (.list items others) (ls ++ more)

end

/-- The lines of a document's lists: blank lines may follow each of them. -/
inductive Lists.Spread (k : Nat) : Bool → Lists → List Line → Prop
  | none {ordered : Bool} : Lists.Spread k ordered .none []
  | list {ordered : Bool} {m : Marker} {items : Entries} {others : Lists}
      {ls blanks more : List Line} : m.number = startOf ordered → items.Written k m ls →
      (∀ l ∈ blanks, l.isEmpty = true) → others.Spread k (!ordered) more →
      Lists.Spread k ordered (.list items others) (ls ++ (blanks ++ more))

/-- The lines of an outline. A blank line follows each paragraph, and more may stand anywhere
between two blocks. -/
inductive Outline.Written : Outline → List Line → Prop
  | blank {o : Outline} {l : Line} {ls : List Line} : l.isEmpty = true → o.Written ls →
      Outline.Written o (l :: ls)
  | paragraph {t : Phrase} {ts : List Phrase} {ordered ended : Bool} {lists : Lists} {k : Nat}
      {ls : List Line} : k ≤ 3 → Block.EndsThere ls → Outline.Written ⟨ts, ordered, lists⟩ ls →
      Outline.Written ⟨t :: ts, ordered, lists⟩
        (.ofText (List.replicate k ' ' ++ t.text) ended :: ls)
  | lists {ordered : Bool} {lists : Lists} {k : Nat} {ls : List Line} : k ≤ 3 →
      lists.Spread k ordered ls → Outline.Written ⟨[], ordered, lists⟩ ls

/-! ## Their lines -/

theorem Entries.Written.exists_cons {items : Entries} {k : Nat} {m : Marker} {ls : List Line}
    (h : items.Written k m ls) : ∃ t ended more, ls = m.line k t ended :: more := by
  cases h <;> exact ⟨_, _, _, rfl⟩

theorem Lists.Written.exists_cons {lists : Lists} {k : Nat} {ordered : Bool} {ls : List Line}
    (h : lists.Written k ordered ls) (hne : lists ≠ .none) :
    ∃ (m : Marker) (t : Phrase) (ended : Bool) (more : List Line),
      ls = m.line k t ended :: more ∧ m.number = startOf ordered := by
  cases h with
  | none => exact absurd rfl hne
  | list hstart hitems _ =>
    obtain ⟨t, ended, more, rfl⟩ := hitems.exists_cons
    exact ⟨_, t, ended, _, rfl, hstart⟩

mutual

theorem Entries.Written.isEmpty : ∀ {items : Entries} {k : Nat} {m : Marker} {ls : List Line},
    items.Written k m ls → ∀ l ∈ ls, l.isEmpty = false
  | .last _ _ _, _, _, _, .last _ _ hbelow =>
    List.forall_mem_cons.2 ⟨Marker.isEmpty_line .., hbelow.isEmpty⟩
  | .more _ _ _ _, _, _, _, .more _ _ hbelow _ hothers =>
    List.forall_mem_cons.2 ⟨Marker.isEmpty_line ..,
      List.forall_mem_append.2 ⟨hbelow.isEmpty, hothers.isEmpty⟩⟩

/-- No line of nested lists is blank. -/
theorem Lists.Written.isEmpty : ∀ {lists : Lists} {k : Nat} {ordered : Bool} {ls : List Line},
    lists.Written k ordered ls → ∀ l ∈ ls, l.isEmpty = false
  | .none, _, _, _, .none => nofun
  | .list _ _, _, _, _, .list _ hitems hothers =>
    List.forall_mem_append.2 ⟨hitems.isEmpty, hothers.isEmpty⟩

end

end DocPress.Markdown
