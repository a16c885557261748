import DocPress.Element.Printer

/-!
# Printing with a store of list frames

Printing is told again with one store for the frames of all lists. A list that is opened gets a
new place in it, and an item takes its marker from the frame at the place of its list. Beside
each frame stand the markers that it gave, in the order in which it gave them.
-/

set_option autoImplicit false

namespace DocPress.Element

open Text

/-- A list frame in the store, and the markers that it gave. -/
structure Cell where
  frame : ListFrame
  given : List (List Char)

def Cell.opened (name : String) : Cell := ⟨.opened name, []⟩

abbrev Store := List Cell

/-- The marker of the next item of the list at a place, or of an item in no list. -/
def takeAt (store : Store) (place : Option Nat) : List Char × Store :=
  match place with
  | none => (['-'], store)
  | some a =>
    match store[a]? with
    | none => (['-'], store)
    | some c => (c.frame.next.1, store.set a ⟨c.frame.next.2, c.given ++ [c.frame.next.1]⟩)

mutual

/-- The text of an element and the store after it, where lists are open whose frames stand at
some places, innermost first. -/
def printIn (indent : List Char) (places : List Nat) (store : Store) :
    Element → List Char × Store
  | .value v => (valueText v, store)
  | .sequence items => printAllIn indent places store items
  | .named name attributes children =>
    match layout indent name attributes children with
    | .fixed s => (s, store)
    | .all inner finish =>
      let (s, store) := printAllIn inner places store children
      (finish s, store)
    | .each keep finish =>
      let (ss, store) := printEachIn keep indent places store children
      (finish ss, store)
    | .code =>
      match printCodeIn indent places store children with
      | some (language, body, store) => (codeBlock language body, store)
      | none =>
        let (body, store) := printAllIn indent places store children
        (codeBlock [] body, store)
    | .list => printAllIn indent (store.length :: places) (store ++ [Cell.opened name]) children
    | .item =>
      let (marker, store) := takeAt store places.head?
      let start := (List.replicate (places.length - 1) listIndent).flatten ++ marker ++ [' ']
      if children.any isList then
        let (ss, store) := printEachIn (fun c => !c.isList) indent places store children
        let (nested, store) := printEachIn isList indent places store children
        (start ++ strip ss.flatten ++ ['\n'] ++ nested.flatten, store)
      else
        let (s, store) := printAllIn indent places store children
        (start ++ joinLines (strip s) ++ ['\n'], store)

def printEachIn (keep : Element → Bool) (indent : List Char) (places : List Nat)
    (store : Store) : List Element → List (List Char) × Store
  | [] => ([], store)
  | e :: es =>
    if keep e then
      let (s, store) := printIn indent places store e
      let (ss, store) := printEachIn keep indent places store es
      (s :: ss, store)
    else printEachIn keep indent places store es

def printAllIn (indent : List Char) (places : List Nat) (store : Store) :
    List Element → List Char × Store
  | [] => ([], store)
  | e :: es =>
    let (s, store) := printIn indent places store e
    let (t, store) := printAllIn indent places store es
    (s ++ t, store)

def printCodeIn (indent : List Char) (places : List Nat) (store : Store) :
    List Element → Option (List Char × List Char × Store)
  | [] => none
  | .named name attributes children :: es =>
    if name = "code" then
      let (s, store) := printAllIn indent places store children
      some (attributeText attributes "data-language", s, store)
    else printCodeIn indent places store es
  | _ :: es => printCodeIn indent places store es

end

/-- A whole document, printed where other documents have been printed before. -/
def renderIn (store : Store) (e : Element) : String × Store :=
  let (s, store) := printIn [] [] store e
  (String.ofList (strip s ++ ['\n']), store)

/-! ## What items do to a store -/

def ListFrame.markerAfter (f : ListFrame) (k : Nat) : List Char :=
  if f.numbered then Nat.toDigits 10 (f.count + k + 1) ++ ['.'] else ['-']

def ListFrame.advanced (n : Nat) (f : ListFrame) : ListFrame :=
  if f.numbered then { f with count := f.count + n } else f

def Cell.advanced (n : Nat) (c : Cell) : Cell :=
  ⟨c.frame.advanced n, c.given ++ (List.range n).map c.frame.markerAfter⟩

def advancedAt (store : Store) (place : Option Nat) (n : Nat) : Store :=
  match place with
  | none => store
  | some a => store.modify a (Cell.advanced n)

section

variable {store cells : Store} {place : Option Nat} {places : List Nat} {a n : Nat}

theorem ListFrame.next_eq (f : ListFrame) : f.next = (f.markerAfter 0, f.advanced 1) := by
  unfold next markerAfter advanced
  split <;> rfl

@[simp] theorem ListFrame.advanced_zero (f : ListFrame) : f.advanced 0 = f := by
  unfold advanced
  split <;> rfl

theorem ListFrame.advanced_advanced (f : ListFrame) (k n : Nat) :
    (f.advanced k).advanced n = f.advanced (k + n) := by
  obtain ⟨numbered, count⟩ := f
  cases numbered
  · rfl
  · simp [advanced, Nat.add_assoc]

theorem ListFrame.markerAfter_advanced (f : ListFrame) (k n : Nat) :
    (f.advanced k).markerAfter n = f.markerAfter (k + n) := by
  obtain ⟨numbered, count⟩ := f
  cases numbered
  · rfl
  · simp [advanced, markerAfter, Nat.add_assoc]

@[simp] theorem ListFrame.advanced_numbered (f : ListFrame) (n : Nat) :
    (f.advanced n).numbered = f.numbered := by
  unfold advanced
  split <;> rfl

@[simp] theorem Cell.advanced_zero (c : Cell) : c.advanced 0 = c := by
  simp [advanced]

theorem Cell.advanced_advanced (c : Cell) (k n : Nat) :
    (c.advanced k).advanced n = c.advanced (k + n) := by
  simp [advanced, ListFrame.advanced_advanced, ListFrame.markerAfter_advanced, List.range_add]

@[simp] theorem advancedAt_zero (store : Store) (place : Option Nat) :
    advancedAt store place 0 = store := by
  cases place with
  | none => rfl
  | some a =>
    have hid : Cell.advanced 0 = id := funext Cell.advanced_zero
    rw [advancedAt, hid, List.modify_id]

@[simp] theorem length_advancedAt (store : Store) (place : Option Nat) (n : Nat) :
    (advancedAt store place n).length = store.length := by
  cases place with
  | none => rfl
  | some a => exact List.length_modify ..

theorem advancedAt_advancedAt (store : Store) (place : Option Nat) (k n : Nat) :
    advancedAt (advancedAt store place k) place n = advancedAt store place (k + n) := by
  cases place with
  | none => rfl
  | some a =>
    have hcomp : Cell.advanced n ∘ Cell.advanced k = Cell.advanced (k + n) :=
      funext fun c => c.advanced_advanced k n
    rw [advancedAt, advancedAt, List.modify_modify_eq, hcomp, advancedAt]

theorem getElem?_advancedAt (store : Store) (place : Option Nat) (n a : Nat) :
    (advancedAt store place n)[a]? =
      if place = some a then store[a]?.map (Cell.advanced n) else store[a]? := by
  cases place with
  | none => rfl
  | some b =>
    rw [advancedAt, List.getElem?_modify]
    by_cases h : b = a <;> simp [h]

/-- What stands behind a place does not matter for its items. -/
theorem advancedAt_append (h : ∀ a ∈ place, a < store.length) (n : Nat) :
    advancedAt (store ++ cells) place n = advancedAt store place n ++ cells := by
  cases place with
  | none => rfl
  | some a =>
    have ha := h a rfl
    rw [advancedAt, advancedAt, List.modify_eq_take_cons_drop ha, List.modify_eq_take_cons_drop
      (Nat.lt_of_lt_of_le ha (by simp)), List.take_append_of_le_length (Nat.le_of_lt ha),
      List.drop_append_of_le_length ha, List.getElem_append_left ha]
    simp

theorem advancedAt_concat (store : Store) (c : Cell) (n : Nat) :
    advancedAt (store ++ [c]) (some store.length) n = store ++ [c.advanced n] := by
  rw [advancedAt, List.modify_eq_take_cons_drop (by simp)]
  simp

theorem takeAt_eq (h : ∀ a ∈ place, a < store.length) :
    takeAt store place = (match place.bind fun a => store[a]?.map Cell.frame with
      | none => ['-']
      | some f => f.next.1, advancedAt store place 1) := by
  cases place with
  | none => rfl
  | some a =>
    have ha := h a rfl
    have hc : Cell.advanced 1 store[a] =
        ⟨store[a].frame.next.2, store[a].given ++ [store[a].frame.next.1]⟩ := by
      simp [Cell.advanced, ListFrame.next_eq]
    simp [takeAt, advancedAt, ← hc, List.set_eq_take_append_cons_drop,
      List.modify_eq_take_cons_drop ha, ha]

end

end DocPress.Element
