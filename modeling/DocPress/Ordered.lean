/-!
# Ordered dictionaries

A dictionary that remembers the order in which its keys were first set. A
key that is set again keeps its place.
-/

set_option autoImplicit false

namespace DocPress

abbrev Ordered (α : Type) := List (String × α)

namespace Ordered

variable {α : Type}

def get? (d : Ordered α) (key : String) : Option α := d.lookup key

def set : Ordered α → String → α → Ordered α
  | [], key, v => [(key, v)]
  | (k, w) :: d, key, v => if k = key then (k, v) :: d else (k, w) :: set d key v

def keys (d : Ordered α) : List String := d.map (·.1)

/-- The entries of one dictionary laid over another: the second wins. -/
def overlay (d : Ordered α) (e : Ordered α) : Ordered α :=
  e.foldl (fun d entry => d.set entry.1 entry.2) d

theorem get?_set_self (d : Ordered α) (key : String) (v : α) : (d.set key v).get? key = some v := by
  induction d with
  | nil => simp [set, get?]
  | cons e d ih =>
    obtain ⟨k, w⟩ := e
    by_cases h : k = key
    · simp [set, h, get?]
    · have h2 : (key == k) = false := by simpa using fun h2 => h h2.symm
      simpa [set, h, get?, List.lookup_cons, h2] using ih

theorem get?_set_of_ne (d : Ordered α) {key other : String} (v : α) (h : other ≠ key) :
    (d.set key v).get? other = d.get? other := by
  induction d with
  | nil =>
    have h2 : (other == key) = false := by simpa using h
    simp [set, get?, List.lookup_cons, h2]
  | cons e d ih =>
    obtain ⟨k, w⟩ := e
    by_cases hk : k = key
    · subst hk
      have h2 : (other == k) = false := by simpa using h
      simp [set, get?, List.lookup_cons, h2]
    · cases h2 : other == k with
      | true => simp [set, hk, get?, List.lookup_cons, h2]
      | false => simpa [set, hk, get?, List.lookup_cons, h2] using ih

theorem get?_set (d : Ordered α) (key other : String) (v : α) :
    (d.set key v).get? other = if other = key then some v else d.get? other := by
  by_cases h : other = key
  · subst h
    simp [get?_set_self]
  · simp [h, get?_set_of_ne d v h]

end Ordered

end DocPress
