/-!
# Character classes by code point ranges

A class of characters is a list of closed code point ranges. The classes
of the Unicode standard used by the reader and the printer are tables of
this form, one module for each property.
-/

set_option autoImplicit false

namespace DocPress.Text

/-- A character class: closed ranges of code points in increasing order. -/
abbrev Ranges := List (Nat × Nat)

def Ranges.contains (rs : Ranges) (c : Char) : Bool :=
  rs.any fun r => r.1 ≤ c.toNat && c.toNat ≤ r.2

theorem Ranges.contains_iff (rs : Ranges) (c : Char) :
    rs.contains c = true ↔ ∃ r ∈ rs, r.1 ≤ c.toNat ∧ c.toNat ≤ r.2 := by
  simp [Ranges.contains]

end DocPress.Text
