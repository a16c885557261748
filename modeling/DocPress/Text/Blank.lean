import DocPress.Text.Ranges

/-!
# White space

The white space of the Unicode standard together with the four ASCII
separators. Trimming, splitting into words and the blank test all use this
one class; Markdown's own rules look at spaces and tabs only.
-/

set_option autoImplicit false

namespace DocPress.Text

def blankRanges : Ranges :=
  [(0x9, 0xD), (0x1C, 0x20), (0x85, 0x85), (0xA0, 0xA0), (0x1680, 0x1680), (0x2000, 0x200A),
    (0x2028, 0x2029), (0x202F, 0x202F), (0x205F, 0x205F), (0x3000, 0x3000)]

def isBlank (c : Char) : Bool := blankRanges.contains c

def isSpaceOrTab (c : Char) : Bool := c == ' ' || c == '\t'

theorem isBlank_of_isSpaceOrTab (c : Char) (h : isSpaceOrTab c = true) : isBlank c = true := by
  simp only [isSpaceOrTab, Bool.or_eq_true, beq_iff_eq] at h
  rcases h with h | h <;> subst h <;> decide

def stripLeft (s : List Char) : List Char := s.dropWhile isBlank

def stripRight (s : List Char) : List Char := (s.reverse.dropWhile isBlank).reverse

def strip (s : List Char) : List Char := stripRight (stripLeft s)

def isBlankText (s : List Char) : Bool := s.all isBlank

def words (s : List Char) : List (List Char) :=
  go [] s
where
  go : List Char → List Char → List (List Char)
    | [], [] => []
    | w, [] => [w.reverse]
    | [], c :: r => if isBlank c then go [] r else go [c] r
    | w, c :: r => if isBlank c then w.reverse :: go [] r else go (c :: w) r

end DocPress.Text
