/-!
# Line ends

A document may end its lines with a line feed, a carriage return or both;
reading turns each into one line feed.
-/

set_option autoImplicit false

namespace DocPress.Text

def unifyNewlines : List Char → List Char
  | [] => []
  | '\r' :: '\n' :: r => '\n' :: unifyNewlines r
  | '\r' :: r => '\n' :: unifyNewlines r
  | c :: r => c :: unifyNewlines r

theorem cr_not_mem_unifyNewlines (s : List Char) : '\r' ∉ unifyNewlines s := by
  fun_induction unifyNewlines s with
  | case1 => simp
  | case2 r ih => simpa using ih
  | case3 r _ ih => simpa using ih
  | case4 c r _ hc ih =>
    simp only [List.mem_cons, not_or]
    exact ⟨fun h => hc h.symm, ih⟩

theorem unifyNewlines_append {a : List Char} (h : '\r' ∉ a) (b : List Char) :
    unifyNewlines (a ++ b) = a ++ unifyNewlines b := by
  induction a with
  | nil => rfl
  | cons c a ih =>
    simp only [List.mem_cons, not_or] at h
    rw [List.cons_append, List.cons_append, unifyNewlines, ih h.2]
    · exact fun _ hc _ => h.1 hc.symm
    · exact fun hc => h.1 hc.symm

theorem unifyNewlines_of_cr_not_mem {s : List Char} (h : '\r' ∉ s) : unifyNewlines s = s := by
  simpa [unifyNewlines] using unifyNewlines_append h []

end DocPress.Text
