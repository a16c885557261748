import DocPress.Value

/-!
# The queue of changes

Changed paths wait in a queue in the order in which they were reported. The
consumer takes them one by one and tells which it accepts; while it looks at
a path, further ones may arrive. When the queue is empty and the quiet time
has passed, what was accepted is one batch.
-/

set_option autoImplicit false

namespace DocPress.Watch

/-- The paths that wait, the oldest first. -/
abbrev Queue := List String

namespace Queue

def put (q : Queue) (p : String) : Queue := q ++ [p]

def putAll (q : Queue) (ps : List String) : Queue := q ++ ps

/-- What a consumer does with a path: whether it accepts it, what arrives
meanwhile, and its state afterwards. -/
abbrev Consumer (σ : Type) := σ → String → Bool × List String × σ

/-- The paths looked at, the accepted ones among them, and what still waits. -/
structure Collected where
  seen : List String
  batch : List String
  rest : Queue
  deriving Repr, DecidableEq

/-- Take paths until none waits, a given number of them at most. -/
def collect {σ : Type} (consume : Consumer σ) : Nat → σ → Queue → Collected × σ
  | 0, s, q => (⟨[], [], q⟩, s)
  | _ + 1, s, [] => (⟨[], [], []⟩, s)
  | n + 1, s, p :: q =>
    let (accepted, arrived, s) := consume s p
    let (c, s) := collect consume n s (q ++ arrived)
    (⟨p :: c.seen, if accepted then p :: c.batch else c.batch, c.rest⟩, s)

theorem batch_sublist_seen {σ : Type} (consume : Consumer σ) (n : Nat) (s : σ) (q : Queue) :
    (collect consume n s q).1.batch.Sublist (collect consume n s q).1.seen := by
  fun_induction collect consume n s q with
  | case1 => simp
  | case2 => simp
  | case3 n s p q accepted arrived s' h c s'' h' ih =>
    simp only [h'] at ih
    cases accepted with
    | true => simpa using ih
    | false => simpa using ih.cons p

/-- The quiet time that a value asks for; less than nothing is nothing. -/
def quietTime? (v : Value) : Option Value :=
  match v with
  | .int n => some (if 0 < n then v else .float (Binary64.finite false 0 0))
  | .float x => some (if x.isPositive then v else .float (Binary64.finite false 0 0))
  | .bool b => some (if b then v else .float (Binary64.finite false 0 0))
  | _ => none

end Queue

end DocPress.Watch
