import DocPress.Notice

/-!
# Computations that report

A computation yields the notices it made on the way and either a value or
the failure that stopped it. Notices of later steps come after those of
earlier ones, also when a later step fails.
-/

set_option autoImplicit false

namespace DocPress

structure Reporting (α : Type) where
  log : List Notice
  result : Except Failure α

namespace Reporting

variable {α β : Type}

def ok (a : α) : Reporting α := ⟨[], .ok a⟩

def fail (f : Failure) : Reporting α := ⟨[], .error f⟩

def note (n : Notice) : Reporting Unit := ⟨[n], .ok ()⟩

def andThen (x : Reporting α) (f : α → Reporting β) : Reporting β :=
  match x.result with
  | .error e => ⟨x.log, .error e⟩
  | .ok a =>
    let y := f a
    ⟨x.log ++ y.log, y.result⟩

instance : Monad Reporting where
  pure := ok
  bind := andThen

def ofExcept (e : Except Failure α) : Reporting α := ⟨[], e⟩

@[simp] theorem pure_log (a : α) : (pure a : Reporting α).log = [] := rfl

@[simp] theorem pure_result (a : α) : (pure a : Reporting α).result = .ok a := rfl

theorem bind_eq (x : Reporting α) (f : α → Reporting β) : (x >>= f) = andThen x f := rfl

theorem bind_of_ok {x : Reporting α} {a : α} (f : α → Reporting β) (h : x.result = .ok a) :
    (x >>= f) = ⟨x.log ++ (f a).log, (f a).result⟩ := by
  simp [bind_eq, andThen, h]

theorem bind_of_error {x : Reporting α} {e : Failure} (f : α → Reporting β)
    (h : x.result = .error e) : (x >>= f) = ⟨x.log, .error e⟩ := by
  simp [bind_eq, andThen, h]

@[simp] theorem ofExcept_ok_bind (a : α) (f : α → Reporting β) :
    (ofExcept (.ok a) >>= f) = f a := by
  simp [bind_eq, andThen, ofExcept]

@[simp] theorem ofExcept_error_bind (e : Failure) (f : α → Reporting β) :
    (ofExcept (.error e) >>= f) = fail e := by
  simp [bind_eq, andThen, ofExcept, fail]

end Reporting

end DocPress
