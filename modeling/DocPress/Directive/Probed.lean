import DocPress.Directive.Lexer

/-!
# Probing for directives

A Markdown reader tries at many places whether a text is a directive. A
computation of this kind yields what is noted about the texts it tried, in
the order in which it tried them, beside its value. The reader asks a
recogniser; the one for documents notes the fault of a text that is none.
-/

set_option autoImplicit false

namespace DocPress

structure Probed (φ α : Type) where
  notes : List φ
  value : α

namespace Probed

variable {φ α β : Type}

def andThen (x : Probed φ α) (f : α → Probed φ β) : Probed φ β :=
  let y := f x.value
  ⟨x.notes ++ y.notes, y.value⟩

instance : Monad (Probed φ) where
  pure a := ⟨[], a⟩
  bind := andThen

@[simp] theorem pure_notes (a : α) : (pure a : Probed φ α).notes = [] := rfl

@[simp] theorem pure_value (a : α) : (pure a : Probed φ α).value = a := rfl

@[simp] theorem bind_notes (x : Probed φ α) (f : α → Probed φ β) :
    (x >>= f).notes = x.notes ++ (f x.value).notes := rfl

@[simp] theorem bind_value (x : Probed φ α) (f : α → Probed φ β) :
    (x >>= f).value = (f x.value).value := rfl

@[simp] theorem map_notes (f : α → β) (x : Probed φ α) : (f <$> x).notes = x.notes :=
  List.append_nil _

@[simp] theorem map_value (f : α → β) (x : Probed φ α) : (f <$> x).value = f x.value := rfl

end Probed

namespace Directive

/-- What a text is as a directive, with what is to be noted about it. -/
abbrev Recogniser (φ : Type) := List Char → Probed φ (Option Directive)

def probe : Recogniser Fault := fun text =>
  match lex text with
  | .ok d => ⟨[], some d⟩
  | .error e => ⟨[e], none⟩

end Directive

end DocPress
