import DocPress.FileTree.Loading
import DocPress.Reporting

/-!
# Tasks

A task reads and changes the files of a project. It yields the notices it
made, a value or the failure that stopped it, and the files as they are then:
what was changed before a failure stays changed. The system may refuse to
delete certain files and directories.
-/

set_option autoImplicit false

namespace DocPress

structure Disk where
  files : FileTree
  refused : List Path
  deriving Inhabited

structure Outcome (α : Type) where
  log : List Notice
  result : Except Failure α
  disk : Disk

def Task (α : Type) := Disk → Outcome α

namespace Task

variable {α β : Type}

def andThen (x : Task α) (f : α → Task β) : Task β := fun d =>
  let o := x d
  match o.result with
  | .error e => ⟨o.log, .error e, o.disk⟩
  | .ok a =>
    let p := f a o.disk
    ⟨o.log ++ p.log, p.result, p.disk⟩

instance : Monad Task where
  pure a := fun d => ⟨[], .ok a, d⟩
  bind := andThen

theorem bind_of_ok {x : Task α} {f : α → Task β} {d : Disk} {a : α} (h : (x d).result = .ok a) :
    (x >>= f) d =
      ⟨(x d).log ++ (f a (x d).disk).log, (f a (x d).disk).result, (f a (x d).disk).disk⟩ := by
  show andThen x f d = _
  simp [andThen, h]

theorem bind_of_error {x : Task α} {f : α → Task β} {d : Disk} {e : Failure}
    (h : (x d).result = .error e) : (x >>= f) d = ⟨(x d).log, .error e, (x d).disk⟩ := by
  show andThen x f d = _
  simp [andThen, h]

def note (n : Notice) : Task Unit := fun d => ⟨[n], .ok (), d⟩

def noteIf (condition : Bool) (n : Notice) : Task Unit :=
  if condition then note n else pure ()

def fail (f : Failure) : Task α := fun d => ⟨[], .error f, d⟩

def ofExcept (e : Except Failure α) : Task α := fun d => ⟨[], e, d⟩

def look (f : FileTree → α) : Task α := fun d => ⟨[], .ok (f d.files), d⟩

def readOnly (f : FileTree → Reporting α) : Task α := fun d =>
  let r := f d.files
  ⟨r.log, r.result, d⟩

def attempt (x : Task α) : Task (Except Failure α) := fun d =>
  let o := x d
  ⟨o.log, .ok o.result, o.disk⟩

def forEach (f : α → Task β) : List α → Task (List β)
  | [] => pure []
  | a :: as => do
    let b ← f a
    let bs ← forEach f as
    pure (b :: bs)

/-! ## Changing files -/

def makeDirectory (p : Path) : Task Unit := fun d =>
  match d.files.access p with
  | .entry _ (.directory _) => ⟨[], .ok (), d⟩
  | .entry _ (.file _) => ⟨[], .error (.alreadyExists p), d⟩
  | .throughFile => ⟨[], .error (.throughFile p), d⟩
  | .missing => ⟨[], .ok (), { d with files := d.files.ensureDirectory p.normal.parts }⟩

def writeText (p : Path) (s : String) : Task Unit := fun d =>
  match d.files.access p with
  | .entry _ (.directory _) => ⟨[], .error (.isDirectory p), d⟩
  | _ => ⟨[], .ok (), { d with files := d.files.insert p.normal.parts (.file s.toUTF8) }⟩

def delete (p : Path) : Task Unit := fun d =>
  if d.refused.contains p then ⟨[], .error .refused, d⟩
  else ⟨[], .ok (), { d with files := d.files.remove p.normal.parts }⟩

end Task

end DocPress
