import DocPress.Proofs.FileTree.Shape
import DocPress.Proofs.Orphans

/-!
# Deleting orphans looks at shapes only

Which files and directories are deleted depends on where files and directories
are, and on what the system refuses, but on no content. So trees of one shape
have one shape when their orphans are deleted, and the files left keep their
content.
-/

set_option autoImplicit false

namespace DocPress

open FileTree

def Disk.shape (d : Disk) : Disk := ⟨d.files.shape, d.refused⟩

namespace Task

variable {α β : Type}

/-- A task that does the same whatever bytes the files hold. -/
def Blind (x : Task α) : Prop :=
  ∀ d, x d.shape = ⟨(x d).log, (x d).result, (x d).disk.shape⟩

variable {x : Task α} {f : α → Task β}

theorem Blind.bind (hx : Blind x) (hf : ∀ a, Blind (f a)) : Blind (x >>= f) := by
  intro d
  cases hr : (x d).result with
  | error failure =>
    rw [bind_of_error (e := failure) (by rw [hx d, hr]), bind_of_error hr, hx d]
  | ok a =>
    rw [bind_of_ok (a := a) (by rw [hx d, hr]), bind_of_ok hr, hx d]
    simp only [hf a (x d).disk]

theorem blind_pure (a : α) : Blind (pure a : Task α) := fun _ => rfl

theorem blind_note (n : Notice) : Blind (note n) := fun _ => rfl

theorem blind_ofExcept (e : Except Failure α) : Blind (ofExcept e) := fun _ => rfl

theorem blind_look {g : FileTree → α} (h : ∀ t, g t.shape = g t) : Blind (look g) := by
  intro d
  show Outcome.mk [] (Except.ok (g d.files.shape)) d.shape = _
  rw [h]
  rfl

theorem Blind.attempt (h : Blind x) : Blind x.attempt := by
  intro d
  show Outcome.mk (x d.shape).log (Except.ok (x d.shape).result) (x d.shape).disk = _
  rw [h d]
  rfl

theorem blind_delete (p : Path) : Blind (delete p) := by
  intro d
  unfold delete
  by_cases hr : d.refused.contains p = true
  · rw [if_pos (show d.shape.refused.contains p = true from hr), if_pos hr]
  · rw [if_neg (show ¬d.shape.refused.contains p = true from hr), if_neg hr]
    simp only [Disk.shape, shape_remove]

end Task

namespace Orphans

open DocPress.Task

theorem hasTemplate_shape (c : Config) (p : Path) (t : FileTree) :
    hasTemplate t.shape c p = hasTemplate t c p := by
  unfold hasTemplate
  rw [funext (isFile_shape t)]

theorem isEmptyDirectory_shape (p : Path) (t : FileTree) :
    isEmptyDirectory t.shape p = isEmptyDirectory t p := by
  unfold isEmptyDirectory
  rw [access_shape]
  cases t.access p with
  | missing => rfl
  | throughFile => rfl
  | entry names u =>
    cases u with
    | file b => simp [Access.shape]
    | directory es =>
      cases es with
      | nil => simp [Access.shape, shapes]
      | cons e es => simp [Access.shape, shapes]

theorem generated_shape (p : Path) (t : FileTree) :
    Discovery.generated t.shape p = Discovery.generated t p := by
  unfold Discovery.generated
  rw [access_shape]
  cases t.access p with
  | missing => rfl
  | throughFile => rfl
  | entry names u =>
    cases u with
    | file b => simp [Access.shape]
    | directory es =>
      simp only [Access.shape, shape_directory]
      rw [← shape_directory, files_shape, List.filterMap_map]
      rfl

theorem prune_blind (root : Path) (names : List String) : Blind (prune root names) := by
  induction names with
  | nil => exact blind_pure ()
  | cons name names ih =>
    refine (blind_look fun t => isEmptyDirectory_shape _ t).bind fun empty => ?_
    cases empty with
    | false => exact blind_pure ()
    | true =>
      refine (blind_delete _).attempt.bind fun deleted => ?_
      cases deleted with
      | ok u => exact ih
      | error f => exact blind_note _

theorem cleanFile_blind (c : Config) (p : Path) : Blind (cleanFile c p) := by
  refine (blind_look fun t => hasTemplate_shape c p t).bind fun kept =>
    (blind_ofExcept kept).bind fun keep => ?_
  cases keep with
  | true => exact blind_pure false
  | false =>
    refine (blind_delete p).attempt.bind fun deleted => ?_
    cases deleted with
    | error f => exact (blind_note _).bind fun _ => blind_pure false
    | ok u =>
      exact (blind_note _).bind fun _ => (prune_blind _ _).bind fun _ => blind_pure true

theorem cleanFiles_blind (c : Config) (ps : List Path) : Blind (cleanFiles c ps) := by
  induction ps with
  | nil => exact blind_pure []
  | cons p ps ih =>
    exact (cleanFile_blind c p).bind fun _ => ih.bind fun _ => blind_pure _

theorem clean_blind (c : Config) : Blind (clean c) :=
  (blind_look fun t => generated_shape c.output t).bind fun ps => cleanFiles_blind c ps

theorem clean_shape {c : Config} {d e d' e' : Disk} {deleted deleted' : List Path}
    (h : d.shape = e.shape) (hd : Yields (clean c) d deleted d')
    (he : Yields (clean c) e deleted' e') : deleted = deleted' ∧ d'.shape = e'.shape := by
  have hsame : (clean c d.shape) = clean c e.shape := by rw [h]
  rw [clean_blind c d, clean_blind c e] at hsame
  obtain ⟨-, hr, hs⟩ := Outcome.mk.inj hsame
  rw [hd.disk, he.disk] at hs
  rw [hd.result, he.result] at hr
  exact ⟨Except.ok.inj hr, hs⟩

end Orphans

end DocPress
