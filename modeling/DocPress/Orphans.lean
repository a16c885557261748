import DocPress.Discovery
import DocPress.Task

/-!
# Orphans

A generated file whose template is gone is deleted, and so are the
directories that become empty by it, up to the output directory. A deletion
that the system refuses is reported and skipped.
-/

set_option autoImplicit false

namespace DocPress

namespace Orphans

def hasTemplate (files : FileTree) (c : Config) (generated : Path) : Except Failure Bool :=
  (c.templateFor generated).map files.isFile

def isEmptyDirectory (files : FileTree) (p : Path) : Bool :=
  match files.access p with
  | .entry _ (.directory []) => true
  | _ => false

/-- Delete empty directories from a directory upwards, as far as the names below the root go. -/
def prune (root : Path) : List String → Task Unit
  | [] => pure ()
  | name :: names => do
    let p := root ++ ⟨.relative, (name :: names).reverse⟩
    if ← Task.look (isEmptyDirectory · p) then
      match ← (Task.delete p).attempt with
      | .ok () => prune root names
      | .error f => Task.note (.pruningStopped p f)
    else pure ()

def cleanFile (c : Config) (p : Path) : Task Bool := do
  let kept ← Task.look (hasTemplate · c p)
  if ← Task.ofExcept kept then pure false
  else
    match ← (Task.delete p).attempt with
    | .error f =>
      Task.note (.deletionFailed (c.shown p) f)
      pure false
    | .ok () =>
      Task.note (.deletedOrphan (c.shown p))
      prune c.output ((p.parent.below? c.output).getD []).reverse
      pure true

def cleanFiles (c : Config) : List Path → Task (List Path)
  | [] => pure []
  | p :: ps => do
    let deleted ← cleanFile c p
    let more ← cleanFiles c ps
    pure (if deleted then p :: more else more)

def clean (c : Config) : Task (List Path) := do
  cleanFiles c (← Task.look (Discovery.generated · c.output))

end Orphans

end DocPress
