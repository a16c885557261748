import DocPress.FileTree
import DocPress.Failure

/-!
# Loading text

The text of a file in a tree, with the failures of looking for it: nothing
is there, it is a directory, the way to it leads through a file, or its
bytes are no text.
-/

set_option autoImplicit false

namespace DocPress.FileTree

def loadBytes (root : FileTree) (p : Path) : Except Failure ByteArray :=
  if p.hasNul then .error .nulInPath
  else
    match root.access p with
    | .entry _ (.file bytes) => .ok bytes
    | .entry _ (.directory _) => .error (.isDirectory p)
    | .missing => .error (.noFile p)
    | .throughFile => .error (.throughFile p)

def load (root : FileTree) (p : Path) : Except Failure String := do
  match readText? (← root.loadBytes p) with
  | some s => .ok s
  | none => .error (.undecodable p)

end DocPress.FileTree
