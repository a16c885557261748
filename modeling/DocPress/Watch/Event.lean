import DocPress.Naming

/-!
# File system events

What the system reports about a file: the kind of the event, the path, and
for a move the path moved to. Events of directories, and events that change
nothing, are not passed on.
-/

set_option autoImplicit false

namespace DocPress.Watch

inductive EventKind where
  | created
  | modified
  | deleted
  | moved
  | opened
  | closed
  | closedUnchanged
  deriving DecidableEq, Repr

structure Event where
  kind : EventKind
  source : String
  target : String
  isDirectory : Bool
  deriving DecidableEq, Repr

def Event.paths (e : Event) : List String :=
  if e.isDirectory || e.kind == .opened || e.kind == .closedUnchanged then []
  else if e.target = "" then [e.source]
  else [e.source, e.target]

end DocPress.Watch
