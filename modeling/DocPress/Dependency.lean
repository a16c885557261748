import DocPress.Compilation
import DocPress.Discovery

/-!
# Dependencies

A document depends on the partials it includes, directly or through other
partials; a partial that does not exist is among them. The dependency map
gives for each partial the templates that depend on it.
-/

set_option autoImplicit false

namespace DocPress

namespace Dependency

def addPath (ps : List Path) (p : Path) : List Path := if ps.contains p then ps else ps ++ [p]

/-- The file that a node includes, a text that is not empty. -/
def included? (n : Node) : Option Value :=
  let file := Attributes.get n.attributes "file"
  if n.isTagNamed Schema.partialTag && file.text?.any (· != "") then some file else none

/-- Where a file leads to from a directory. The system takes no name with a NUL, though a double
dot behind it takes it away again, and none that it cannot encode. -/
def place (directory : Path) (file : Value) : Except Failure Path :=
  let p := directory ++ Path.ofString file.display
  if !file.isEncodable then .error .unencodable
  else if p.hasNul then .error .nulInPath
  else .ok p.real

def partials (directory : Path) (n : Node) : Except Failure (List Path) := do
  let ps ← (n.walk.filterMap included?).mapM (place directory)
  pure (ps.foldl addPath [])

/-- The partials that a file includes. A file that cannot be opened includes none. -/
def partialsOf (files : FileTree) (p : Path) : Reporting (List Path) :=
  match files.load p with
  | .error f =>
    if f.isSystem then do
      .note (.unscannable p f)
      pure []
    else .fail f
  | .ok source => do
    let n ← Document.read p.toString source
    .ofExcept (partials p.parent n)

/-- Go on from the files still to be read, the last one first. Each file is
met once, so their number bounds the search. -/
def search (files : FileTree) : Nat → List Path → List Path → Reporting (List Path)
  | 0, seen, _ => pure seen
  | _ + 1, seen, [] => pure seen
  | fuel + 1, seen, p :: pending => do
    let fresh := (← partialsOf files p).filter fun q => !seen.contains q
    search files fuel (seen ++ fresh) ((fresh.filter files.isFile).reverse ++ pending)

def reachable (files : FileTree) (template : Path) : Reporting (List Path) :=
  search files (files.files.length + 2) [] [template]

/-- The templates that depend on each partial. -/
abbrev Map := List (Path × List Path)

namespace Map

def get (m : Map) (p : Path) : List Path := (m.lookup p).getD []

def add : Map → Path → Path → Map
  | [], p, template => [(p, [template])]
  | (q, ts) :: m, p, template =>
    if q = p then (q, addPath ts template) :: m else (q, ts) :: add m p template

end Map

def addTemplate (files : FileTree) (m : Map) (template : Path) : Reporting Map := do
  let template := template.real
  let ps ← reachable files template
  pure (ps.foldl (fun m p => m.add p template) m)

def ofTemplates (files : FileTree) (templates : List Path) : Reporting Map :=
  templates.foldlM (addTemplate files) []

def dependents (m : Map) (ps : List Path) : Except Failure (List Path) :=
  if ps.any Path.hasNul then .error .nulInPath
  else .ok (ps.foldl (fun found p => (m.get p.real).foldl addPath found) [])

end Dependency

end DocPress
