import DocPress.Config
import DocPress.FileTree.Loading
import DocPress.Yaml.Document

/-!
# Loading a configuration

A configuration is a YAML file. Its paths are seen from the directory that
holds it, and faults in it are reported under its name.
-/

set_option autoImplicit false

namespace DocPress.Config

/-- The value that a configuration file writes; an empty one writes an empty mapping. -/
def loadValue (files : FileTree) (p : Path) : Except Failure Value := do
  match Yaml.load (← files.load p) with
  | .error .impossibleValue => throw .impossibleValue
  | .error _ => throw (.config (.unreadable p.name))
  | .ok v =>
    if !v.isTruthy then pure (.mapping [])
    else
      match v with
      | .mapping es => pure (.mapping es)
      | _ => throw (.config (.notMapping p.toString))

def load (files : FileTree) (p : Path) : Except Failure Config := do
  if p.hasNul then throw .nulInPath
  let p := p.real
  if !files.isFile p then throw (.config (.notFound p.name p.parent.toString))
  ofValue p.parent p.name (← loadValue files p)

def defaultPath (directory : Path) : Path := directory ++ ⟨.relative, [fileName]⟩

end DocPress.Config
