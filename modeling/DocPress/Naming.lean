import DocPress.Config

/-!
# Names of files

Templates, partials and generated files are told by their suffixes. The
generated file of a template has its place below the output directory and
its name with the suffix exchanged; the mapping and its inverse are derived
from the names alone.
-/

set_option autoImplicit false

namespace DocPress

namespace Naming

def templateSuffix : String := ".mdoc"

def partialSuffix : String := ".p.mdoc"

def outputSuffix : String := ".g.md"

def endsWith (s suffix : String) : Bool := suffix.toList.isSuffixOf s.toList

def isPartial (s : String) : Bool := endsWith s partialSuffix

/-- A template that has a generated file; a partial has none. -/
def isTemplate (s : String) : Bool := endsWith s templateSuffix && !endsWith s partialSuffix

def isOutput (s : String) : Bool := endsWith s outputSuffix

def swapSuffix? (old new name : String) : Option String :=
  if endsWith name old then
    some (String.ofList (name.toList.take (name.toList.length - old.toList.length) ++ new.toList))
  else none

def counterpart (source target : Path) (old new : String) (p : Path) : Except Failure Path :=
  let p := p.normal
  match p.below? source with
  | none => .error (.outside p source)
  | some names =>
    match swapSuffix? old new (names.getLast?.getD "") with
    | none => .error (.wrongSuffix old (Path.toString ⟨.relative, names⟩))
    | some name => .ok (target ++ ⟨.relative, names.dropLast ++ [name]⟩)

end Naming

namespace Config

def outputFor (c : Config) (template : Path) : Except Failure Path :=
  Naming.counterpart c.templates c.output Naming.templateSuffix Naming.outputSuffix template

def templateFor (c : Config) (output : Path) : Except Failure Path :=
  Naming.counterpart c.output c.templates Naming.outputSuffix Naming.templateSuffix output

def shown (c : Config) (p : Path) : String := (p.normal.relativeTo c.templates.normal).toString

end Config

end DocPress
