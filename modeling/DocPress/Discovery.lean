import DocPress.FileTree
import DocPress.Ignore
import DocPress.Naming

/-!
# Finding templates

Templates are looked for below the templates directory. Hidden directories,
directories of modules, those named like the output directory and ignored
paths are not entered. Templates are processed in the order of their paths,
files and directories of one directory mixed by name.
-/

set_option autoImplicit false

namespace DocPress

namespace Discovery

def modulesDirectory : String := "node_modules"

def isExcludedDirectory (c : Config) (name : String) : Bool :=
  name.toList.head? == some '.' || name == modulesDirectory || name == c.output.name

def isExcluded (c : Config) (ignore : Ignore) (p : Path) : Bool :=
  match p.normal.below? c.templates with
  | none => true
  | some names => names.dropLast.any (isExcludedDirectory c) || ignore.contains names

section

variable (c : Config) (ignore : Ignore)

def isWanted (names : List String) (name : String) : Bool :=
  Naming.isTemplate name && !ignore.contains (names ++ [name])

def isEntered (names : List String) (name : String) : Bool :=
  !isExcludedDirectory c name && !ignore.contains (names ++ [name])

mutual

/-- The templates in a directory and below, by the names that lead to them. -/
def templatesIn (names : List String) : FileTree → List (List String)
  | .file _ => []
  | .directory es => filesIn names es ++ templatesBelow names es

def filesIn (names : List String) : FileTree.Entries → List (List String)
  | [] => []
  | (name, .file _) :: es =>
    if isWanted ignore names name then (names ++ [name]) :: filesIn names es else filesIn names es
  | (_, .directory _) :: es => filesIn names es

def templatesBelow (names : List String) : FileTree.Entries → List (List String)
  | [] => []
  | (name, t) :: es =>
    (if isEntered c ignore names name then templatesIn (names ++ [name]) t else []) ++
      templatesBelow names es

end

end

def sortNames (ns : List (List String)) : List (List String) := ns.mergeSort Path.namesLe

def templates (files : FileTree) (c : Config) : List Path :=
  match files.access c.templates with
  | .entry _ t =>
    (sortNames (templatesIn c (Ignore.ofEntries c.ignored) [] t)).map fun names =>
      c.templates ++ ⟨.relative, names⟩
  | _ => []

def generated (files : FileTree) (directory : Path) : List Path :=
  match files.access directory with
  | .entry _ (.directory es) =>
    (sortNames ((FileTree.files (.directory es)).filterMap fun f =>
      if Naming.isOutput (f.1.getLast?.getD "") then some f.1 else none)).map fun names =>
      directory ++ ⟨.relative, names⟩
  | _ => []

end Discovery

end DocPress
