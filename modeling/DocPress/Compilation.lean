import DocPress.Document.Reading
import DocPress.Element.Printer
import DocPress.FileTree.Loading
import DocPress.Resolution

/-!
# Compiling templates

A template is read, its items are indexed, its tags are resolved and the
result is printed as Markdown. A partial is a document of its own: its
entries are laid over the index of the document that includes it, and its
partials are looked for beside it. A partial that includes itself, directly
or through others, is refused.
-/

set_option autoImplicit false

namespace DocPress

namespace Compilation

/-- Where a document stands: the directory its partials are looked for in,
and the files being compiled, outermost first. -/
structure Place where
  directory : Path
  chain : List Path

def documentOf (files : FileTree) (p : Path) : Reporting Node := do
  let source ← .ofExcept (files.load p)
  Document.read p.toString source

def scope (place : Place) (index : Reference.Index) (include_ : String → Reporting Element) :
    Resolution.Scope :=
  ⟨index, place.chain.getLast?, include_⟩

/-- The render tree of the partial with a name. Each partial in turn is one
file more, so a depth of the number of files is never exceeded. -/
def includePartial (files : FileTree) : Nat → Place → Reference.Index → String → Reporting Element
  | depth, place, index, file =>
    let written := place.directory ++ Path.ofString file
    let path := written.real
    if written.hasNul then .fail .nulInPath
    else if !files.isFile path then do
      .note (.partialNotFound path)
      pure (.value .null)
    else if place.chain.contains path then .fail (.cyclicInclusion (place.chain ++ [path]))
    else
      match depth with
      | 0 => pure (.value .null)
      | depth + 1 => do
        let n ← documentOf files path
        let index := Reference.Index.merge index (Reference.Index.ofNode n)
        let inner : Place := ⟨path.parent, place.chain ++ [path]⟩
        Resolution.Resolved.document <$>
          Resolution.resolve (scope inner index (includePartial files depth inner index)) n

def renderTree (files : FileTree) (place : Place) (index : Reference.Index) (n : Node) :
    Reporting Element :=
  Resolution.Resolved.document <$>
    Resolution.resolve
      (scope place index (includePartial files (files.files.length + 1) place index)) n

end Compilation

open Compilation

def compileText (files : FileTree) (source : String) (directory : Path) (file : Option Path) :
    Reporting String := do
  let n ← Document.read ((file.map Path.toString).getD "") source
  let place : Place := ⟨directory, (file.map Path.real).toList⟩
  Element.render <$> renderTree files place (Reference.Index.ofNode n) n

def compileFile (files : FileTree) (p : Path) : Reporting String := do
  let p := p.real
  let source ← .ofExcept (files.load p)
  compileText files source p.parent (some p)

end DocPress
