import DocPress.Compilation
import DocPress.Orphans

/-!
# Building

A build deletes orphans, then renders every template in order. A safe build
only renders templates whose generated file exists; a forced one creates
what is missing. A template that fails is recorded and does not stop the
others. A generated file is only written when its text changes.
-/

set_option autoImplicit false

namespace DocPress

structure FileResult where
  template : Path
  output : Path
  created : Bool
  unchanged : Bool
  failure : Option Failure
  deriving Repr

def FileResult.isOk (r : FileResult) : Bool := r.failure.isNone

structure Report where
  results : List FileResult
  deleted : List Path
  deriving Repr

namespace Report

def rendered (r : Report) : List FileResult := r.results.filter FileResult.isOk

def created (r : Report) : List FileResult := r.rendered.filter FileResult.created

def failed (r : Report) : List FileResult := r.results.filter fun f => !f.isOk

def isOk (r : Report) : Bool := r.failed.isEmpty

def count {α : Type} (items : List α) : String := Value.intText items.length

def summary (r : Report) : String :=
  if r.isOk then
    "All ok - Rendered " ++ count r.rendered ++ " file(s)" ++
      (if r.created.isEmpty then "" else ", created " ++ count r.created ++ " new")
  else "Rendered " ++ count r.rendered ++ " file(s), " ++ count r.failed ++ " error(s)"

end Report

namespace Build

/-- Put a text into a generated file, creating it if need be: whether it was
created, and whether it already held the text. -/
def putOutput (output : Path) (text : String) : Task (Bool × Bool) := do
  if ← Task.look (·.exists? output) then
    let old ← Task.look (·.load output)
    let old ← Task.ofExcept old
    if old = text then pure (false, true)
    else
      Task.writeText output text
      pure (false, false)
  else
    Task.makeDirectory output.parent
    Task.writeText output text
    pure (true, false)

/-- Render one template. Without force a missing generated file is the result's failure. -/
def renderFile (c : Config) (force : Bool) (template : Path) : Task FileResult := do
  let output ← Task.ofExcept (c.outputFor template)
  let present ← Task.look (·.isFile output)
  if !force && !present then
    let failure := Failure.missingOutput (c.shown output)
    Task.note (.outputMissing failure)
    pure ⟨template, output, false, false, some failure⟩
  else
    let text ← Task.readOnly fun files => compileFile files template
    let (created, unchanged) ← putOutput output text
    let notice : String → String → Notice := if created then .created else .updated
    Task.note (notice (c.shown template) (c.shown output))
    pure ⟨template, output, created, unchanged, none⟩

/-- Render one template; its failure becomes part of the result. Only a
template without a place for its generated file stops the build. -/
def tryRenderFile (c : Config) (force : Bool) (template : Path) : Task FileResult := do
  match ← (renderFile c force template).attempt with
  | .ok r => pure r
  | .error f =>
    Task.note (.renderFailed (c.shown template) f)
    let output ← Task.ofExcept (c.outputFor template)
    pure ⟨template, output, false, false, some f⟩

/-- Render templates; without a list of them, all that are found. -/
def run (c : Config) (force : Bool) (chosen : Option (List Path)) : Task Report := do
  let deleted ← Orphans.clean c
  let found ← Task.look (Discovery.templates · c)
  let todo := chosen.getD found
  Task.noteIf todo.isEmpty .noTemplates
  let results ← Task.forEach (tryRenderFile c force) todo
  pure ⟨results, deleted⟩

end Build

end DocPress
