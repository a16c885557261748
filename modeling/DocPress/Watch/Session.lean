import DocPress.Build
import DocPress.Dependency
import DocPress.Watch.Queue

/-!
# Watch sessions

A session keeps generated files in step with changing templates. Reported
paths wait in a queue; the ones that matter are collected, and one pass
renders the changed templates, those that depend on changed partials, and
those that still fail. A template that fails stays pending until it renders
or is gone.
-/

set_option autoImplicit false

namespace DocPress.Watch

inductive State where
  | idle
  | accumulating
  | processing
  deriving DecidableEq, Repr

structure Session where
  config : Config
  state : State
  /-- Changed templates and partials that no pass has taken yet. -/
  changes : List Path
  /-- Templates whose last rendering failed. -/
  errors : List Path
  passes : Nat
  queue : Queue
  /-- The directories being observed, once observation has started. -/
  observed : Option (List Path)

namespace Session

def new (c : Config) : Session := ⟨c, .idle, [], [], 0, [], none⟩

def ignore (s : Session) : Ignore := Ignore.ofEntries s.config.ignored

def roots (s : Session) : List Path := s.observed.getD []

/-! ## What matters -/

/-- Whether a changed path matters: a template outside of the output, or,
while templates are pending, a generated file. -/
def qualifies (s : Session) (path : String) : Bool :=
  let p := (Path.ofString path).normal
  if Naming.isOutput path then !s.errors.isEmpty && p.isWithin s.config.output
  else
    Naming.endsWith path Naming.templateSuffix && !p.isWithin s.config.output &&
      !Discovery.isExcluded s.config s.ignore p

def accept (s : Session) (path : String) : Bool × Session :=
  if s.qualifies path then
    (true, { s with
      state := .accumulating
      changes :=
        if Naming.endsWith path Naming.templateSuffix then
          Dependency.addPath s.changes (Path.ofString path).normal
        else s.changes })
  else (false, s)

def notify (s : Session) (path : String) : Session := { s with queue := s.queue.put path }

def collect (s : Session) : List String × Session :=
  let (c, t) := Queue.collect (fun (s : Session) p =>
    let (accepted, s) := s.accept p
    (accepted, [], s)) s.queue.length s s.queue
  (c.batch, { t with queue := c.rest })

/-! ## Passes -/

def dependentsOf (c : Config) (m : Dependency.Map) (p : Path) : Task (List Path) := do
  if p.hasNul then Task.fail .nulInPath
  else
    let dependents := m.get p.real
    Task.noteIf (!dependents.isEmpty) (.partialChanged (c.shown p) dependents.length)
    pure (Path.sort dependents)

def affectedByPartials (c : Config) (partials : List Path) : Task (List Path) := do
  if partials.isEmpty then pure []
  else
    let m ← Task.readOnly fun files =>
      Dependency.ofTemplates files (Discovery.templates files c)
    List.flatten <$> Task.forEach (dependentsOf c m) partials

/-- The templates to render after some changes, each once: changed ones,
dependents of changed partials, pending ones. -/
def affected (s : Session) (changes : List Path) : Task (List Path) := do
  let changes := Path.sort changes
  let existing ← Task.look fun files =>
    changes.filter fun p => Naming.isTemplate p.toString && files.isFile p
  let dependents ← affectedByPartials s.config (changes.filter (Naming.isPartial ·.toString))
  pure ((existing ++ dependents ++ Path.sort s.errors).foldl Dependency.addPath [])

def record (s : Session) (r : FileResult) : Session :=
  { s with
    errors := if r.isOk then s.errors.filter (· != r.template)
      else Dependency.addPath s.errors r.template }

def renderEach : Session → List Path → Task (Session × Except Failure (List FileResult))
  | s, [] => pure (s, .ok [])
  | s, t :: ts => do
    match ← (Build.tryRenderFile s.config false t).attempt with
    | .error f => pure (s, .error f)
    | .ok r =>
      let (s, rest) ← renderEach (s.record r) ts
      pure (s, rest.map (r :: ·))

def passNotice (s : Session) : Notice :=
  if s.errors.isEmpty then .allOk else .pendingErrors s.errors.length

def pass (s : Session) (templates : List Path) :
    Task (Session × Except Failure (Option Report)) := do
  let (s, results) ← s.renderEach templates
  match results with
  | .error f => pure ({ s with state := .idle }, .error f)
  | .ok results =>
    match ← (Orphans.clean s.config).attempt with
    | .error f => pure ({ s with state := .idle }, .error f)
    | .ok deleted =>
      let s := { s with state := .idle, passes := s.passes + 1 }
      Task.noteIf (!templates.isEmpty) s.passNotice
      pure (s, .ok (some ⟨results, deleted⟩))

/-- One pass over what is pending; nothing when nothing is. The pending
changes are taken even when the pass fails. -/
def process (s : Session) : Task (Session × Except Failure (Option Report)) := do
  let errors ← Task.look fun files => s.errors.filter files.isFile
  let s := { s with errors := errors }
  if s.changes.isEmpty && s.errors.isEmpty then pure ({ s with state := .idle }, .ok none)
  else
    let changes := s.changes
    let s := { s with changes := [] }
    match ← (s.affected changes).attempt with
    | .error f => pure ({ s with state := .idle }, .error f)
    | .ok templates => s.pass templates

def pump (s : Session) : Task (Session × Except Failure (Option Report)) :=
  let (batch, s) := s.collect
  if batch.isEmpty then pure (s, .ok none) else s.process

/-! ## Start and stop -/

def initialBuild (s : Session) : Task (Session × Report) := do
  let report ← Build.run s.config false none
  Task.noteIf (!report.results.isEmpty) (.summary report.isOk report.summary)
  let failed := report.failed.map FileResult.template
  pure ({ s with errors := failed.foldl Dependency.addPath s.errors }, report)

/-- The directories to observe. The output needs no observation of its own
inside the templates, and can have none before it exists. -/
def wantedRoots (c : Config) : Task (List Path) := do
  if c.output.isWithin c.templates then pure [c.templates]
  else if ← Task.look (·.isDirectory c.output) then pure [c.templates, c.output]
  else
    Task.note (.outputRootMissing c.output)
    pure [c.templates]

def start (s : Session) : Task (Session × Report × List Path) := do
  Task.note .watchStarted
  let (s, report) ← s.initialBuild
  let wanted ← wantedRoots s.config
  let fresh := (wanted.foldl Dependency.addPath []).filter fun p => !s.roots.contains p
  Task.note .watching
  pure ({ s with observed := some (s.roots ++ fresh) }, report, fresh)

def stop (s : Session) : Session := { s with observed := none }

def pumpEach : Session → List (List String) → Task (Session × Except Failure (List (Option Report)))
  | s, [] => pure (s, .ok [])
  | s, batch :: batches => do
    let (s, report) ← (batch.foldl notify s).pump
    match report with
    | .error f => pure (s, .error f)
    | .ok report =>
      let (s, rest) ← s.pumpEach batches
      pure (s, rest.map (report :: ·))

def run (s : Session) (batches : List (List String)) :
    Task (Session × Except Failure (List (Option Report))) := do
  let (s, _) ← s.start
  let (s, reports) ← s.pumpEach batches
  match reports with
  | .error f => pure (s.stop, .error f)
  | .ok reports =>
    Task.note .watchStopping
    pure (s.stop, .ok reports)

end Session

end DocPress.Watch
