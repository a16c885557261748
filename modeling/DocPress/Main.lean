import DocPress.CommandLine
import DocPress.FileTree.Difference

/-!
# The program

Reads the files that a run needs, lets the run change them as a tree in
memory, shows its notices and carries the changes out. A partial outside of
the project's directories is read when a run has looked for it in vain.
While watching, the files are read again at intervals.
-/

set_option autoImplicit false

namespace DocPress.Program

partial def readEntry (e : IO.FS.DirEntry) : IO (String × FileTree) := do
  if ← e.path.isDir then
    let es ← e.path.readDir
    return (e.fileName, .directory (← es.toList.mapM readEntry))
  else return (e.fileName, .file (← IO.FS.readBinFile e.path))

def load (files : FileTree) (p : Path) : IO FileTree := do
  let place := (← IO.currentDir) / p.toString
  if ← place.isDir then
    let es ← place.readDir
    return files.insert p.parts (.directory (← es.toList.mapM readEntry))
  else if ← place.pathExists then
    return files.insert p.parts (.file (← IO.FS.readBinFile place))
  else return files

def project (c : Config) : IO FileTree := do
  load (← load .empty c.templates) c.output

def placeOf (names : List String) : String := "/" ++ "/".intercalate names

def carryOut (before after : FileTree) : IO Unit := do
  let d := before.difference after
  for names in d.deleted do
    IO.FS.removeFile (placeOf names)
  for names in d.removed do
    IO.FS.removeDir (placeOf names)
  for names in d.made do
    IO.FS.createDirAll (placeOf names)
  for (names, bytes) in d.written do
    IO.FS.writeBinFile (placeOf names) bytes

def missed (log : List Notice) : List Path :=
  log.filterMap fun n =>
    match n with
    | .partialNotFound p => some p
    | _ => none

/-- Run a task on files, reading missed partials until none is found; yields
all files that were there before it as well. -/
partial def settle {α : Type} (task : Task α) (files : FileTree) : IO (FileTree × Outcome α) := do
  let o := task ⟨files, []⟩
  let more ← (missed o.log).foldlM load files
  if more.files.length = files.files.length then return (files, o) else settle task more

def perform {α : Type} (isDebugging : Bool) (files : FileTree) (task : Task α) :
    IO (Except Failure α × FileTree) := do
  let (files, o) ← settle task files
  (← IO.getStderr).putStr (CommandLine.noticeText isDebugging o.log)
  carryOut files o.disk.files
  return (o.result, o.disk.files)

def showFailure (f : Failure) : IO UInt32 := do
  (← IO.getStderr).putStr (CommandLine.failureText ⟨2, "", some f⟩)
  return if f.isOwn then 2 else 1

partial def watchOn (isDebugging : Bool) (s : Watch.Session) (files : FileTree) : IO UInt32 := do
  IO.sleep (UInt32.ofNat (max 50 s.config.debounce))
  let current ← project s.config
  let changed := (files.difference current).files.map placeOf
  let (result, current) ← perform isDebugging current (changed.foldl Watch.Session.notify s).pump
  match result with
  | .error f => showFailure f
  | .ok (s, _) => watchOn isDebugging s current

def watch (isDebugging : Bool) (c : Config) : IO UInt32 := do
  let (result, files) ← perform isDebugging (← project c) (Watch.Session.new c).start
  match result with
  | .error f => showFailure f
  | .ok (s, _) => watchOn isDebugging s files

def run (i : CommandLine.Invocation) : IO UInt32 := do
  let isDebugging := i.isVerbose || (← IO.getEnv "MDR_DEBUG").any (· != "")
  let cwd := Path.ofString (← IO.currentDir).toString
  let configuration := (CommandLine.configPath cwd i).real
  let files ← load .empty configuration
  match Config.load files configuration with
  | .error f => showFailure f
  | .ok c =>
    if i.command = .watch then watch isDebugging c
    else
      let files ← load (← project c) configuration
      let (result, _) ← perform isDebugging files (CommandLine.run cwd i)
      match result with
      | .error f => showFailure f
      | .ok e =>
        (← IO.getStdout).putStr e.output
        return UInt32.ofNat e.code

end DocPress.Program

def main (args : List String) : IO UInt32 := do
  match DocPress.CommandLine.parse args with
  | .run i => DocPress.Program.run i
  | .version =>
    (← IO.getStdout).putStr DocPress.CommandLine.versionText
    return 0
  | .help =>
    (← IO.getStdout).putStr DocPress.CommandLine.usageText
    return 0
  | .misuse =>
    (← IO.getStderr).putStr DocPress.CommandLine.usageText
    return 2
