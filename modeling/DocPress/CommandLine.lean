import DocPress.Config.Loading
import DocPress.Text.Word
import DocPress.Watch.Session

/-!
# The command line

Options come first, then a command; after the command only a request for
help is understood. A long option may be shortened as long as it stays
unambiguous, and a value may be attached to it with an equals sign. Short
options may be joined. Requests for help or the version are answered as soon
as they are met; everything that is not understood is a misuse.
-/

set_option autoImplicit false

namespace DocPress.CommandLine

inductive Command where
  | render
  | watch
  | push
  deriving DecidableEq, Repr

def command? : String → Option Command
  | "render" => some .render
  | "watch" => some .watch
  | "push" => some .push
  | _ => none

inductive Choice where
  | help
  | version
  | config
  | verbose
  deriving DecidableEq, Repr

abbrev Options := List (String × Choice)

def options : Options :=
  [("-h", .help), ("--help", .help), ("-v", .version), ("--version", .version),
    ("--config", .config), ("--verbose", .verbose)]

def commandOptions : Options := [("-h", .help), ("--help", .help)]

inductive Argument where
  | positional
  | unknown
  | ambiguous
  | option (choice : Choice) (isLong : Bool) (attached : Option (List Char))
  deriving DecidableEq, Repr

/-! ## Single arguments -/

def splitEquals (s : List Char) : List Char × Option (List Char) :=
  let before := s.takeWhile (· != '=')
  (before, if before.length < s.length then some (s.drop (before.length + 1)) else none)

def isNegativeNumber (s : List Char) : Bool :=
  match s with
  | '-' :: r =>
    match r.dropWhile Text.isDecimalDigit with
    | [] => !r.isEmpty
    | '.' :: ds => !ds.isEmpty && ds.all Text.isDecimalDigit
    | _ => false
  | _ => false

def isLong (s : List Char) : Bool := ['-', '-'].isPrefixOf s

/-- The options that a shortened or joined argument may mean. -/
def candidates (os : Options) (s : List Char) : List Argument :=
  if isLong s then
    let (before, attached) := splitEquals s
    (os.filter fun o => before.isPrefixOf o.1.toList).map fun o => .option o.2 true attached
  else
    (os.filter fun o => o.1.toList == s.take 2).map fun o => .option o.2 false (some (s.drop 2))

def inFull? (os : Options) (s : List Char) : Option Argument :=
  match os.lookup (String.ofList s) with
  | some choice => some (.option choice (isLong s) none)
  | none =>
    match splitEquals s with
    | (before, some attached) =>
      (os.lookup (String.ofList before)).map fun choice =>
        .option choice (isLong before) (some attached)
    | _ => none

def classify (os : Options) (s : List Char) : Argument :=
  if s.head? != some '-' || s == ['-'] then .positional
  else
    match inFull? os s with
    | some a => a
    | none =>
      match candidates os s with
      | [a] => a
      | _ :: _ :: _ => .ambiguous
      | [] => if isNegativeNumber s || s.contains ' ' then .positional else .unknown

/-- Whether an option that takes no value stands alone or is joined with others only. -/
def isPlain (os : Options) (isLong : Bool) : Option (List Char) → Bool
  | none => true
  | some joined =>
    !isLong && !joined.isEmpty &&
      joined.all fun c => (os.lookup (String.ofList ['-', c])).isSome

/-! ## Requests -/

structure Invocation where
  command : Command
  config : Option String
  isVerbose : Bool
  deriving DecidableEq, Repr

inductive Request where
  | run (i : Invocation)
  | help
  | version
  | misuse
  deriving DecidableEq, Repr

def afterCommand (request : Request) : List String → Request
  | [] => request
  | a :: as =>
    if a = "--" then .misuse
    else
      match classify commandOptions a.toList with
      | .option _ isLong attached =>
        if isPlain commandOptions isLong attached then .help else .misuse
      | _ => afterCommand .misuse as

/-- Go through the arguments: the chosen configuration, whether to be verbose,
and whether all so far was understood. -/
def request (config : Option String) (isVerbose understood : Bool) : List String → Request
  | [] => .misuse
  | a :: as =>
    if a = "--" then .misuse
    else
      match classify options a.toList with
      | .ambiguous => .misuse
      | .unknown => request config isVerbose false as
      | .positional =>
        match command? a with
        | none => .misuse
        | some c => afterCommand (if understood then .run ⟨c, config, isVerbose⟩ else .misuse) as
      | .option .config _ (some value) =>
        request (some (String.ofList value)) isVerbose understood as
      | .option .config _ none =>
        match as with
        | value :: as =>
          if value != "--" && classify options value.toList == .positional then
            request (some value) isVerbose understood as
          else .misuse
        | [] => .misuse
      | .option choice isLong attached =>
        if !isPlain options isLong attached then .misuse
        else
          match choice with
          | .help => .help
          | .version => .version
          | _ => request config true understood as

def hasAmbiguous (args : List String) : Bool :=
  (args.takeWhile (· != "--")).any fun a => classify options a.toList == .ambiguous

def parse (args : List String) : Request :=
  if hasAmbiguous args then .misuse else request none false true args

/-! ## Running -/

def versionText : String := "mdr 0.1.0\n"

def usageText : String :=
  "usage: mdr [-h] [-v] [--config PATH] [--verbose] \x7brender,watch,push\x7d\n\n" ++
    "Render .mdoc templates to Markdown (.g.md)\n\n" ++
    "  render         render all templates whose generated file exists\n" ++
    "  watch          render again whenever a template changes\n" ++
    "  push           render all templates, creating missing generated files\n\n" ++
    "  -h, --help     show this text\n" ++
    "  -v, --version  show the version\n" ++
    "  --config PATH  configuration file (default: ./mdr.yaml)\n" ++
    "  --verbose      show debugging notices\n"

structure Exit where
  code : Nat
  output : String
  /-- The failure that ended it. -/
  failure : Option Failure
  deriving Repr

def configPath (cwd : Path) (i : Invocation) : Path :=
  match i.config with
  | none | some "" => Config.defaultPath cwd
  | some p => cwd ++ Path.ofString p

def ofReport (r : Report) (code : Nat) : Exit := ⟨code, r.summary ++ "\n", none⟩

def runCommand (c : Config) : Command → Task Exit
  | .render => do
    let r ← Build.run c false none
    pure (ofReport r (if r.isOk then 0 else 1))
  | .push => do
    let r ← Build.run c true none
    pure (ofReport r 0)
  | .watch => do
    let (_, reports) ← (Watch.Session.new c).run []
    let _ ← Task.ofExcept reports
    pure ⟨0, "", none⟩

/-- Run the program in a working directory. A failure that is the user's
business ends it with a message. -/
def run (cwd : Path) (i : Invocation) : Task Exit := do
  let attempted ← Task.attempt do
    let loaded ← Task.look (Config.load · (configPath cwd i))
    runCommand (← Task.ofExcept loaded) i.command
  match attempted with
  | .ok e => pure e
  | .error f => if f.isOwn then pure ⟨2, "", some f⟩ else Task.fail f

def levelName : Level → String
  | .debug => "DEBUG"
  | .info => "INFO"
  | .warning => "WARNING"
  | .error => "ERROR"

def noticeLine (n : Notice) : String :=
  "[" ++ levelName n.level ++ "] " ++ n.text Failure.message ++ "\n"

def noticeText (isDebugging : Bool) (log : List Notice) : String :=
  String.join ((log.filter fun n => isDebugging || n.level != .debug).map noticeLine)

def failureText (e : Exit) : String :=
  match e.failure with
  | none => ""
  | some f => String.ofList (Text.stripRight f.message.toList) ++ "\n"

end DocPress.CommandLine
