import DocPress.Failure

/-!
# Notices

What the program reports while it works, by cause, with a level. The text
of a notice that names a failure depends on how failures are shown, which
is left to the caller.
-/

set_option autoImplicit false

namespace DocPress

inductive Level where
  | debug
  | info
  | warning
  | error
  deriving DecidableEq, Repr

inductive Notice where
  | keptAsText (fault : Directive.Fault)
  | unclosedTag (source tag : String)
  | closedImplicitly (source tag kind : String)
  | strayClosing (source tag : String)
  | undeclaredAttribute (key tag : String)
  | contentIgnored (tag : String)
  | partialNotFound (path : Path)
  | unknownFunction (name : String)
  | outputMissing (failure : Failure)
  | created (shown output : String)
  | updated (shown output : String)
  | renderFailed (shown : String) (failure : Failure)
  | noTemplates
  | deletionFailed (shown : String) (failure : Failure)
  | deletedOrphan (shown : String)
  | pruningStopped (path : Path) (failure : Failure)
  | unscannable (path : Path) (failure : Failure)
  | watchStarted
  | watching
  | watchStopping
  | outputRootMissing (path : Path)
  | summary (ok : Bool) (text : String)
  | partialChanged (shown : String) (dependents : Nat)
  | pendingErrors (count : Nat)
  | allOk
  deriving Repr, DecidableEq

namespace Notice

def level : Notice → Level
  | .undeclaredAttribute .. | .pruningStopped .. => .debug
  | .keptAsText _ | .unclosedTag .. | .closedImplicitly .. | .strayClosing .. | .contentIgnored _
  | .partialNotFound _ | .unknownFunction _ | .deletionFailed .. | .unscannable ..
  | .outputRootMissing _ => .warning
  | .outputMissing _ | .renderFailed .. | .pendingErrors _ => .error
  | .summary ok _ => if ok then .info else .error
  | _ => .info

def about (source : String) : String := if source = "" then "" else source ++ ": "

def text (showFailure : Failure → String) : Notice → String
  | .keptAsText fault => fault.message ++ "; kept as text"
  | .unclosedTag source tag => about source ++ "Unclosed tag '" ++ tag ++ "'"
  | .closedImplicitly source tag kind =>
    about source ++ "Tag '" ++ tag ++ "' closed implicitly by end of " ++ kind
  | .strayClosing source tag =>
    about source ++ "Closing tag '\x7b% /" ++ tag ++ " %\x7d' without an opening tag"
  | .undeclaredAttribute key tag =>
    "Attribute '" ++ key ++ "' is not declared for tag '" ++ tag ++ "'"
  | .contentIgnored tag => "Tag '" ++ tag ++ "' is self-closing; its content is ignored"
  | .partialNotFound p => "Partial not found: " ++ p.toString
  | .unknownFunction name => "Unknown function '" ++ name ++ "' rendered as empty"
  | .outputMissing failure => "Error: " ++ showFailure failure
  | .created shown output => "Created: " ++ shown ++ " -> " ++ output
  | .updated shown output => shown ++ " -> " ++ output
  | .renderFailed shown failure => "Error rendering " ++ shown ++ ": " ++ showFailure failure
  | .noTemplates => "No .mdoc files found"
  | .deletionFailed shown failure =>
    "Failed to delete orphaned " ++ shown ++ ": " ++ showFailure failure
  | .deletedOrphan shown => "Deleted orphaned: " ++ shown
  | .pruningStopped p failure => "Stopped pruning at " ++ p.toString ++ ": " ++ showFailure failure
  | .unscannable p failure =>
    "Cannot scan " ++ p.toString ++ " for partials: " ++ showFailure failure
  | .watchStarted => "Watch mode started"
  | .watching => "Watching for changes... (press Ctrl+C to stop)"
  | .watchStopping => "Stopping file watcher..."
  | .outputRootMissing p =>
    "Output directory " ++ p.toString ++
      " does not exist; creation of generated files will not be noticed"
  | .summary _ text => text
  | .partialChanged shown n =>
    "Partial changed: " ++ shown ++ " -> " ++ Value.intText n ++ " dependent file(s)"
  | .pendingErrors n => Value.intText n ++ " file(s) pending (missing .g.md or render error)"
  | .allOk => "All ok"

end Notice

end DocPress
