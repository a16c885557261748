import DocPress.Directive.Basic
import DocPress.Path

/-!
# Failures

Everything that can stop the reading of a configuration, the compilation of
a template or an operation on files, by its cause. Some failures are shown
to the user as a message of this program; the others come from outside, such
as a text that is not UTF-8 or a deletion that the system refuses.
-/

set_option autoImplicit false

namespace DocPress

inductive ConfigFault where
  | notFound (file directory : String)
  | unreadable (file : String)
  | notMapping (path : String)
  | duplicateKey (key meaning : String)
  | unknownKeys (context : String) (keys : List String)
  | missing (context key : String)
  | dataNotMapping (context : String)
  | directoriesNotText (context : String)
  | ignoreNotList (context : String)
  | ignoreBlank (context : String)
  | debounceInvalid (context : String)
  deriving Repr, DecidableEq

def ConfigFault.message : ConfigFault → String
  | .notFound file directory =>
    file ++ " not found in " ++ directory ++ "\n\nCreate a config file with at least:\n\n" ++
      "  templates_dir: ./templates\n  output_dir: ./out\n"
  | .unreadable file => "Failed to parse " ++ file
  | .notMapping path => "YAML must be a mapping: " ++ path
  | .duplicateKey key meaning =>
    "Config: duplicate key '" ++ key ++ "' (also given as '" ++ meaning ++ "')"
  | .unknownKeys context keys => context ++ ": unknown key(s): " ++ ", ".intercalate keys
  | .missing context key => context ++ ": " ++ key ++ " is required"
  | .dataNotMapping context => context ++ ": config must be a mapping"
  | .directoriesNotText context => context ++ ": templates_dir and output_dir must be strings"
  | .ignoreNotList context => context ++ ": ignore must be a list of relative paths"
  | .ignoreBlank context => context ++ ": ignore entries must be non-empty strings"
  | .debounceInvalid context => context ++ ": debounce_ms must be a non-negative integer"

inductive Failure where
  | config (fault : ConfigFault)
  | missingAttribute (tag : String) (names : List String) (file : Option Path)
  | cyclicInclusion (chain : List Path)
  | missingOutput (shown : String)
  | directive (fault : Directive.Fault)
  | undecodable (path : Path)
  | nulInPath
  | unencodable
  | noFile (path : Path)
  | isDirectory (path : Path)
  | throughFile (path : Path)
  | alreadyExists (path : Path)
  | notEmpty (path : Path)
  | refused
  | outside (path root : Path)
  | wrongSuffix (suffix path : String)
  | wrongType
  | outOfRange
  | impossibleValue
  deriving Repr, DecidableEq

namespace Failure

/-- The failures that are explained to the user in this program's own words. -/
def isOwn : Failure → Bool
  | .config _ | .missingAttribute .. | .cyclicInclusion _ | .missingOutput _ => true
  | .directive fault => fault.isMalformed
  | _ => false

/-- The failures of the file system, which the scan for partials passes over. -/
def isSystem : Failure → Bool
  | .noFile _ | .isDirectory _ | .throughFile _ | .alreadyExists _ | .notEmpty _ | .refused => true
  | _ => false

def message : Failure → String
  | .config fault => fault.message
  | .missingAttribute tag names file =>
    (match file with
      | some p => p.toString ++ ": "
      | none => "") ++
      "Tag '" ++ tag ++ "' requires attribute(s): " ++ ", ".intercalate names
  | .cyclicInclusion chain =>
    "Circular partial inclusion detected: " ++ " -> ".intercalate (chain.map Path.toString)
  | .missingOutput shown =>
    shown ++ " does not exist. Create it first to enable rendering."
  | .directive fault => fault.message
  | .undecodable p => "not a UTF-8 text: " ++ p.toString
  | .nulInPath => "embedded null byte"
  | .unencodable => "surrogates not allowed"
  | .noFile p => "[Errno 2] No such file or directory: " ++ Text.quoted p.toString
  | .isDirectory p => "[Errno 21] Is a directory: " ++ Text.quoted p.toString
  | .throughFile p => "[Errno 20] Not a directory: " ++ Text.quoted p.toString
  | .alreadyExists p => "[Errno 17] File exists: " ++ Text.quoted p.toString
  | .notEmpty p => "[Errno 39] Directory not empty: " ++ Text.quoted p.toString
  | .refused => "deletion refused"
  | .outside p root =>
    Text.quoted p.toString ++ " is not in the subpath of " ++ Text.quoted root.toString
  | .wrongSuffix suffix p => "Expected a '" ++ suffix ++ "' file, got: " ++ p
  | .wrongType => "value of the wrong type"
  | .outOfRange => "integer out of range"
  | .impossibleValue => "a value that does not exist"

end Failure

end DocPress
