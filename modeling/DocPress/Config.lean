import DocPress.Failure
import DocPress.Text.Blank

/-!
# Configuration

A project has a directory of templates, a directory for what is generated
from them, a list of paths to leave out, and the time that changes are
collected for. A configuration is read from a mapping; keys may be written
in either of two spellings, and a mapping with any other key is refused.
-/

set_option autoImplicit false

namespace DocPress

structure Config where
  templates : Path
  output : Path
  ignored : List String
  /-- In milliseconds. -/
  debounce : Nat
  deriving Repr, DecidableEq

namespace Config

def fileName : String := "mdr.yaml"

def defaultDebounce : Nat := 100

def templatesKey : String := "templates_dir"

def outputKey : String := "output_dir"

def ignoreKey : String := "ignore"

def debounceKey : String := "debounce_ms"

def keys : List String := [templatesKey, outputKey, ignoreKey, debounceKey]

def canonical (key : String) : String :=
  match key with
  | "templatesDir" => templatesKey
  | "outputDir" => outputKey
  | "debounceMs" => debounceKey
  | key => key

/-- The entries under their canonical keys; no key may be given twice. A key
that is no text is unknown in any case. -/
def canonicalEntries : Attributes → List (Value × Value) → Except ConfigFault Attributes
  | found, [] => .ok found
  | found, (key, v) :: es =>
    match key with
    | .string key =>
      if (Ordered.get? found (canonical key)).isSome then
        .error (.duplicateKey key (canonical key))
      else canonicalEntries (found ++ [(canonical key, v)]) es
    | _ => canonicalEntries found es

def unknownKeys (entries : Attributes) : List String :=
  ((Ordered.keys entries).filter fun key => !keys.contains key).mergeSort fun a b => decide (a ≤ b)

def isText : Value → Bool
  | .string _ => true
  | _ => false

def readIgnored (context : String) (v : Value) : Except ConfigFault (List String) :=
  if !v.isTruthy then .ok []
  else
    match v with
    | .list items =>
      items.mapM fun item =>
        match item with
        | .string s =>
          let s := Text.strip s.toList
          if s.isEmpty then .error (.ignoreBlank context) else .ok (String.ofList s)
        | _ => .error (.ignoreBlank context)
    | _ => .error (.ignoreNotList context)

def readDebounce (context : String) : Value → Except ConfigFault Nat
  | .null => .ok defaultDebounce
  | .int n => if 0 ≤ n then .ok n.toNat else .error (.debounceInvalid context)
  | _ => .error (.debounceInvalid context)

def directory (base : Path) (name : String) : Except Failure Path :=
  let p := base ++ Path.ofString name
  if p.hasNul then .error .nulInPath else .ok p.real

def ofEntries (base : Path) (context : String) (entries : Attributes) : Except Failure Config := do
  let templates := entries.get templatesKey
  let output := entries.get outputKey
  if !templates.isTruthy then throw (.config (.missing context templatesKey))
  if !output.isTruthy then throw (.config (.missing context outputKey))
  match templates, output with
  | .string templates, .string output =>
    let ignored ← (readIgnored context (entries.get ignoreKey)).mapError .config
    let debounce ← (readDebounce context (entries.get debounceKey)).mapError .config
    pure ⟨← directory base templates, ← directory base output, ignored, debounce⟩
  | _, _ => throw (.config (.directoriesNotText context))

def ofValue (base : Path) (context : String) (v : Value) : Except Failure Config :=
  if !v.isTruthy then .error (.config (.missing context templatesKey))
  else
    match v with
    | .mapping es => do
      let entries ← (canonicalEntries [] es).mapError .config
      if es.any fun e => !isText e.1 then throw .wrongType
      match unknownKeys entries with
      | [] => ofEntries base context entries
      | names => throw (.config (.unknownKeys context names))
    | _ => .error (.config (.dataNotMapping context))

def seconds? (c : Config) : Option Binary64 :=
  (Binary64.ofInt? c.debounce).map (·.divNat 1000)

end Config

end DocPress
