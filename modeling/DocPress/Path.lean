import DocPress.Text.Blank

/-!
# Paths

A path is an anchor and the names after it. Reading a path drops empty
names and single dots; double dots stay until the path is normalised. Two
slashes at the start are an anchor of their own.
-/

set_option autoImplicit false

namespace DocPress

inductive Anchor where
  | relative
  | root
  | doubleRoot
  deriving DecidableEq, Repr, Inhabited

structure Path where
  anchor : Anchor
  parts : List String
  deriving DecidableEq, Repr, Inhabited

namespace Path

def Anchor.text : Anchor → String
  | .relative => ""
  | .root => "/"
  | .doubleRoot => "//"

def splitOn (sep : Char) : List Char → List (List Char)
  | [] => [[]]
  | c :: r =>
    if c = sep then [] :: splitOn sep r
    else
      match splitOn sep r with
      | [] => [[c]]
      | p :: ps => (c :: p) :: ps

def isName (p : List Char) : Bool := p != [] && p != ['.']

def names (s : List Char) : List String :=
  ((splitOn '/' s).filter isName).map String.ofList

def ofString (s : String) : Path :=
  match s.toList with
  | '/' :: '/' :: '/' :: r => ⟨.root, names r⟩
  | '/' :: '/' :: r => ⟨.doubleRoot, names r⟩
  | '/' :: r => ⟨.root, names r⟩
  | r => ⟨.relative, names r⟩

def toString (p : Path) : String :=
  if p.anchor = .relative ∧ p.parts = [] then "."
  else Anchor.text p.anchor ++ "/".intercalate p.parts

instance : ToString Path := ⟨Path.toString⟩

/-- The second path as seen from the first; an anchored one stands for itself. -/
def join (p q : Path) : Path :=
  match q.anchor with
  | .relative => ⟨p.anchor, p.parts ++ q.parts⟩
  | _ => q

instance : Append Path := ⟨join⟩

/-- Walk up at double dots, stopping at the root. -/
def normalParts (parts : List String) : List String :=
  parts.foldl (fun done name => if name = ".." then done.dropLast else done ++ [name]) []

def absolute (cwd : Path) (p : Path) : Path :=
  let q := cwd ++ p
  ⟨if q.anchor = .relative then .root else q.anchor, normalParts q.parts⟩

def hasNul (p : Path) : Bool := p.parts.any fun name => name.toList.contains '\x00'

def resolved (cwd : Path) (p : Path) : Path := ⟨.root, (absolute cwd p).parts⟩

def rootDirectory : Path := ⟨.root, []⟩

def normal (p : Path) : Path := absolute rootDirectory p

def real (p : Path) : Path := resolved rootDirectory p

def name (p : Path) : String := p.parts.getLast?.getD ""

def parent (p : Path) : Path := ⟨p.anchor, p.parts.dropLast⟩

def below? (p root : Path) : Option (List String) :=
  if p.anchor = root.anchor ∧ root.parts.isPrefixOf p.parts then
    some (p.parts.drop root.parts.length)
  else none

def isWithin (p root : Path) : Bool := (p.below? root).isSome

def stepsFrom : List String → List String → List String
  | s :: start, t :: target => if s = t then stepsFrom start target else
      (s :: start).map (fun _ => "..") ++ t :: target
  | start, target => start.map (fun _ => "..") ++ target

def relativeTo (p start : Path) : Path := ⟨.relative, stepsFrom start.parts p.parts⟩

def sortKey (p : Path) : List String :=
  match p.anchor with
  | .relative => p.parts
  | a => Anchor.text a :: p.parts

def namesLe : List String → List String → Bool
  | [], _ => true
  | _ :: _, [] => false
  | a :: as, b :: bs => if a = b then namesLe as bs else decide (a < b)

def le (p q : Path) : Bool := namesLe p.sortKey q.sortKey

def sort (ps : List Path) : List Path := ps.mergeSort le

end Path

end DocPress
