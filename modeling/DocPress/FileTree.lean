import DocPress.Path
import DocPress.Text.Newline

/-!
# File trees

The files a project consists of: a directory holds entries by name, a file
holds bytes. A path is followed from the root as the system follows it, so
a double dot after a name needs that name to be a directory. Looking at a
path says whether it leads to an entry, to nothing, or through a file.
-/

set_option autoImplicit false

namespace DocPress

inductive FileTree where
  | file (bytes : ByteArray)
  | directory (entries : List (String × FileTree))
  deriving Inhabited

namespace FileTree

abbrev Entries := List (String × FileTree)

def empty : FileTree := .directory []

def isFileEntry : FileTree → Bool
  | .file _ => true
  | .directory _ => false

def entries : FileTree → Entries
  | .file _ => []
  | .directory es => es

def find? : FileTree → List String → Option FileTree
  | t, [] => some t
  | .file _, _ :: _ => none
  | .directory es, name :: rest =>
    match es.lookup name with
    | some t => find? t rest
    | none => none

inductive Access where
  | entry (names : List String) (t : FileTree)
  | missing
  | throughFile
  deriving Inhabited

/-- Follow names, some of them double dots, from the directory that `done` leads to. -/
def follow (root : FileTree) : List String → List String → Access
  | done, [] =>
    match root.find? done with
    | some t => .entry done t
    | none => .missing
  | done, name :: rest =>
    match root.find? done with
    | none => .missing
    | some (.file _) => .throughFile
    | some (.directory es) =>
      if name = ".." then follow root done.dropLast rest
      else
        match es.lookup name with
        | none => .missing
        | some _ => follow root (done ++ [name]) rest

def access (root : FileTree) (p : Path) : Access := follow root [] p.parts

def isFile (root : FileTree) (p : Path) : Bool :=
  match root.access p with
  | .entry _ (.file _) => true
  | _ => false

def isDirectory (root : FileTree) (p : Path) : Bool :=
  match root.access p with
  | .entry _ (.directory _) => true
  | _ => false

def exists? (root : FileTree) (p : Path) : Bool :=
  match root.access p with
  | .entry _ _ => true
  | _ => false

def setEntry (es : Entries) (name : String) (t : FileTree) : Entries :=
  match es with
  | [] => [(name, t)]
  | (n, u) :: es => if n = name then (n, t) :: es else (n, u) :: setEntry es name t

/-- Put an entry at a place; directories on the way are made. -/
def insert : FileTree → List String → FileTree → FileTree
  | _, [], new => new
  | t, name :: rest, new =>
    let es := t.entries
    .directory (setEntry es name (insert ((es.lookup name).getD empty) rest new))

def remove : FileTree → List String → FileTree
  | t, [] => t
  | .file b, _ => .file b
  | .directory es, [name] => .directory (es.filter fun e => e.1 != name)
  | .directory es, name :: rest =>
    match es.lookup name with
    | some t => .directory (setEntry es name (remove t rest))
    | none => .directory es

def ensureDirectory (t : FileTree) (names : List String) : FileTree :=
  match t.find? names with
  | some _ => t
  | none => t.insert names empty

mutual

def files : FileTree → List (List String × ByteArray)
  | .file b => [([], b)]
  | .directory es => filesOf es

def filesOf : Entries → List (List String × ByteArray)
  | [] => []
  | (name, t) :: es => (files t).map (fun f => (name :: f.1, f.2)) ++ filesOf es

end

mutual

def directories : FileTree → List (List String)
  | .file _ => []
  | .directory es => directoriesOf es

def directoriesOf : Entries → List (List String)
  | [] => []
  | (name, t) :: es =>
    (if t.isFileEntry then [] else [name] :: (directories t).map (name :: ·)) ++ directoriesOf es

end

def readText? (bytes : ByteArray) : Option String :=
  (String.fromUTF8? bytes).map fun s => String.ofList (Text.unifyNewlines s.toList)

end FileTree

end DocPress
