import DocPress.FileTree

/-!
# Differences of file trees

What has to be done to one tree of files to make it another: directories to
make, files to write, and files and directories to remove, the deepest
directories first.
-/

set_option autoImplicit false

namespace DocPress.FileTree

structure Difference where
  made : List (List String)
  written : List (List String × ByteArray)
  deleted : List (List String)
  removed : List (List String)

def holds (t : FileTree) (names : List String) (bytes : ByteArray) : Bool :=
  match t.find? names with
  | some (.file b) => b == bytes
  | _ => false

def hasFile (t : FileTree) (names : List String) : Bool :=
  match t.find? names with
  | some (.file _) => true
  | _ => false

def hasDirectory (t : FileTree) (names : List String) : Bool :=
  match t.find? names with
  | some (.directory _) => true
  | _ => false

def difference (before after : FileTree) : Difference where
  made := after.directories.filter fun names => !before.hasDirectory names
  written := after.files.filter fun f => !before.holds f.1 f.2
  deleted := (before.files.map (·.1)).filter fun names => !after.hasFile names
  removed := (before.directories.filter fun names => !after.hasDirectory names).reverse

def Difference.files (d : Difference) : List (List String) := d.written.map (·.1) ++ d.deleted

end DocPress.FileTree
