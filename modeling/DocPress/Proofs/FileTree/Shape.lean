import DocPress.Proofs.FileTree.View

/-!
# The shape of a tree

The shape of a tree is the tree with the bytes of its files forgotten. Following
a path, listing files and taking entries out commute with it, so whatever only
does these things treats trees of one shape alike.
-/

set_option autoImplicit false

namespace DocPress.FileTree

mutual

/-- A tree with the bytes of its files forgotten. -/
def shape : FileTree → FileTree
  | .file _ => .file ByteArray.empty
  | .directory es => .directory (shapes es)

def shapes : Entries → Entries
  | [] => []
  | (name, t) :: es => (name, shape t) :: shapes es

end

def Kind.shape : Kind → Kind
  | .directory => .directory
  | .file _ => .file ByteArray.empty

def Access.shape : Access → Access
  | .entry names t => .entry names t.shape
  | .missing => .missing
  | .throughFile => .throughFile

@[simp] theorem shape_file (b : ByteArray) : (FileTree.file b).shape = .file ByteArray.empty := by
  rw [shape]

@[simp] theorem shape_directory (es : Entries) :
    (FileTree.directory es).shape = .directory (shapes es) := by
  rw [shape]

theorem kind_shape (t : FileTree) : t.shape.kind = t.kind.shape := by
  cases t <;> simp [kind, Kind.shape]

/-! ## Looking -/

theorem lookup_shapes (es : Entries) (name : String) :
    (shapes es).lookup name = (es.lookup name).map shape := by
  induction es with
  | nil => rfl
  | cons e es ih =>
    obtain ⟨n, t⟩ := e
    rw [shapes, lookup_cons_eq, lookup_cons_eq, ih]
    split <;> rfl

theorem find?_shape (t : FileTree) (names : List String) :
    t.shape.find? names = (t.find? names).map shape := by
  induction names generalizing t with
  | nil => simp
  | cons name names ih =>
    cases t with
    | file b => simp [find?_file_cons]
    | directory es =>
      rw [shape_directory, find?_directory_cons, find?_directory_cons, lookup_shapes]
      cases es.lookup name with
      | none => rfl
      | some u => exact ih u

theorem at?_shape (t : FileTree) (names : List String) :
    t.shape.at? names = (t.at? names).map Kind.shape := by
  unfold at?
  rw [find?_shape]
  cases t.find? names with
  | none => rfl
  | some u => simp [kind_shape]

theorem follow_shape (root : FileTree) (done rest : List String) :
    follow root.shape done rest = (follow root done rest).shape := by
  induction rest generalizing done with
  | nil =>
    rw [follow, follow, find?_shape]
    cases root.find? done <;> rfl
  | cons name rest ih =>
    rw [follow, follow, find?_shape]
    cases root.find? done with
    | none => rfl
    | some t =>
      cases t with
      | file b => rw [Option.map_some, shape_file]; rfl
      | directory es =>
        rw [Option.map_some, shape_directory]
        simp only
        rw [lookup_shapes]
        split
        · exact ih _
        · cases es.lookup name with
          | none => rfl
          | some u => exact ih _

theorem access_shape (root : FileTree) (p : Path) :
    root.shape.access p = (root.access p).shape := follow_shape root [] p.parts

theorem isFile_shape (root : FileTree) (p : Path) : root.shape.isFile p = root.isFile p := by
  unfold isFile
  rw [access_shape]
  cases root.access p with
  | missing => rfl
  | throughFile => rfl
  | entry names t => cases t <;> simp [Access.shape]

mutual

theorem files_shape (t : FileTree) :
    t.shape.files = t.files.map fun f => (f.1, ByteArray.empty) := by
  cases t with
  | file b => simp [files]
  | directory es =>
    rw [shape_directory, files, files]
    exact filesOf_shapes es

theorem filesOf_shapes (es : Entries) :
    filesOf (shapes es) = (filesOf es).map fun f => (f.1, ByteArray.empty) := by
  cases es with
  | nil => rfl
  | cons e es =>
    obtain ⟨name, t⟩ := e
    rw [shapes, filesOf, filesOf, files_shape t, filesOf_shapes es]
    simp [Function.comp_def]

end

/-! ## Changing -/

theorem shapes_setEntry (es : Entries) (name : String) (t : FileTree) :
    shapes (setEntry es name t) = setEntry (shapes es) name t.shape := by
  induction es with
  | nil => rfl
  | cons e es ih =>
    obtain ⟨n, u⟩ := e
    rw [setEntry, shapes, setEntry]
    split
    · rw [shapes]
    · rw [shapes, ih]

theorem shapes_filter (es : Entries) (name : String) :
    shapes (es.filter fun e => e.1 != name) = (shapes es).filter fun e => e.1 != name := by
  induction es with
  | nil => rfl
  | cons e es ih =>
    obtain ⟨n, u⟩ := e
    rw [shapes, List.filter_cons, List.filter_cons]
    split
    · rw [shapes, ih]
    · exact ih

theorem shape_remove (t : FileTree) (names : List String) :
    (t.remove names).shape = t.shape.remove names := by
  induction names generalizing t with
  | nil => cases t <;> simp [remove]
  | cons name names ih =>
    cases t with
    | file b => cases names <;> simp [remove]
    | directory es =>
      cases names with
      | nil => rw [remove, shape_directory, shape_directory, remove, shapes_filter]
      | cons m names =>
        rw [shape_directory, remove, remove, lookup_shapes]
        · cases es.lookup name with
          | none => exact shape_directory es
          | some u =>
            simp only [Option.map_some, shape_directory]
            rw [shapes_setEntry, ih]
        · simp
        · simp

theorem setEntry_of_lookup {es : Entries} {name : String} {t : FileTree}
    (h : es.lookup name = some t) : setEntry es name t = es := by
  induction es with
  | nil => cases h
  | cons e es ih =>
    obtain ⟨n, u⟩ := e
    rw [lookup_cons_eq] at h
    rw [setEntry]
    by_cases hn : name = n
    · rw [if_pos hn] at h
      rw [if_pos hn.symm, Option.some.inj h]
    · rw [if_neg hn] at h
      rw [if_neg fun e => hn e.symm, ih h]

theorem shape_insert_file {t : FileTree} {names : List String} {b : ByteArray}
    (h : t.at? names = some (.file b)) (new : ByteArray) :
    (t.insert names (.file new)).shape = t.shape := by
  induction names generalizing t with
  | nil =>
    rw [at?_eq_file, find?_nil] at h
    rw [Option.some.inj h]
    simp [insert]
  | cons name names ih =>
    cases t with
    | file c => cases h
    | directory es =>
      rw [at?_directory_cons] at h
      obtain ⟨u, hu, hb⟩ := Option.bind_eq_some_iff.1 h
      rw [insert]
      simp only [entries, hu, Option.getD_some, shape_directory]
      rw [shapes_setEntry, ih hb, setEntry_of_lookup]
      rw [lookup_shapes, hu]
      rfl

end DocPress.FileTree
