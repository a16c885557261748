import DocPress.FileTree.Loading
import DocPress.Proofs.Path

/-!
# Looking a path up

Following a real path is looking its names up one after the other. A path that
leads to an entry leads to the one that its real form names, so a file is
known by its real path, and reading it yields the bytes found there.
-/

set_option autoImplicit false

namespace DocPress.FileTree

theorem find?_file_cons (b : ByteArray) (name : String) (rest : List String) :
    (FileTree.file b).find? (name :: rest) = none := rfl

theorem find?_directory_cons (es : Entries) (name : String) (rest : List String) :
    (FileTree.directory es).find? (name :: rest) =
      (es.lookup name).bind fun t => t.find? rest := by
  rw [find?]
  cases es.lookup name <;> rfl

@[simp] theorem find?_nil (t : FileTree) : t.find? [] = some t := by
  cases t <;> rfl

theorem find?_append (t : FileTree) (a b : List String) :
    t.find? (a ++ b) = (t.find? a).bind fun u => u.find? b := by
  induction a generalizing t with
  | nil => simp
  | cons name a ih =>
    cases t with
    | file bytes => rfl
    | directory es =>
      rw [List.cons_append, find?_directory_cons, find?_directory_cons]
      cases es.lookup name with
      | none => rfl
      | some u => exact ih u

theorem mem_of_lookup {es : Entries} {name : String} {t : FileTree}
    (h : es.lookup name = some t) : (name, t) ∈ es := by
  obtain ⟨front, back, rfl, -⟩ := List.lookup_eq_some_iff.1 h
  simp

/-! ## Following names -/

theorem find?_of_follow {root t : FileTree} {done rest names : List String}
    (h : follow root done rest = .entry names t) :
    names = rest.foldl Path.walkName done ∧ root.find? names = some t := by
  fun_induction follow root done rest with
  | case1 done u hu =>
    obtain ⟨rfl, rfl⟩ := Access.entry.inj h
    exact ⟨rfl, hu⟩
  | case2 | case3 | case4 | case6 => cases h
  | case5 done rest es hd ih =>
    obtain ⟨h1, h2⟩ := ih h
    exact ⟨by rw [h1]; rfl, h2⟩
  | case7 done name rest es hd hn u hu ih =>
    obtain ⟨h1, h2⟩ := ih h
    exact ⟨by rw [h1, List.foldl_cons, Path.walkName, if_neg hn], h2⟩

theorem follow_of_find? {root t : FileTree} {done rest : List String} (hp : ".." ∉ rest)
    (h : root.find? (done ++ rest) = some t) : follow root done rest = .entry (done ++ rest) t := by
  induction rest generalizing done with
  | nil =>
    rw [List.append_nil] at h
    rw [follow, h, List.append_nil]
  | cons name rest ih =>
    simp only [List.mem_cons, not_or] at hp
    have hsplit := h
    rw [find?_append] at hsplit
    obtain ⟨u, hu, hrest⟩ := Option.bind_eq_some_iff.1 hsplit
    cases u with
    | file b => cases hrest
    | directory es =>
      rw [find?_directory_cons] at hrest
      obtain ⟨v, hv, -⟩ := Option.bind_eq_some_iff.1 hrest
      have hnext := @ih (done ++ [name]) hp.2 (by simpa using h)
      rw [follow, hu]
      simp only [if_neg (fun e => hp.1 (Eq.symm e)), hv]
      simpa using hnext

theorem access_eq_entry_iff {root t : FileTree} {p : Path} (hp : p.IsReal) (names : List String) :
    root.access p = .entry names t ↔ names = p.parts ∧ root.find? p.parts = some t := by
  constructor
  · intro h
    obtain ⟨h1, h2⟩ := find?_of_follow h
    rw [Path.foldl_walkName_of_plain _ _ hp.2, List.nil_append] at h1
    exact ⟨h1, h1 ▸ h2⟩
  · rintro ⟨rfl, h⟩
    exact follow_of_find? hp.2 h

/-! ## The content of a file -/

def content? (root : FileTree) (p : Path) : Option ByteArray :=
  match root.access p with
  | .entry _ (.file b) => some b
  | _ => none

theorem isFile_eq_isSome (root : FileTree) (p : Path) :
    root.isFile p = (root.content? p).isSome := by
  unfold isFile content?
  split <;> simp_all

theorem content?_eq_some_iff {root : FileTree} {p : Path} {b : ByteArray} :
    root.content? p = some b ↔ ∃ names, root.access p = .entry names (.file b) := by
  unfold content?
  split
  · rename_i names c h
    simp [h]
  · rename_i h
    simp only [reduceCtorEq, false_iff, not_exists]
    exact fun names hn => h names b hn

theorem isFile_iff {root : FileTree} {p : Path} :
    root.isFile p = true ↔ ∃ b, root.content? p = some b := by
  rw [isFile_eq_isSome, Option.isSome_iff_exists]

theorem content?_of_real {root : FileTree} {p : Path} (hp : p.IsReal) (b : ByteArray) :
    root.content? p = some b ↔ root.find? p.parts = some (.file b) := by
  rw [content?_eq_some_iff]
  constructor
  · rintro ⟨names, h⟩
    exact ((access_eq_entry_iff hp names).1 h).2
  · exact fun h => ⟨p.parts, (access_eq_entry_iff hp _).2 ⟨rfl, h⟩⟩

theorem isFile_of_real {root : FileTree} {p : Path} (hp : p.IsReal) :
    root.isFile p = true ↔ ∃ b, root.find? p.parts = some (.file b) := by
  simp only [isFile_iff, content?_of_real hp]

theorem content?_real {root : FileTree} {p : Path} {b : ByteArray} (h : root.content? p = some b) :
    root.content? p.real = some b := by
  obtain ⟨names, hn⟩ := content?_eq_some_iff.1 h
  obtain ⟨h1, h2⟩ := find?_of_follow hn
  rw [content?_of_real p.isReal_real, Path.real_parts, Path.normalParts_eq_foldl, ← h1]
  exact h2

theorem isFile_real {root : FileTree} {p : Path} (h : root.isFile p = true) :
    root.isFile p.real = true := by
  obtain ⟨b, hb⟩ := isFile_iff.1 h
  exact isFile_iff.2 ⟨b, content?_real hb⟩

theorem find?_dropLast {root : FileTree} {names : List String} {es : Entries}
    (h : root.find? names = some (.directory es)) :
    ∃ fs, root.find? names.dropLast = some (.directory fs) := by
  rcases List.eq_nil_or_concat names with rfl | ⟨front, name, rfl⟩
  · exact ⟨es, h⟩
  · rw [List.concat_eq_append, find?_append] at h
    obtain ⟨u, hu, hrest⟩ := Option.bind_eq_some_iff.1 h
    rw [List.concat_eq_append, List.dropLast_concat, hu]
    cases u with
    | file b => cases hrest
    | directory fs => exact ⟨fs, rfl⟩

theorem directory_of_follow_up {root t : FileTree} {done front names : List String}
    (h : follow root done (front ++ [".."]) = .entry names t) : ∃ es, t = .directory es := by
  induction front generalizing done with
  | nil =>
    simp only [List.nil_append, follow] at h
    split at h
    · cases h
    · cases h
    · rename_i es hd
      obtain ⟨fs, hfs⟩ := find?_dropLast hd
      simp only [if_pos, hfs] at h
      exact ⟨fs, (Access.entry.inj h).2.symm⟩
  | cons name front ih =>
    simp only [List.cons_append, follow] at h
    split at h
    · cases h
    · cases h
    · split at h
      · exact ih h
      · split at h
        · cases h
        · exact ih h

/-- What ends by walking up is no file. -/
theorem getLast?_of_isFile {root : FileTree} {p : Path} (h : root.isFile p = true) :
    p.parts.getLast? ≠ some ".." := by
  intro hl
  obtain ⟨b, hb⟩ := isFile_iff.1 h
  obtain ⟨names, hn⟩ := content?_eq_some_iff.1 hb
  obtain ⟨front, hp⟩ := List.getLast?_eq_some_iff.1 hl
  rw [access, hp] at hn
  obtain ⟨es, he⟩ := directory_of_follow_up hn
  cases he

/-! ## Reading -/

theorem loadBytes_of_content {root : FileTree} {p : Path} {b : ByteArray} (hn : p.hasNul = false)
    (h : root.content? p = some b) : root.loadBytes p = .ok b := by
  obtain ⟨names, hnames⟩ := content?_eq_some_iff.1 h
  simp [loadBytes, hn, hnames]

theorem load_of_content {root : FileTree} {p : Path} {b : ByteArray} (hn : p.hasNul = false)
    (h : root.content? p = some b) :
    root.load p = match readText? b with
      | some s => .ok s
      | none => .error (.undecodable p) := by
  rw [load, loadBytes_of_content hn h]
  rfl

theorem load_of_hasNul {root : FileTree} {p : Path} (hn : p.hasNul = true) :
    root.load p = .error .nulInPath := by
  rw [load, loadBytes, if_pos hn]
  rfl

theorem load_of_no_content {root : FileTree} {p : Path} (hn : p.hasNul = false)
    (h : root.content? p = none) : ∃ f, root.load p = .error f ∧ f.isSystem = true := by
  rw [load, loadBytes, if_neg (by simp [hn])]
  unfold content? at h
  split
  · rename_i names b ha
    simp [ha] at h
  · exact ⟨_, rfl, rfl⟩
  · exact ⟨_, rfl, rfl⟩
  · exact ⟨_, rfl, rfl⟩

theorem hasNul_of_load {root : FileTree} {p : Path} {s : String} (h : root.load p = .ok s) :
    p.hasNul = false := by
  cases hn : p.hasNul with
  | false => rfl
  | true =>
    rw [load_of_hasNul hn] at h
    cases h

theorem exists_content_of_load {root : FileTree} {p : Path} {s : String}
    (h : root.load p = .ok s) : ∃ b, root.content? p = some b ∧ readText? b = some s := by
  cases hb : root.content? p with
  | none =>
    obtain ⟨f, hf, -⟩ := load_of_no_content (hasNul_of_load h) hb
    rw [hf] at h
    cases h
  | some b =>
    refine ⟨b, rfl, ?_⟩
    rw [load_of_content (hasNul_of_load h) hb] at h
    cases htext : readText? b with
    | none =>
      rw [htext] at h
      cases h
    | some text =>
      rw [htext] at h
      exact congrArg some (Except.ok.inj h)

theorem isFile_of_load {root : FileTree} {p : Path} {s : String} (h : root.load p = .ok s) :
    root.isFile p = true := by
  obtain ⟨b, hb, -⟩ := exists_content_of_load h
  exact isFile_iff.2 ⟨b, hb⟩

theorem load_congr {root other : FileTree} {p : Path} (h : root.content? p = other.content? p)
    (hf : root.isFile p = true) : root.load p = other.load p := by
  obtain ⟨b, hb⟩ := isFile_iff.1 hf
  cases hn : p.hasNul with
  | true => rw [load_of_hasNul hn, load_of_hasNul hn]
  | false => rw [load_of_content hn hb, load_of_content hn (h ▸ hb)]

def asRead (text : String) : String := String.ofList (Text.unifyNewlines text.toList)

theorem asRead_asRead (text : String) : asRead (asRead text) = asRead text := by
  unfold asRead
  rw [String.toList_ofList,
    Text.unifyNewlines_of_cr_not_mem (Text.cr_not_mem_unifyNewlines text.toList)]

theorem readText?_toUTF8 (text : String) : readText? text.toUTF8 = some (asRead text) := by
  have hdecode : String.fromUTF8? text.toUTF8 = some text := by
    simp only [String.fromUTF8?, String.toUTF8_eq_toByteArray, dif_pos text.isValidUTF8]
    rfl
  rw [readText?, hdecode]
  rfl

theorem asRead_of_load {root : FileTree} {p : Path} {s : String} (h : root.load p = .ok s) :
    asRead s = s := by
  obtain ⟨b, -, hread⟩ := exists_content_of_load h
  obtain ⟨decoded, -, rfl⟩ := Option.map_eq_some_iff.1 hread
  exact asRead_asRead decoded

theorem isFile_congr {root other : FileTree} {p : Path} (h : root.content? p = other.content? p) :
    root.isFile p = other.isFile p := by
  rw [isFile_eq_isSome, isFile_eq_isSome, h]

theorem mem_filesOf {es : Entries} {name : String} {u : FileTree} {f : List String × ByteArray}
    (he : (name, u) ∈ es) (hf : f ∈ u.files) : (name :: f.1, f.2) ∈ filesOf es := by
  induction es with
  | nil => cases he
  | cons e es ih =>
    obtain ⟨n, t⟩ := e
    rw [filesOf, List.mem_append]
    rcases List.mem_cons.1 he with h | h
    · obtain ⟨rfl, rfl⟩ := Prod.mk.inj h
      exact Or.inl (List.mem_map.2 ⟨f, hf, rfl⟩)
    · exact Or.inr (ih h)

theorem mem_files_of_find? {t : FileTree} {names : List String} {b : ByteArray}
    (h : t.find? names = some (.file b)) : (names, b) ∈ t.files := by
  induction names generalizing t with
  | nil =>
    rw [find?_nil] at h
    obtain rfl := Option.some.inj h
    simp [files]
  | cons name names ih =>
    cases t with
    | file bytes => cases h
    | directory es =>
      rw [find?_directory_cons] at h
      obtain ⟨u, hu, hrest⟩ := Option.bind_eq_some_iff.1 h
      rw [files]
      exact mem_filesOf (mem_of_lookup hu) (ih hrest)

/-- What holds of the listed files holds of every path that leads to a file. -/
@[elab_as_elim]
theorem of_isFile {t : FileTree} {P : Path → Prop} {p : Path} (hp : p.IsReal)
    (hf : t.isFile p = true) (h : ∀ f ∈ t.files, P ⟨.root, f.1⟩) : P p := by
  obtain ⟨b, hb⟩ := (isFile_of_real hp).1 hf
  rw [← hp.eta]
  exact h _ (mem_files_of_find? hb)

end DocPress.FileTree
