import DocPress.Proofs.FileTree.View

/-!
# Proper trees

A tree is proper when it could be on a disk: the entries of a directory have
different names, and each name is one that a path can lead over. The files of a
proper tree are listed once each, and changing entries keeps a tree proper.
-/

set_option autoImplicit false

namespace DocPress

def Path.isEntryName (name : String) : Bool :=
  name != "" && name != "." && name != ".." &&
    name.toList.all fun c => c != '/' && c != '\x00'

namespace FileTree

mutual

/-- Whether the entries of each directory have different names that entries can have. -/
def isProper : FileTree → Bool
  | .file _ => true
  | .directory es => decide (es.map Prod.fst).Nodup && areProper es

def areProper : Entries → Bool
  | [] => true
  | (name, t) :: es => Path.isEntryName name && isProper t && areProper es

end

theorem areProper_iff {es : Entries} :
    areProper es = true ↔ ∀ e ∈ es, Path.isEntryName e.1 = true ∧ e.2.isProper = true := by
  induction es with
  | nil => simp [areProper]
  | cons e es ih =>
    obtain ⟨name, t⟩ := e
    rw [areProper, Bool.and_eq_true, Bool.and_eq_true, ih, List.forall_mem_cons]

theorem isProper_directory {es : Entries} :
    (FileTree.directory es).isProper = true ↔
      (es.map Prod.fst).Nodup ∧ ∀ e ∈ es, Path.isEntryName e.1 = true ∧ e.2.isProper = true := by
  rw [isProper, Bool.and_eq_true, decide_eq_true_iff, areProper_iff]

theorem lookup_of_mem {es : Entries} {name : String} {t : FileTree}
    (h : (es.map Prod.fst).Nodup) (hm : (name, t) ∈ es) : es.lookup name = some t := by
  induction es with
  | nil => cases hm
  | cons e es ih =>
    obtain ⟨n, u⟩ := e
    rw [List.map_cons, List.nodup_cons] at h
    rw [lookup_cons_eq]
    rcases List.mem_cons.1 hm with he | hm
    · obtain ⟨rfl, rfl⟩ := Prod.mk.inj he
      rw [if_pos rfl]
    · have hne : name ≠ n := fun e => h.1 (List.mem_map.2 ⟨_, hm, e⟩)
      rw [if_neg hne, ih h.2 hm]

/-! ## Going down -/

theorem isProper_of_find? {t u : FileTree} {names : List String} (ht : t.isProper = true)
    (h : t.find? names = some u) :
    u.isProper = true ∧ ∀ name ∈ names, Path.isEntryName name = true := by
  induction names generalizing t with
  | nil =>
    obtain rfl := Option.some.inj ((find?_nil t).symm.trans h)
    exact ⟨ht, by simp⟩
  | cons name names ih =>
    cases t with
    | file b => cases h
    | directory es =>
      rw [find?_directory_cons] at h
      obtain ⟨v, hv, hrest⟩ := Option.bind_eq_some_iff.1 h
      obtain ⟨hname, hproper⟩ := (isProper_directory.1 ht).2 _ (mem_of_lookup hv)
      obtain ⟨hu, hnames⟩ := ih hproper hrest
      exact ⟨hu, List.forall_mem_cons.2 ⟨hname, hnames⟩⟩

theorem isEntryName_of_at? {t : FileTree} {names : List String} (ht : t.isProper = true)
    (h : t.at? names ≠ none) : ∀ name ∈ names, Path.isEntryName name = true := by
  rw [Ne, at?_eq_none] at h
  obtain ⟨u, hu⟩ := Option.ne_none_iff_exists'.1 h
  exact (isProper_of_find? ht hu).2

theorem isEntryName_of_isFile {files : FileTree} {p : Path} (hf : files.isProper = true)
    (hp : p.IsReal) (h : files.isFile p = true) :
    ∀ name ∈ p.parts, Path.isEntryName name = true := by
  obtain ⟨b, hb⟩ := (isFile_iff_at? hp).1 h
  exact isEntryName_of_at? hf (by rw [hb]; simp)

mutual

theorem find?_of_mem_files (t : FileTree) (ht : t.isProper = true) {names : List String}
    {b : ByteArray} (h : (names, b) ∈ t.files) : t.find? names = some (.file b) := by
  cases t with
  | file c =>
    obtain ⟨rfl, rfl⟩ := Prod.mk.inj (List.mem_singleton.1 h)
    rfl
  | directory es =>
    obtain ⟨hn, hes⟩ := isProper_directory.1 ht
    rw [files] at h
    obtain ⟨name, u, rest, he, rfl, hu⟩ := find?_of_mem_filesOf es hes h
    rw [find?_directory_cons, lookup_of_mem hn he]
    exact hu

theorem find?_of_mem_filesOf (es : Entries)
    (hes : ∀ e ∈ es, Path.isEntryName e.1 = true ∧ e.2.isProper = true) {names : List String}
    {b : ByteArray} (h : (names, b) ∈ filesOf es) :
    ∃ name u rest, (name, u) ∈ es ∧ names = name :: rest ∧ u.find? rest = some (.file b) := by
  cases es with
  | nil => cases h
  | cons e es =>
    obtain ⟨name, u⟩ := e
    rw [List.forall_mem_cons] at hes
    rw [filesOf, List.mem_append, List.mem_map] at h
    rcases h with ⟨f, hf, he⟩ | h
    · obtain ⟨rfl, rfl⟩ := Prod.mk.inj he
      exact ⟨name, u, f.1, List.mem_cons_self .., rfl, find?_of_mem_files u hes.1.2 hf⟩
    · obtain ⟨m, v, rest, hm, hrest, hv⟩ := find?_of_mem_filesOf es hes.2 h
      exact ⟨m, v, rest, List.mem_cons_of_mem _ hm, hrest, hv⟩

end

theorem mem_files_iff {t : FileTree} (ht : t.isProper = true) {names : List String}
    {b : ByteArray} : (names, b) ∈ t.files ↔ t.at? names = some (.file b) := by
  rw [at?_eq_file]
  exact ⟨find?_of_mem_files t ht, mem_files_of_find?⟩

mutual

theorem nodup_files (t : FileTree) (ht : t.isProper = true) : (t.files.map Prod.fst).Nodup := by
  cases t with
  | file b => exact List.nodup_cons.2 ⟨List.not_mem_nil, List.nodup_nil⟩
  | directory es =>
    obtain ⟨hn, hes⟩ := isProper_directory.1 ht
    exact nodup_filesOf es hn hes

theorem nodup_filesOf (es : Entries) (hn : (es.map Prod.fst).Nodup)
    (hes : ∀ e ∈ es, Path.isEntryName e.1 = true ∧ e.2.isProper = true) :
    ((filesOf es).map Prod.fst).Nodup := by
  cases es with
  | nil => exact List.nodup_nil
  | cons e es =>
    obtain ⟨name, u⟩ := e
    rw [List.map_cons, List.nodup_cons] at hn
    rw [List.forall_mem_cons] at hes
    have hfirst : ((u.files.map fun f => (name :: f.1, f.2)).map Prod.fst).Nodup := by
      have h := nodup_files u hes.1.2
      rw [List.Nodup, List.pairwise_map] at h
      rw [List.map_map, List.Nodup, List.pairwise_map]
      exact h.imp fun hne he => hne (List.cons.inj he).2
    rw [filesOf, List.map_append, List.nodup_append]
    refine ⟨hfirst, nodup_filesOf es hn.2 hes.2, ?_⟩
    -- Files of different entries differ in their first name.
    rintro q hq r hr rfl
    obtain ⟨f, hf, rfl⟩ := List.mem_map.1 hq
    obtain ⟨g, hg, rfl⟩ := List.mem_map.1 hf
    obtain ⟨f', hf', he⟩ := List.mem_map.1 hr
    obtain ⟨m, v, rest, hm, hrest, -⟩ :=
      find?_of_mem_filesOf es hes.2 (show (f'.1, f'.2) ∈ filesOf es from hf')
    rw [he] at hrest
    exact hn.1 (List.mem_map.2 ⟨_, hm, (List.cons.inj hrest).1.symm⟩)

end

/-! ## Changing entries -/

theorem map_fst_setEntry (es : Entries) (name : String) (t : FileTree) :
    (setEntry es name t).map Prod.fst =
      if name ∈ es.map Prod.fst then es.map Prod.fst else es.map Prod.fst ++ [name] := by
  induction es with
  | nil => simp [setEntry]
  | cons e es ih =>
    obtain ⟨n, u⟩ := e
    rw [setEntry]
    by_cases hn : n = name
    · subst hn
      rw [if_pos rfl, if_pos (by simp)]
      rfl
    · rw [if_neg hn, List.map_cons, ih, List.map_cons]
      by_cases hm : name ∈ es.map Prod.fst
      · rw [if_pos hm, if_pos (List.mem_cons_of_mem _ hm)]
      · rw [if_neg hm, if_neg (List.not_mem_cons_of_ne_of_not_mem (fun e => hn e.symm) hm)]
        rfl

theorem mem_of_mem_setEntry {es : Entries} {name : String} {t : FileTree} {e : String × FileTree}
    (h : e ∈ setEntry es name t) : e = (name, t) ∨ e ∈ es := by
  induction es with
  | nil => exact Or.inl (List.mem_singleton.1 h)
  | cons f es ih =>
    obtain ⟨n, u⟩ := f
    rw [setEntry] at h
    split at h
    · rename_i hn
      rcases List.mem_cons.1 h with h | h
      · exact Or.inl (hn ▸ h)
      · exact Or.inr (List.mem_cons_of_mem _ h)
    · rcases List.mem_cons.1 h with h | h
      · exact Or.inr (h ▸ List.mem_cons_self ..)
      · exact (ih h).imp id (List.mem_cons_of_mem _)

theorem isProper_setEntry {es : Entries} {name : String} {t : FileTree}
    (hes : (FileTree.directory es).isProper = true) (hn : Path.isEntryName name = true)
    (ht : t.isProper = true) : (FileTree.directory (setEntry es name t)).isProper = true := by
  rw [isProper_directory] at hes ⊢
  constructor
  · rw [map_fst_setEntry]
    split
    · exact hes.1
    · rename_i hm
      rw [List.nodup_append]
      refine ⟨hes.1, by simp, ?_⟩
      intro a ha b hb e
      exact hm ((List.mem_singleton.1 hb) ▸ e ▸ ha)
  · intro e he
    rcases mem_of_mem_setEntry he with rfl | he
    · exact ⟨hn, ht⟩
    · exact hes.2 e he

theorem isProper_entries {t : FileTree} (ht : t.isProper = true) :
    (FileTree.directory t.entries).isProper = true := by
  cases t with
  | file b => rfl
  | directory es => exact ht

theorem isProper_insert {t : FileTree} {names : List String} {new : FileTree}
    (ht : t.isProper = true) (hn : ∀ name ∈ names, Path.isEntryName name = true)
    (hnew : new.isProper = true) : (t.insert names new).isProper = true := by
  induction names generalizing t with
  | nil => exact hnew
  | cons name names ih =>
    rw [List.forall_mem_cons] at hn
    rw [insert]
    refine isProper_setEntry (isProper_entries ht) hn.1 (ih ?_ hn.2)
    cases hl : t.entries.lookup name with
    | none => rfl
    | some u => exact ((isProper_directory.1 (isProper_entries ht)).2 _ (mem_of_lookup hl)).2

theorem isProper_remove {t : FileTree} {names : List String} (ht : t.isProper = true) :
    (t.remove names).isProper = true := by
  induction names generalizing t with
  | nil => cases t <;> exact ht
  | cons name names ih =>
    cases t with
    | file b => cases names <;> exact ht
    | directory es =>
      obtain ⟨hn, hes⟩ := isProper_directory.1 ht
      cases names with
      | nil =>
        rw [remove, isProper_directory]
        exact ⟨hn.sublist (List.filter_sublist.map _),
          fun e he => hes e (List.mem_filter.1 he).1⟩
      | cons m names =>
        rw [remove]
        · split
          · rename_i u hu
            obtain ⟨hname, hproper⟩ := hes _ (mem_of_lookup hu)
            exact isProper_setEntry ht hname (ih hproper)
          · exact ht
        · simp

end FileTree

end DocPress
