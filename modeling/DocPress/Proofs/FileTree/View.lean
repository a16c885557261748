import DocPress.Proofs.FileTree.Lookup
import DocPress.Task

/-!
# What stands at a place

A tree of files seen from outside: at each place, given by names from the
root, there is a directory, a file with its bytes, or nothing. Changing a tree
is told by what stands at each place afterwards.
-/

set_option autoImplicit false

namespace DocPress.FileTree

inductive Kind where
  | directory
  | file (bytes : ByteArray)

instance : DecidableEq Kind
  | .directory, .directory => isTrue rfl
  | .directory, .file _ => isFalse (by simp)
  | .file _, .directory => isFalse (by simp)
  | .file a, .file b =>
    match ByteArray.instDecidableEq a b with
    | isTrue h => isTrue (congrArg Kind.file h)
    | isFalse h => isFalse (by simpa using h)

def kind : FileTree → Kind
  | .file b => .file b
  | .directory _ => .directory

def at? (t : FileTree) (names : List String) : Option Kind := (t.find? names).map kind

@[simp] theorem at?_nil (t : FileTree) : t.at? [] = some t.kind := by simp [at?]

@[simp] theorem at?_file_cons (b : ByteArray) (name : String) (rest : List String) :
    (FileTree.file b).at? (name :: rest) = none := rfl

theorem at?_directory_cons (es : Entries) (name : String) (rest : List String) :
    (FileTree.directory es).at? (name :: rest) =
      (es.lookup name).bind fun t => t.at? rest := by
  rw [at?, find?_directory_cons]
  cases es.lookup name <;> rfl

theorem at?_cons (t : FileTree) (name : String) (rest : List String) :
    t.at? (name :: rest) = (t.entries.lookup name).bind fun u => u.at? rest := by
  cases t with
  | file b => rfl
  | directory es => exact at?_directory_cons es name rest

theorem at?_eq_file {t : FileTree} {names : List String} {b : ByteArray} :
    t.at? names = some (.file b) ↔ t.find? names = some (.file b) := by
  unfold at?
  cases t.find? names with
  | none => simp
  | some u => cases u <;> simp [kind]

theorem at?_eq_directory {t : FileTree} {names : List String} :
    t.at? names = some .directory ↔ ∃ es, t.find? names = some (.directory es) := by
  unfold at?
  cases t.find? names with
  | none => simp
  | some u => cases u <;> simp [kind]

theorem at?_eq_none {t : FileTree} {names : List String} :
    t.at? names = none ↔ t.find? names = none := by simp [at?]

/-- Above what stands somewhere there are directories. -/
theorem at?_of_append {t : FileTree} {a b : List String} (hb : b ≠ [])
    (h : t.at? (a ++ b) ≠ none) : t.at? a = some .directory := by
  rw [Ne, at?_eq_none, find?_append] at h
  cases hu : t.find? a with
  | none => simp [hu] at h
  | some u =>
    cases u with
    | directory es => exact at?_eq_directory.2 ⟨es, hu⟩
    | file c =>
      cases b with
      | nil => exact absurd rfl hb
      | cons name rest => simp [hu, find?_file_cons] at h

theorem at?_append_of_not_directory {t : FileTree} {a b : List String} (hb : b ≠ [])
    (h : t.at? a ≠ some .directory) : t.at? (a ++ b) = none := by
  cases hn : t.at? (a ++ b) with
  | none => rfl
  | some k => exact absurd (at?_of_append hb (by simp [hn])) h

/-! ## Real paths -/

variable {root : FileTree} {p : Path}

theorem content?_eq_some_iff_at? (hp : p.IsReal) {b : ByteArray} :
    root.content? p = some b ↔ root.at? p.parts = some (.file b) := by
  rw [content?_of_real hp, at?_eq_file]

theorem isFile_iff_at? (hp : p.IsReal) :
    root.isFile p = true ↔ ∃ b, root.at? p.parts = some (.file b) := by
  simp only [isFile_iff, content?_eq_some_iff_at? hp]

theorem access_of_directory (hp : p.IsReal) (h : root.at? p.parts = some .directory) :
    ∃ es, root.access p = .entry p.parts (.directory es) := by
  obtain ⟨es, he⟩ := at?_eq_directory.1 h
  exact ⟨es, (access_eq_entry_iff hp _).2 ⟨rfl, he⟩⟩

theorem exists?_iff_at? (hp : p.IsReal) : root.exists? p = true ↔ root.at? p.parts ≠ none := by
  unfold exists?
  rw [Ne, at?_eq_none]
  split
  · rename_i names t h
    simp [((access_eq_entry_iff hp _).1 h).2]
  · rename_i h
    cases hf : root.find? p.parts with
    | none => simp
    | some t => exact absurd ((access_eq_entry_iff hp p.parts).2 ⟨rfl, hf⟩) (h _ t)

/-- Where following names ends at nothing, no file stands on the way. -/
theorem at?_of_follow_missing {done rest : List String} (hp : ".." ∉ rest)
    (h : follow root done rest = .missing) {a : List String} (ha : a <+: rest) (b : ByteArray) :
    root.at? (done ++ a) ≠ some (.file b) := by
  induction rest generalizing done a with
  | nil =>
    obtain rfl := List.prefix_nil.1 ha
    rw [follow] at h
    rw [List.append_nil, Ne, at?_eq_file]
    intro hf
    rw [hf] at h
    cases h
  | cons name rest ih =>
    simp only [List.mem_cons, not_or] at hp
    rcases a with _ | ⟨m, a⟩
    · rw [List.append_nil, Ne, at?_eq_file]
      intro hf
      rw [follow, hf] at h
      cases h
    · obtain ⟨rfl, htail⟩ := List.cons_prefix_cons.1 ha
      rw [follow] at h
      split at h
      · rename_i hd
        rw [at?_append_of_not_directory (by simp) (by simp [at?_eq_none.2 hd])]
        simp
      · cases h
      · rename_i es hd
        rw [if_neg (fun e => hp.1 (Eq.symm e))] at h
        split at h
        · rename_i hl
          rw [at?, find?_append, hd]
          simp [find?_directory_cons, hl]
        · have hnext := ih hp.2 h htail
          simpa using hnext

/-! ## Changing entries -/

theorem lookup_cons_eq {α β : Type} [BEq α] [LawfulBEq α] [DecidableEq α] (es : List (α × β))
    (m n : α) (u : β) : ((m, u) :: es).lookup n = if n = m then some u else es.lookup n := by
  rw [List.lookup_cons]
  by_cases h : n = m
  · simp [h]
  · rw [if_neg h, show (n == m) = false by simpa using h]

theorem lookup_setEntry (es : Entries) (name n : String) (t : FileTree) :
    (setEntry es name t).lookup n = if n = name then some t else es.lookup n := by
  induction es with
  | nil => rw [setEntry, lookup_cons_eq]
  | cons e es ih =>
    obtain ⟨m, u⟩ := e
    rw [setEntry]
    by_cases hm : m = name
    · subst hm
      rw [if_pos rfl, lookup_cons_eq, lookup_cons_eq]
      split <;> rfl
    · rw [if_neg hm, lookup_cons_eq, lookup_cons_eq, ih]
      by_cases hn : n = m
      · rw [if_pos hn, if_pos hn, if_neg (hn ▸ hm)]
      · rw [if_neg hn, if_neg hn]

theorem lookup_filter_ne (es : Entries) (name n : String) :
    (es.filter fun e => e.1 != name).lookup n = if n = name then none else es.lookup n := by
  induction es with
  | nil => simp
  | cons e es ih =>
    obtain ⟨m, u⟩ := e
    by_cases hm : m = name
    · subst hm
      rw [List.filter_cons_of_neg (by simp), ih, lookup_cons_eq]
      split <;> rfl
    · rw [List.filter_cons_of_pos (by simpa using hm), lookup_cons_eq, lookup_cons_eq, ih]
      by_cases hn : n = m
      · rw [if_pos hn, if_pos hn, if_neg (hn ▸ hm)]
      · rw [if_neg hn, if_neg hn]

/-- After an entry was put at a place, it stands there with directories above it, and everything
beside it is as before. -/
theorem at?_insert (t : FileTree) (names : List String) (new : FileTree) (q : List String) :
    (t.insert names new).at? q =
      if names <+: q then new.at? (q.drop names.length)
      else if q <+: names then some .directory else t.at? q := by
  induction names generalizing t q with
  | nil => simp [insert]
  | cons name rest ih =>
    rw [insert]
    cases q with
    | nil => simp [kind]
    | cons n q =>
      rw [at?_directory_cons, lookup_setEntry, at?_cons t]
      by_cases hn : n = name
      · subst hn
        simp only [if_true, Option.bind_some, ih, List.cons_prefix_cons, true_and,
          List.length_cons, List.drop_succ_cons]
        split
        · rfl
        · split
          · rfl
          · rename_i hq
            cases t.entries.lookup n with
            | some u => rfl
            | none =>
              cases q with
              | nil => simp at hq
              | cons m q => rfl
      · have hn' : ¬name = n := fun e => hn e.symm
        simp [hn, hn', List.cons_prefix_cons]

/-- After a place was emptied, nothing stands there or below it. -/
theorem at?_remove (t : FileTree) {names : List String} (h : names ≠ []) (q : List String) :
    (t.remove names).at? q = if names <+: q then none else t.at? q := by
  induction names generalizing t q with
  | nil => exact absurd rfl h
  | cons name rest ih =>
    cases t with
    | file b =>
      rw [show (FileTree.file b).remove (name :: rest) = .file b by cases rest <;> rfl]
      cases q <;> simp
    | directory es =>
      cases q with
      | nil =>
        have hk : ((FileTree.directory es).remove (name :: rest)).kind = .directory := by
          cases rest with
          | nil => rfl
          | cons m rest =>
            rw [remove]
            · split <;> rfl
            · simp
        rw [at?_nil, at?_nil, hk, if_neg (by simp)]
        rfl
      | cons n q =>
        have hsame : n ≠ name → ((FileTree.directory es).remove (name :: rest)).at? (n :: q) =
            (FileTree.directory es).at? (n :: q) := by
          intro hn
          cases rest with
          | nil => rw [remove, at?_directory_cons, at?_directory_cons, lookup_filter_ne, if_neg hn]
          | cons m rest =>
            rw [remove]
            · split
              · rw [at?_directory_cons, at?_directory_cons, lookup_setEntry, if_neg hn]
              · rfl
            · simp
        by_cases hn : n = name
        · subst hn
          cases rest with
          | nil => simp [remove, at?_directory_cons, lookup_filter_ne]
          | cons m rest =>
            rw [remove]
            · split
              · rename_i u hu
                rw [at?_directory_cons, at?_directory_cons, lookup_setEntry, if_pos rfl, hu]
                simpa using ih u (by simp) q
              · rename_i hu
                rw [at?_directory_cons, hu]
                simp
            · simp
        · rw [hsame hn, if_neg fun e => hn (List.cons_prefix_cons.1 e).1.symm]

/-! ## Writing a file -/

/-- A file written into a directory, over nothing or over a file, is the only change. -/
theorem at?_insert_file {t : FileTree} {names : List String} (hn : names ≠ [])
    (hparent : t.at? names.dropLast = some .directory) (hd : t.at? names ≠ some .directory)
    (b : ByteArray) (q : List String) :
    (t.insert names (.file b)).at? q = if q = names then some (.file b) else t.at? q := by
  rw [at?_insert]
  by_cases hq : q = names
  · subst hq
    simp [kind]
  · rw [if_neg hq]
    by_cases hbelow : names <+: q
    · obtain ⟨rest, rfl⟩ := hbelow
      have hrest : rest ≠ [] := by simpa using hq
      obtain ⟨name, more, rfl⟩ := List.exists_cons_of_ne_nil hrest
      rw [if_pos (List.prefix_append ..), List.drop_left, at?_file_cons,
        at?_append_of_not_directory hrest hd]
    · rw [if_neg hbelow]
      by_cases habove : q <+: names
      · rw [if_pos habove]
        obtain ⟨rest, rfl⟩ := habove
        have hrest : rest ≠ [] := by
          rintro rfl
          exact hq (List.append_nil q).symm
        rw [List.dropLast_append_of_ne_nil hrest] at hparent
        by_cases hone : rest.dropLast = []
        · rw [← hparent, hone, List.append_nil]
        · exact (at?_of_append hone (by rw [hparent]; simp)).symm
      · rw [if_neg habove]

theorem at?_dropLast {t : FileTree} {names : List String} (hn : names ≠ [])
    (h : t.at? names ≠ none) : t.at? names.dropLast = some .directory := by
  apply at?_of_append (b := [names.getLast hn]) (by simp)
  rwa [List.dropLast_concat_getLast]

/-- After a directory was made where there was nothing, there are directories on the way to it. -/
theorem at?_ensureDirectory {t : FileTree} {names : List String} (hn : t.at? names = none)
    (q : List String) :
    (t.ensureDirectory names).at? q =
      if q <+: names then some .directory else t.at? q := by
  have hnone := at?_eq_none.1 hn
  rw [ensureDirectory, hnone]
  simp only
  rw [at?_insert]
  by_cases hbelow : names <+: q
  · obtain ⟨rest, rfl⟩ := hbelow
    rw [if_pos (List.prefix_append ..), List.drop_left]
    cases rest with
    | nil => simp [empty, kind]
    | cons name rest =>
      rw [at?_append_of_not_directory (by simp) (by simp [hn]), if_neg]
      · rfl
      · intro hp
        have hl := hp.length_le
        simp only [List.length_append, List.length_cons] at hl
        omega
  · rw [if_neg hbelow]

end DocPress.FileTree
