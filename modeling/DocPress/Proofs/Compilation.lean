import Mathlib.Data.List.Nodup
import DocPress.Compilation
import DocPress.Proofs.FileTree.Lookup
import DocPress.Proofs.Inclusion

/-!
# What compiling reads

The files that are being compiled are different files, so their number never
exceeds that of all files and the bound on the depth of inclusion is never
met. A set of paths is closed when the documents on it include only paths of
it. Two trees that hold the same files on a closed set compile every template
of the set alike, whatever else they hold.
-/

set_option autoImplicit false

namespace DocPress.Compilation

open FileTree

theorem documentOf_congr {files other : FileTree} {p : Path} (h : files.load p = other.load p) :
    documentOf files p = documentOf other p := by
  rw [documentOf, documentOf, h]

theorem documentOf_of_load {files : FileTree} {p : Path} {source : String}
    (h : files.load p = .ok source) : documentOf files p = Document.read p.toString source := by
  rw [documentOf, h, Reporting.ofExcept_ok_bind]

theorem exists_load_of_documentOf {files : FileTree} {p : Path} {n : Node}
    (h : (documentOf files p).result = .ok n) : ∃ source, files.load p = .ok source := by
  cases hl : files.load p with
  | ok source => exact ⟨source, rfl⟩
  | error f =>
    rw [documentOf, hl, Reporting.ofExcept_error_bind] at h
    cases h

theorem isFile_of_documentOf {files : FileTree} {p : Path} {n : Node}
    (h : (documentOf files p).result = .ok n) : files.isFile p = true :=
  isFile_of_load (exists_load_of_documentOf h).choose_spec

theorem hasNul_of_documentOf {files : FileTree} {p : Path} {n : Node}
    (h : (documentOf files p).result = .ok n) : p.hasNul = false :=
  hasNul_of_load (exists_load_of_documentOf h).choose_spec

theorem resolve_scope_congr {place : Place} {index : Reference.Index} {n : Node}
    {f g : String → Reporting Element} (h : ∀ s ∈ Resolution.lookups n, f s = g s) :
    Resolution.resolve (scope place index f) n = Resolution.resolve (scope place index g) n :=
  Resolution.resolve_congr n h

/-- The documents on a set of paths include only paths of the set. -/
def Closed (files : FileTree) (S : Path → Prop) : Prop :=
  ∀ p n, S p → p.IsReal → (documentOf files p).result = .ok n →
    ∀ s ∈ Resolution.lookups n, S (p.parent ++ Path.ofString s).real

/-- Whether a set is closed can be told from the files that there are. -/
theorem closed_of_files {files : FileTree} {S : Path → Prop}
    (h : ∀ f ∈ files.files, ∀ n, (documentOf files ⟨.root, f.1⟩).result = .ok n →
      ∀ s ∈ Resolution.lookups n, S ((⟨.root, f.1⟩ : Path).parent ++ Path.ofString s).real) :
    Closed files S := by
  intro p n _ hp hn
  have hf := isFile_of_documentOf hn
  revert hn
  exact of_isFile hp hf fun f hm => h f hm n

/-- Two trees hold the same files on a set of paths. -/
def Alike (files other : FileTree) (S : Path → Prop) : Prop :=
  ∀ p, S p → p.IsReal → files.content? p = other.content? p

structure Chain (files : FileTree) (S : Path → Prop) (chain : List Path) : Prop where
  nodup : chain.Nodup
  within : ∀ p ∈ chain, S p
  real : ∀ p ∈ chain, p.IsReal
  isFile : ∀ p ∈ chain, files.isFile p = true

namespace Chain

variable {files other : FileTree} {S : Path → Prop} {chain : List Path}

theorem singleton {p : Path} (hs : S p) (hr : p.IsReal) (hf : files.isFile p = true) :
    Chain files S [p] :=
  ⟨by simp, by simpa using hs, by simpa using hr, by simpa using hf⟩

theorem append (h : Chain files S chain) {p : Path} (hs : S p) (hr : p.IsReal)
    (hf : files.isFile p = true) (hn : p ∉ chain) : Chain files S (chain ++ [p]) where
  nodup := by
    rw [List.nodup_append]
    refine ⟨h.nodup, by simp, ?_⟩
    intro a ha b hb e
    exact hn ((List.mem_singleton.1 hb) ▸ e ▸ ha)
  within := by
    intro q hq
    rcases List.mem_append.1 hq with hq | hq
    · exact h.within q hq
    · rw [List.mem_singleton.1 hq]; exact hs
  real := by
    intro q hq
    rcases List.mem_append.1 hq with hq | hq
    · exact h.real q hq
    · rw [List.mem_singleton.1 hq]; exact hr
  isFile := by
    intro q hq
    rcases List.mem_append.1 hq with hq | hq
    · exact h.isFile q hq
    · rw [List.mem_singleton.1 hq]; exact hf

theorem length_le (h : Chain files S chain) : chain.length ≤ files.files.length := by
  have hn : (chain.map Path.parts).Nodup :=
    h.nodup.map_on fun p hp q hq e => (h.real p hp).ext (h.real q hq) e
  have hs : chain.map Path.parts ⊆ files.files.map Prod.fst := by
    intro names hm
    obtain ⟨p, hp, rfl⟩ := List.mem_map.1 hm
    obtain ⟨b, hb⟩ := (isFile_of_real (h.real p hp)).1 (h.isFile p hp)
    exact List.mem_map.2 ⟨_, mem_files_of_find? hb, rfl⟩
  simpa using hn.length_le_of_subset hs

theorem alike (h : Chain files S chain) (ha : Alike files other S) : Chain other S chain where
  nodup := h.nodup
  within := h.within
  real := h.real
  isFile p hp := by
    rw [← isFile_congr (ha p (h.within p hp) (h.real p hp))]
    exact h.isFile p hp

end Chain

theorem includePartial_succ (files : FileTree) (depth : Nat) (place : Place)
    (index : Reference.Index) (file : String) :
    includePartial files (depth + 1) place index file =
      (let written := place.directory ++ Path.ofString file
      let path := written.real
      if written.hasNul then .fail .nulInPath
      else if !files.isFile path then do
        .note (.partialNotFound path)
        pure (.value .null)
      else if place.chain.contains path then .fail (.cyclicInclusion (place.chain ++ [path]))
      else documentOf files path >>= fun n =>
        let index := Reference.Index.merge index (.ofNode n)
        let inner : Place := ⟨path.parent, place.chain ++ [path]⟩
        Resolution.Resolved.document <$>
          Resolution.resolve (scope inner index (includePartial files depth inner index)) n) := rfl

/-- Including a partial reads no file outside of a closed set that its name leads into, and
enough depth is as good as any more. -/
theorem includePartial_congr {files other : FileTree} {S : Path → Prop} (hc : Closed files S)
    (ha : Alike files other S) (depth depth' : Nat) (place : Place) (index : Reference.Index)
    (file : String) (hp : Chain files S place.chain)
    (hd : files.files.length < depth + place.chain.length)
    (hd' : other.files.length < depth' + place.chain.length)
    (hs : S (place.directory ++ Path.ofString file).real) :
    includePartial files depth place index file =
      includePartial other depth' place index file := by
  induction depth generalizing depth' place index file with
  | zero =>
    have hl := hp.length_le
    omega
  | succ depth ih =>
    cases depth' with
    | zero =>
      have hl := (hp.alike ha).length_le
      omega
    | succ depth' =>
      have hr := Path.isReal_real (place.directory ++ Path.ofString file)
      have hcontent := ha _ hs hr
      rw [includePartial_succ, includePartial_succ]
      simp only [← isFile_congr hcontent]
      split
      · rfl
      · split
        · rfl
        · rename_i hf
          have hf : files.isFile (place.directory ++ Path.ofString file).real = true := by
            simpa using hf
          split
          · rfl
          · rename_i hm
            rw [← documentOf_congr (load_congr hcontent hf)]
            cases hn : (documentOf files (place.directory ++ Path.ofString file).real).result with
            | error f => simp only [Reporting.bind_of_error _ hn]
            | ok n =>
              simp only [Reporting.bind_of_ok _ hn]
              have hchain := hp.append hs hr hf (by simpa using hm)
              have hinner : ∀ s ∈ Resolution.lookups n,
                  includePartial files depth
                      ⟨(place.directory ++ Path.ofString file).real.parent,
                        place.chain ++ [(place.directory ++ Path.ofString file).real]⟩
                      (index.merge (.ofNode n)) s =
                    includePartial other depth' ⟨_, _⟩ (index.merge (.ofNode n)) s :=
                fun s hsn => ih depth' ⟨_, _⟩ _ s hchain (by simp; omega) (by simp; omega)
                  (hc _ n hs hr hn s hsn)
              rw [resolve_scope_congr hinner]

theorem compileFile_congr {files other : FileTree} {S : Path → Prop} (hc : Closed files S)
    (ha : Alike files other S) {t : Path} (ht : S t.real)
    (hl : files.load t.real = other.load t.real) : compileFile files t = compileFile other t := by
  have hr := Path.isReal_real t
  simp only [compileFile, ← hl]
  cases hs : files.load t.real with
  | error f => simp only [Reporting.ofExcept_error_bind]
  | ok source =>
    have hchain : Chain files S [t.real] := .singleton ht hr (isFile_of_load hs)
    simp only [Reporting.ofExcept_ok_bind, compileText, Option.map_some, Option.getD_some,
      Option.toList_some, Path.real_real, renderTree]
    cases hn : (Document.read t.real.toString source).result with
    | error f => simp only [Reporting.bind_of_error _ hn]
    | ok n =>
      simp only [Reporting.bind_of_ok _ hn]
      have hinner : ∀ s ∈ Resolution.lookups n,
          includePartial files (files.files.length + 1) ⟨t.real.parent, [t.real]⟩ (.ofNode n) s =
            includePartial other (other.files.length + 1) ⟨_, _⟩ (.ofNode n) s :=
        fun s hsn => includePartial_congr hc ha _ _ ⟨_, _⟩ _ s hchain
          (by rw [List.length_singleton]; omega) (by rw [List.length_singleton]; omega)
          (hc _ n ht hr (by rw [documentOf_of_load hs, hn]) s hsn)
      rw [resolve_scope_congr hinner]

end DocPress.Compilation
