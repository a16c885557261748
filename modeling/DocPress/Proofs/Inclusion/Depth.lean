import DocPress.Proofs.Compilation
import DocPress.Proofs.Inclusion.Outcome

/-!
# Compiling without a bound on the depth

Partials are included with a bound on the depth, which follows the number of files. Here
inclusion is told by rules without a bound: one for each way in which it can end, and one for
a partial that is read, which asks for all that its document looks up. A derivation is finite,
so what has one comes to an end. Every file does, and comes to what compiling it yields.
-/

set_option autoImplicit false

namespace DocPress.Compilation

open Resolution FileTree

variable {files : FileTree}

/-- What including a partial comes to. There is no derivation for an inclusion that never ends. -/
inductive Comes (files : FileTree) :
    Place → Reference.Index → String → Reporting Element → Prop
  | nul {place : Place} {index : Reference.Index} {file : String}
      (hn : (place.directory ++ Path.ofString file).hasNul = true) :
      Comes files place index file (.fail .nulInPath)
  | missing {place : Place} {index : Reference.Index} {file : String} {path : Path}
      (hn : (place.directory ++ Path.ofString file).hasNul = false)
      (hp : path = (place.directory ++ Path.ofString file).real)
      (hf : files.isFile path = false) :
      Comes files place index file (do .note (.partialNotFound path); pure (.value .null))
  | circle {place : Place} {index : Reference.Index} {file : String} {path : Path}
      (hn : (place.directory ++ Path.ofString file).hasNul = false)
      (hp : path = (place.directory ++ Path.ofString file).real)
      (hf : files.isFile path = true) (hc : path ∈ place.chain) :
      Comes files place index file (.fail (.cyclicInclusion (place.chain ++ [path])))
  | document {place : Place} {index : Reference.Index} {file : String} {path : Path}
      {inner : Place} {below : Node → String → Reporting Element}
      (hn : (place.directory ++ Path.ofString file).hasNul = false)
      (hp : path = (place.directory ++ Path.ofString file).real)
      (hf : files.isFile path = true) (hc : path ∉ place.chain)
      (hi : inner = ⟨path.parent, place.chain ++ [path]⟩)
      (hbelow : ∀ n, (documentOf files path).result = .ok n → ∀ s ∈ lookups n,
        Comes files inner (index.merge (.ofNode n)) s (below n s)) :
      Comes files place index file (documentOf files path >>= fun n =>
        Resolved.document <$> resolve (scope inner (index.merge (.ofNode n)) (below n)) n)

def Compiles (files : FileTree) (t : Path) (r : Reporting String) : Prop :=
  ∃ below : Node → String → Reporting Element,
    (∀ n, (documentOf files t).result = .ok n → ∀ s ∈ lookups n,
      Comes files ⟨t.parent, [t]⟩ (.ofNode n) s (below n s)) ∧
    r = documentOf files t >>= fun n => Element.render <$> Resolved.document <$>
      resolve (scope ⟨t.parent, [t]⟩ (.ofNode n) (below n)) n

/-- With a depth that the chain leaves room for, a partial comes to what including it yields,
and to nothing else. -/
theorem comes_iff {depth : Nat} {place : Place} {index : Reference.Index} {file : String}
    {r : Reporting Element} (hp : Chain files (fun _ => True) place.chain)
    (hd : files.files.length < depth + place.chain.length) :
    Comes files place index file r ↔ r = includePartial files depth place index file := by
  induction depth generalizing place index file r with
  | zero =>
    have hl := hp.length_le
    omega
  | succ depth ih =>
    obtain ⟨path, hpath⟩ : ∃ path, path = (place.directory ++ Path.ofString file).real := ⟨_, rfl⟩
    have hinner : files.isFile path = true → path ∉ place.chain → ∀ index s r,
        Comes files ⟨path.parent, place.chain ++ [path]⟩ index s r ↔
          r = includePartial files depth ⟨path.parent, place.chain ++ [path]⟩ index s := by
      intro hf hc index s r
      refine ih (hp.append trivial (hpath ▸ Path.isReal_real _) hf hc) ?_
      rw [List.length_append, List.length_singleton]
      omega
    -- Each rule is one branch of the definition, in its order.
    rw [includePartial_succ]
    simp only [← hpath]
    constructor
    · intro h
      cases h with
      | nul hn => rw [if_pos hn]
      | missing hn hp hf =>
        rw [← hpath] at hp
        simp [← hp, hn, hf]
      | circle hn hp hf hc =>
        rw [← hpath] at hp
        simp [← hp, hn, hf, hc]
      | document hn hp hf hc hi hbelow =>
        rw [← hpath] at hp
        subst hp hi
        simp only [hn, hf, List.contains_iff_mem, hc, Bool.false_eq_true, if_false, Bool.not_true]
        refine Reporting.bind_congr_of_ok fun n hok => ?_
        rw [resolve_scope_congr fun s hs => (hinner hf hc _ s _).1 (hbelow n hok s hs)]
    · rintro rfl
      split
      · next hn => exact .nul hn
      · next hn =>
        rw [Bool.not_eq_true] at hn
        split
        · next hf => exact .missing hn hpath (by simpa using hf)
        · next hf =>
          replace hf : files.isFile path = true := by simpa using hf
          split
          · next hc => exact .circle hn hpath hf (by simpa using hc)
          · next hc =>
            replace hc : path ∉ place.chain := by simpa using hc
            exact .document hn hpath hf hc rfl fun n _ s _ => (hinner hf hc _ s _).2 rfl

theorem compileFile_eq (files : FileTree) (t : Path) :
    compileFile files t = documentOf files t.real >>= fun n =>
      Element.render <$> renderTree files ⟨t.real.parent, [t.real]⟩ (.ofNode n) n := by
  simp only [compileFile, documentOf]
  cases hl : files.load t.real with
  | error f =>
    simp only [Reporting.ofExcept_error_bind]
    rfl
  | ok source => simp [compileText]

theorem compiles_iff {t : Path} {r : Reporting String} (ht : files.isFile t.real = true) :
    Compiles files t.real r ↔ r = compileFile files t := by
  have hinner : ∀ index s r, Comes files ⟨t.real.parent, [t.real]⟩ index s r ↔
      r = includePartial files (files.files.length + 1) ⟨t.real.parent, [t.real]⟩ index s :=
    fun index s r => comes_iff (.singleton trivial (Path.isReal_real t) ht)
      (by rw [List.length_singleton]; omega)
  rw [compileFile_eq]
  constructor
  · rintro ⟨below, hbelow, rfl⟩
    refine Reporting.bind_congr_of_ok fun n hok => ?_
    rw [renderTree, resolve_scope_congr fun s hs => (hinner _ s _).1 (hbelow n hok s hs)]
  · rintro rfl
    exact ⟨_, fun n _ s _ => (hinner _ s _).2 rfl, rfl⟩

end DocPress.Compilation
