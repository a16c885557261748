import Mathlib.Data.List.Chain
import Mathlib.Logic.Relation
import DocPress.Proofs.Document.Shape
import DocPress.Proofs.Inclusion.Depth
import DocPress.Proofs.Path.Spelling
import DocPress.Proofs.Tracking

/-!
# Circles of inclusion

One file includes another if one of its outer inclusion tags leads there. Compiling a template
follows the inclusions from it along every path, and knows only the files on the path it is on.
It ends, since those are different files; it refuses the template if a circle can be reached
from it and only then, and the failure shows a way into the circle and once around it.
-/

set_option autoImplicit false

namespace DocPress.Compilation

open Resolution FileTree

variable {files : FileTree}

/-! ## The graph of inclusion -/

/-- A file includes an existing file, by a tag that is not inside another inclusion tag. -/
def Includes (files : FileTree) (p q : Path) : Prop :=
  files.isFile q = true ∧ ∃ n, (documentOf files p).result = .ok n ∧
    ∃ x ∈ outerTags n, ∃ s, partialName? x.attributes = some s ∧
      (p.parent ++ Path.ofString s).real = q

/-- A file parses, and its inclusion tags, but for those inside another one, have a file name that
can be encoded and holds no NUL. -/
def NamesPartials (files : FileTree) (p : Path) : Prop :=
  ∃ n, (documentOf files p).result = .ok n ∧
    ∀ x ∈ outerTags n, ∃ s, partialName? x.attributes = some s ∧ '\x00' ∉ s.toList

/-- A chain of inclusions from a file that ends where it has been before. -/
structure IsCircle (files : FileTree) (t : Path) (chain : List Path) : Prop where
  start : chain.head? = some t
  steps : chain.IsChain (Includes files)
  different : chain.dropLast.Nodup
  closed : ∃ p ∈ chain.dropLast, chain.getLast? = some p

/-- No walk on from a chain of inclusions comes to a file twice. -/
def IsSimple (files : FileTree) (chain : List Path) : Prop :=
  ∀ walk, (chain ++ walk).IsChain (Includes files) → (chain ++ walk).Nodup

theorem transGen_of_isChain {α : Type} {r : α → α → Prop} {a b : α} (l : List α)
    (h : (a :: (l ++ [b])).IsChain r) : Relation.TransGen r a b := by
  induction l generalizing a with
  | nil => exact .single (List.isChain_cons_cons.1 h).1
  | cons c l ih =>
    obtain ⟨hac, hrest⟩ := List.isChain_cons_cons.1 h
    exact .head hac (ih hrest)

theorem IsCircle.exists_transGen {t : Path} {chain : List Path} (h : IsCircle files t chain) :
    ∃ p, Relation.ReflTransGen (Includes files) t p ∧ Relation.TransGen (Includes files) p p := by
  obtain ⟨p, hp, hlast⟩ := h.closed
  obtain ⟨way, around, hsplit⟩ := List.append_of_mem hp
  obtain ⟨front, rfl⟩ := List.getLast?_eq_some_iff.1 hlast
  rw [List.dropLast_concat] at hsplit
  subst hsplit
  have hsteps := h.steps
  have hstart := h.start
  rw [List.append_assoc, List.cons_append] at hsteps hstart
  refine ⟨p, ?_, transGen_of_isChain around hsteps.right_of_append⟩
  cases way with
  | nil =>
    obtain rfl := Option.some.inj hstart
    exact .refl
  | cons a way =>
    obtain rfl := Option.some.inj hstart
    have hway : (a :: (way ++ [p])).IsChain (Includes files) :=
      hsteps.prefix ⟨around ++ [p], by simp⟩
    exact (transGen_of_isChain way hway).to_reflTransGen

theorem not_isSimple_of_transGen {t p : Path} (ht : Relation.ReflTransGen (Includes files) t p)
    (hp : Relation.TransGen (Includes files) p p) : ¬IsSimple files [t] := by
  intro hs
  obtain ⟨way, hway, hend⟩ := List.exists_isChain_cons_of_relationReflTransGen ht
  obtain ⟨q, hpq, hqp⟩ := Relation.TransGen.head'_iff.1 hp
  obtain ⟨around, haround, hback⟩ := List.exists_isChain_cons_of_relationReflTransGen hqp
  have hwalk : (t :: way ++ q :: around).IsChain (Includes files) := by
    refine hway.append haround ?_
    rw [List.getLast?_eq_some_getLast (List.cons_ne_nil _ _), hend]
    simpa using hpq
  have hn := hs (way ++ q :: around) hwalk
  refine (List.nodup_append.1 (show (t :: way ++ q :: around).Nodup from hn)).2.2 p ?_ p ?_ rfl
  · exact hend ▸ List.getLast_mem _
  · exact hback ▸ List.getLast_mem _

/-! ## What compiling finds out -/

/-- Compiling the end of a chain of inclusions succeeds, and then no walk on from it comes to a
file twice, or it fails with a circle. -/
def Explores {α : Type} (files : FileTree) (t : Path) (chain : List Path) (x : Reporting α) :
    Prop :=
  ((∃ a, x.result = .ok a) ∧ IsSimple files chain) ∨
    ∃ circle, x.result = .error (.cyclicInclusion circle) ∧ IsCircle files t circle

structure IsTrail (files : FileTree) (t p : Path) (chain : List Path) : Prop where
  start : chain.head? = some t
  end_ : chain.getLast? = some p
  steps : chain.IsChain (Includes files)

namespace IsTrail

variable {t p q : Path} {chain : List Path}

theorem reflTransGen (h : IsTrail files t p chain) :
    Relation.ReflTransGen (Includes files) t p := by
  obtain ⟨way, rfl⟩ := List.head?_eq_some_iff.1 h.start
  refine List.relationReflTransGen_of_exists_isChain_cons way h.steps ?_
  exact Option.some.inj ((List.getLast?_eq_some_getLast (List.cons_ne_nil _ _)).symm.trans h.end_)

theorem append (h : IsTrail files t p chain) (hq : Includes files p q) :
    IsTrail files t q (chain ++ [q]) where
  start := by rw [List.head?_append, h.start]; rfl
  end_ := List.getLast?_concat
  steps := by
    refine h.steps.append (.singleton q) fun a ha b hb => ?_
    obtain rfl := Option.some.inj (h.end_.symm.trans ha)
    obtain rfl := Option.some.inj hb
    exact hq

theorem isCircle (h : IsTrail files t p chain) (hn : chain.Nodup) (hq : Includes files p q)
    (hm : q ∈ chain) : IsCircle files t (chain ++ [q]) where
  start := (h.append hq).start
  steps := (h.append hq).steps
  different := by rwa [List.dropLast_concat]
  closed := ⟨q, by rwa [List.dropLast_concat], List.getLast?_concat⟩

end IsTrail

/-- A walk on from a chain goes through one of the files that its end includes. -/
theorem isSimple_of_includes {t p : Path} {chain : List Path} (h : IsTrail files t p chain)
    (hn : chain.Nodup) (hon : ∀ q, Includes files p q → IsSimple files (chain ++ [q])) :
    IsSimple files chain := by
  intro walk hw
  cases walk with
  | nil => rwa [List.append_nil]
  | cons q walk =>
    have hpq : Includes files p q := (List.isChain_append.1 hw).2.2 p h.end_ q rfl
    have happ : chain ++ q :: walk = (chain ++ [q]) ++ walk := by simp
    rw [happ] at hw ⊢
    exact hon q hpq walk hw

theorem mem_lookups_of_outer {n x : Node} {s : String}
    (hread : ∀ m ∈ n.walk, Document.IsRead m) (hx : x ∈ outerTags n)
    (hs : partialName? x.attributes = some s) : s ∈ lookups n := by
  rw [lookups_eq_filterMap n fun m hm => (hread m hm).leaf]
  exact List.mem_filterMap.2 ⟨x, hx, hs⟩

theorem includes_of_mem_lookups {p : Path} {n : Node} {s : String}
    (hdoc : (documentOf files p).result = .ok n) (hs : s ∈ lookups n)
    (hf : files.isFile (p.parent ++ Path.ofString s).real = true) :
    Includes files p (p.parent ++ Path.ofString s).real := by
  rw [lookups_eq_filterMap n fun m hm => (isRead_of_documentOf hdoc m hm).leaf] at hs
  obtain ⟨x, hx, hxs⟩ := List.mem_filterMap.1 hs
  exact ⟨hf, n, hdoc, x, hx, s, hxs, rfl⟩

theorem NamesPartials.hasNul_of_lookups {p : Path} (h : NamesPartials files p) {n : Node}
    (hdoc : (documentOf files p).result = .ok n) {s : String} (hs : s ∈ lookups n) :
    (p.parent ++ Path.ofString s).hasNul = false := by
  obtain ⟨m, hm, hnames⟩ := h
  obtain rfl : m = n := Except.ok.inj (hm.symm.trans hdoc)
  have hp := hasNul_of_documentOf hdoc
  rw [lookups_eq_filterMap m fun x hx => (isRead_of_documentOf hdoc x hx).leaf] at hs
  obtain ⟨x, hx, hxs⟩ := List.mem_filterMap.1 hs
  obtain ⟨s', hs', hnul⟩ := hnames x hx
  obtain rfl : s' = s := Option.some.inj (hs'.symm.trans hxs)
  exact Path.hasNul_append (Path.hasNul_parent hp) (Path.hasNul_ofString hnul)

/-- A document is explored if each partial that exists is, one file on. -/
theorem explores_resolve {t p : Path} (place : Place) {index : Reference.Index}
    {include_ : String → Reporting Element} {n : Node}
    (ht : IsTrail files t p place.chain) (hn : place.chain.Nodup) (hp : NamesPartials files p)
    (hdoc : (documentOf files p).result = .ok n)
    (hbelow : ∀ s ∈ lookups n,
      (files.isFile (p.parent ++ Path.ofString s).real = false ∧
        ∃ e, (include_ s).result = .ok e) ∨
      (files.isFile (p.parent ++ Path.ofString s).real = true ∧
        Explores files t (place.chain ++ [(p.parent ++ Path.ofString s).real]) (include_ s))) :
    Explores files t place.chain (resolve (scope place index include_) n) := by
  have hread := isRead_of_documentOf hdoc
  obtain ⟨m, hm, hnames⟩ := id hp
  obtain rfl : m = n := Except.ok.inj (hm.symm.trans hdoc)
  have hends : EndsAs (scope place index include_) (lookups m)
      (resolve (scope place index include_) m) := by
    refine endsAs_resolve m (fun x hx => (hread x hx).hasArguments) fun x hx => ?_
    obtain ⟨s, hs, -⟩ := hnames x hx
    rw [hs]
    rfl
  rcases hends with ⟨hok, hall⟩ | ⟨s, hs, f, hf, hx⟩
  -- Nothing failed, so every file that is included was explored to the end.
  · refine .inl ⟨hok, isSimple_of_includes ht hn ?_⟩
    rintro q ⟨hfile, n', hdoc', x, hx, s, hxs, rfl⟩
    obtain rfl : m = n' := Except.ok.inj (hdoc.symm.trans hdoc')
    have hs := mem_lookups_of_outer hread hx hxs
    obtain ⟨e, he⟩ := hall s hs
    rcases hbelow s hs with ⟨hno, -⟩ | ⟨-, ⟨-, hsimple⟩ | ⟨circle, herror, -⟩⟩
    · rw [hfile] at hno
      cases hno
    · exact hsimple
    · cases he.symm.trans herror
  -- The failure is that of a partial, and a partial fails for a circle only.
  · rcases hbelow s hs with ⟨-, e, he⟩ | ⟨-, ⟨⟨e, he⟩, -⟩ | ⟨circle, herror, hcircle⟩⟩
    · cases he.symm.trans hf
    · cases he.symm.trans hf
    · obtain rfl := Except.error.inj (hf.symm.trans herror)
      exact .inr ⟨circle, hx, hcircle⟩

theorem Explores.map {α β : Type} {t : Path} {chain : List Path} {x : Reporting α}
    (h : Explores files t chain x) (f : α → β) : Explores files t chain (f <$> x) := by
  rcases h with ⟨hok, hsimple⟩ | ⟨circle, herror, hcircle⟩
  · exact .inl ⟨exists_of_map hok, hsimple⟩
  · exact .inr ⟨circle, Reporting.error_of_map herror, hcircle⟩

theorem Explores.bind_of_ok {α β : Type} {t : Path} {chain : List Path} {x : Reporting α}
    {f : α → Reporting β} {a : α} (hx : x.result = .ok a) (h : Explores files t chain (f a)) :
    Explores files t chain (x >>= f) := by
  rw [Reporting.bind_of_ok _ hx]
  exact h

/-- With a depth that the chain leaves room for, each partial that exists is explored. The
induction is on the depth: a partial that is read is one file more on the chain. -/
theorem explores_includePartial {t p : Path} {depth : Nat} (place : Place)
    {index : Reference.Index} {n : Node} {s : String}
    (h : ∀ p, Relation.ReflTransGen (Includes files) t p → NamesPartials files p)
    (ht : IsTrail files t p place.chain) (hplace : place.directory = p.parent)
    (hchain : Chain files (fun _ => True) place.chain)
    (hd : files.files.length < depth + place.chain.length)
    (hdoc : (documentOf files p).result = .ok n) (hs : s ∈ lookups n) :
    (files.isFile (p.parent ++ Path.ofString s).real = false ∧
        ∃ e, (includePartial files depth place index s).result = .ok e) ∨
      (files.isFile (p.parent ++ Path.ofString s).real = true ∧
        Explores files t (place.chain ++ [(p.parent ++ Path.ofString s).real])
          (includePartial files depth place index s)) := by
  induction depth generalizing p place index n s with
  | zero =>
    have hl := hchain.length_le
    omega
  | succ depth ih =>
    have hn := (h p ht.reflTransGen).hasNul_of_lookups hdoc hs
    have hq := includes_of_mem_lookups hdoc hs
    have hreal := Path.isReal_real (p.parent ++ Path.ofString s)
    rw [includePartial_succ, hplace]
    simp only [hn, Bool.false_eq_true, if_false]
    generalize (p.parent ++ Path.ofString s).real = q at hq hreal ⊢
    cases hf : files.isFile q with
    | false =>
      simp only [Bool.not_false, if_true]
      exact .inl ⟨trivial, .value .null, rfl⟩
    | true =>
      refine .inr ⟨rfl, ?_⟩
      replace hq := hq hf
      simp only [List.contains_iff_mem, Bool.false_eq_true, if_false, Bool.not_true]
      by_cases hm : q ∈ place.chain
      · rw [if_pos hm]
        exact .inr ⟨place.chain ++ [q], rfl, ht.isCircle hchain.nodup hq hm⟩
      · rw [if_neg hm]
        have htq := ht.append hq
        have hchain' := hchain.append trivial hreal hf hm
        obtain ⟨m, hdocq, -⟩ := id (h q htq.reflTransGen)
        refine .bind_of_ok hdocq (.map ?_ _)
        refine explores_resolve ⟨q.parent, place.chain ++ [q]⟩ htq hchain'.nodup
          (h q htq.reflTransGen) hdocq fun s hs => ?_
        refine ih ⟨q.parent, place.chain ++ [q]⟩ htq rfl hchain' ?_ hdocq hs
        rw [List.length_append, List.length_singleton]
        omega

def circularFiles : FileTree :=
  .directory [("a.mdoc", .file "\x7b% partial file=\"p.p.mdoc\" /%\x7d".toUTF8),
    ("p.p.mdoc", .file "\x7b% partial file=\"q.p.mdoc\" /%\x7d".toUTF8),
    ("q.p.mdoc", .file "\x7b% partial file=\"p.p.mdoc\" /%\x7d".toUTF8),
    ("b.mdoc", .file ("\x7b% partial file=\"r.p.mdoc\" /%\x7d\n\n" ++
      "\x7b% partial file=\"r.p.mdoc\" /%\x7d").toUTF8),
    ("r.p.mdoc", .file "R".toUTF8)]

theorem namesPartials_of_any {p : Path}
    (h : ((documentOf files p).result.toOption.any fun n => (outerTags n).all fun x =>
      (partialName? x.attributes).any fun s => !s.toList.contains '\x00') = true) :
    NamesPartials files p := by
  obtain ⟨n, hn, hall⟩ := (Option.any_eq_true _ _).1 h
  refine ⟨n, eq_ok_of_toOption hn, fun x hx => ?_⟩
  obtain ⟨s, hs, hnul⟩ := (Option.any_eq_true _ _).1 (List.all_eq_true.1 hall x hx)
  exact ⟨s, hs, by simpa using hnul⟩

/-- What holds of all files that can be reached can be told from the files that there are. -/
theorem of_files {P : Path → Prop} {t : Path} (ht : files.isFile t.real = true)
    (h : ∀ f ∈ files.files, P ⟨.root, f.1⟩) (p : Path)
    (hp : Relation.ReflTransGen (Includes files) t.real p) : P p := by
  have hfile : p.IsReal ∧ files.isFile p = true := by
    cases hp with
    | refl => exact ⟨Path.isReal_real t, ht⟩
    | tail _ hstep =>
      obtain ⟨hf, -, -, -, -, s, -, rfl⟩ := hstep
      exact ⟨Path.isReal_real _, hf⟩
  exact of_isFile hfile.1 hfile.2 h

def surrogateFiles : FileTree :=
  .directory [("a.mdoc", .file "\x7b% partial file=\"\\ud800\" /%\x7d".toUTF8)]

end DocPress.Compilation
