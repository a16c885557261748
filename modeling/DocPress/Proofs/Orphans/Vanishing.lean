import DocPress.Proofs.Orphans.Repetition

/-!
# Which directories vanish

Orphans are deleted one after the other, and after each of them the directories above it are
pruned as far as they are empty then. What is gone in the end depends on no order: with the
deleted files go exactly the directories that had nothing in them but such files and such
directories, and had something.
-/

set_option autoImplicit false

namespace DocPress

namespace Orphans

open Discovery DocPress.Task FileTree

/-- The least set of directories strictly inside a root, none of them refused, to which a
directory belongs that is not empty and whose entries all are deleted files or belong to it. -/
inductive Vanishes (root : Path) (refused deleted : List Path) (t : FileTree) : List String → Prop
  | intro {q : List String} (inside : root.parts <+: q) (ne : q ≠ root.parts)
      (directory : t.at? q = some .directory) (allowed : ⟨root.anchor, q⟩ ∉ refused)
      (held : ∃ name, t.at? (q ++ [name]) ≠ none)
      (below : ∀ name, t.at? (q ++ [name]) ≠ none → ⟨root.anchor, q ++ [name]⟩ ∉ deleted →
        Vanishes root refused deleted t (q ++ [name])) :
      Vanishes root refused deleted t q

variable {c : Config} {root p : Path} {refused ps qs : List Path} {t u v : FileTree} {d e : Disk}
  {q : List String}

theorem Vanishes.mono (hsub : ps ⊆ qs) (h : Vanishes root refused ps t q) :
    Vanishes root refused qs t q := by
  induction h with
  | intro inside ne directory allowed held _ ih =>
    exact .intro inside ne directory allowed held fun name hat hn =>
      ih name hat fun hp => hn (hsub hp)

def IsGone (root : Path) (refused ps : List Path) (t : FileTree) (q : List String) : Prop :=
  ⟨root.anchor, q⟩ ∈ ps ∨ Vanishes root refused ps t q

/-- A directory that is empty now was empty before, unless the system keeps it. -/
def IsSettled (root : Path) (refused : List Path) (t u : FileTree) (q : List String) : Prop :=
  root.parts <+: q → q ≠ root.parts → ⟨root.anchor, q⟩ ∉ refused → u.at? q = some .directory →
    (∀ name, u.at? (q ++ [name]) = none) → ∀ name, t.at? (q ++ [name]) = none

/-- How far a tree has come from another one when some files are deleted: they are gone, nothing
is gone but what may be, and of the directories only one may be left to look at. -/
structure Reached (root : Path) (refused ps : List Path) (t u : FileTree) (left : List String) :
    Prop where
  gone : ∀ q, u.at? q = t.at? q ∨ u.at? q = none ∧ IsGone root refused ps t q
  deleted : ∀ p ∈ ps, u.at? p.parts = none
  settled : ∀ q, q ≠ left → IsSettled root refused t u q

theorem isSettled_root (refused : List Path) (t u : FileTree) :
    IsSettled root refused t u root.parts := fun _ hne => absurd rfl hne

theorem Reached.settled_all (h : Reached root refused ps t u q)
    (hq : IsSettled root refused t u q) (left : List String) :
    Reached root refused ps t u left := by
  refine ⟨h.gone, h.deleted, fun r _ => ?_⟩
  by_cases hr : r = q
  · rw [hr]
    exact hq
  · exact h.settled r hr

/-- What was there and is not any more is gone. -/
theorem Reached.isGone (h : Reached root refused ps t u q) {r : List String}
    (ht : t.at? r ≠ none) (hu : u.at? r = none) : IsGone root refused ps t r := by
  rcases h.gone r with he | ⟨-, hg⟩
  · exact absurd (he.symm.trans hu) ht
  · exact hg

theorem Reached.remove {name : String}
    (h : Reached root refused ps t u (q ++ [name])) (hsub : ps ⊆ qs)
    (hl : ∀ rest, rest ≠ [] → u.at? (q ++ [name] ++ rest) = none)
    (hgone : IsGone root refused qs t (q ++ [name]))
    (hps : ∀ p ∈ qs, p ∈ ps ∨ p.parts = q ++ [name]) :
    Reached root refused qs t (u.remove (q ++ [name])) q := by
  have hat := at?_remove_leaf u (by simp) hl
  refine ⟨fun r => ?_, fun p hp => ?_, fun r hr inside ne allowed hd hempty => ?_⟩
  · rw [hat]
    by_cases hr : r = q ++ [name]
    · rw [if_pos hr, hr]
      exact Or.inr ⟨rfl, hgone⟩
    · rw [if_neg hr]
      exact (h.gone r).imp id fun ⟨hn, hg⟩ => ⟨hn, hg.imp (fun hp => hsub hp) (·.mono hsub)⟩
  · rw [hat]
    rcases hps p hp with hp | hp
    · rw [h.deleted p hp, ite_self]
    · rw [if_pos hp]
  · simp only [hat] at hd hempty
    have hne : r ≠ q ++ [name] := by
      rintro rfl
      rw [if_pos rfl] at hd
      cases hd
    rw [if_neg hne] at hd
    refine h.settled r hne inside ne allowed hd fun n => ?_
    have hchild : r ++ [n] ≠ q ++ [name] := fun he => hr (List.append_inj_left' he rfl)
    have hn := hempty n
    rwa [if_neg hchild] at hn

theorem isEmptyDirectory_iff (hp : p.IsReal) (hu : u.isProper = true) :
    isEmptyDirectory u p = true ↔
      u.at? p.parts = some .directory ∧ ∀ name, u.at? (p.parts ++ [name]) = none := by
  constructor
  · intro h
    obtain ⟨hat, hl⟩ := at?_of_isEmptyDirectory hp h
    exact ⟨hat, fun name => hl [name] (by simp)⟩
  · rintro ⟨hat, hl⟩
    obtain ⟨es, he⟩ := access_of_directory hp hat
    obtain ⟨-, hf⟩ := (access_eq_entry_iff hp _).1 he
    cases es with
    | nil => rw [isEmptyDirectory, he]
    | cons entry es =>
      obtain ⟨name, w⟩ := entry
      have hlookup := lookup_of_mem (isProper_directory.1 (isProper_of_find? hu hf).1).1
        (List.mem_cons_self (a := (name, w)))
      have hname := hl name
      rw [at?, find?_append, hf, Option.bind_some, find?_directory_cons, hlookup] at hname
      cases hname

/-- An empty directory that is left, not refused and once not empty, is one that may vanish. -/
theorem Reached.vanishes {left : List String} (h : Reached root refused ps t u left)
    (inside : root.parts <+: q) (ne : q ≠ root.parts) (hat : u.at? q = some .directory)
    (hempty : ∀ name, u.at? (q ++ [name]) = none) (allowed : ⟨root.anchor, q⟩ ∉ refused)
    (held : ∃ name, t.at? (q ++ [name]) ≠ none) :
    t.at? q = some .directory ∧ Vanishes root refused ps t q := by
  have hbefore : t.at? q = some .directory := by
    rcases h.gone q with he | ⟨hnone, -⟩
    · rw [← he]
      exact hat
    · rw [hnone] at hat
      cases hat
  refine ⟨hbefore, .intro inside ne hbefore allowed held fun name hname hkept => ?_⟩
  exact (h.isGone hname (hempty name)).resolve_left hkept

/-- Pruning settles the directory that is left to look at, and those above it. -/
theorem prune_reached (hr : root.IsReal) (names : List String) (hn : ".." ∉ names)
    (hd : d.files.isProper = true)
    (h : Reached root d.refused ps t d.files (root.parts ++ names.reverse))
    (hheld : ∃ name, t.at? (root.parts ++ names.reverse ++ [name]) ≠ none)
    (hy : Yields (prune root names) d () e) :
    ∀ left, Reached root d.refused ps t e.files left := by
  induction names generalizing d with
  | nil =>
    obtain ⟨-, rfl⟩ := hy.unique (yields_pure () d)
    rw [List.reverse_nil, List.append_nil] at h
    exact h.settled_all (isSettled_root _ t _)
  | cons name names ih =>
    have hreal : (root ++ ⟨.relative, (name :: names).reverse⟩ : Path).IsReal := by
      refine ⟨hr.1, ?_⟩
      rw [Path.append_relative]
      simp only [List.mem_append, List.mem_reverse, not_or]
      exact ⟨hr.2, hn⟩
    have hparts :
        root.parts ++ (name :: names).reverse = root.parts ++ names.reverse ++ [name] := by
      rw [List.reverse_cons, List.append_assoc]
    rw [hparts] at h hheld
    rw [prune, Path.append_relative, hparts] at hy
    rw [Path.append_relative, hparts] at hreal
    obtain ⟨empty, d', hlook, hy⟩ := hy.of_bind
    obtain ⟨rfl, rfl⟩ := (yields_look _ d).unique hlook
    split at hy
    · rename_i hempty
      obtain ⟨hat, hl⟩ := at?_of_isEmptyDirectory hreal hempty
      rcases yields_of_delete hreal hy with ⟨hrefused, hy⟩ | ⟨hallowed, hy⟩
      · obtain ⟨-, rfl⟩ := hy.unique (yields_note _ _)
        exact h.settled_all fun _ _ hallowed => absurd (by simpa using hrefused) hallowed
      · have hallowed : ⟨root.anchor, root.parts ++ names.reverse ++ [name]⟩ ∉ d.refused := by
          simpa using hallowed
        have hinside : root.parts <+: root.parts ++ names.reverse ++ [name] := by
          rw [List.append_assoc]
          exact List.prefix_append ..
        obtain ⟨hbefore, hvanishes⟩ := h.vanishes hinside (by simp) hat
          (fun n => hl [n] (by simp)) hallowed hheld
        have hup := h.remove (List.Subset.refl ps) hl (Or.inr hvanishes) fun p hp => Or.inl hp
        exact ih (d := ⟨d.files.remove _, d.refused⟩) (fun hm => hn (List.mem_cons_of_mem _ hm))
          (isProper_remove hd) hup ⟨name, by rw [hbefore]; simp⟩ hy
    · rename_i hempty
      obtain ⟨-, rfl⟩ := hy.unique (yields_pure () _)
      exact h.settled_all fun _ _ _ hat hl =>
        absurd ((isEmptyDirectory_iff hreal hd).2 ⟨hat, hl⟩) hempty

/-! ## All files -/

theorem exists_reverse_below (hg : IsGenerated c p) :
    ∃ names last, ((p.parent.below? c.output).getD []).reverse = names ∧
      p.parts = c.output.parts ++ names.reverse ++ [last] := by
  obtain ⟨names, hbelow, hparts⟩ := exists_below_parent hg
  refine ⟨names.reverse, p.parts.getLast (parts_ne_nil hg), by rw [hbelow]; rfl, ?_⟩
  rw [List.reverse_reverse, ← hparts]
  exact (List.dropLast_concat_getLast _).symm

theorem anchor_of_isGenerated (hg : IsGenerated c p) : p.anchor = c.output.anchor := by
  obtain ⟨names, rfl, -⟩ := hg
  rfl

theorem cleanFile_reached {removed : Bool} (hc : c.Rooted) (hd : d.files.isProper = true)
    (hp : IsLeaf c d.files p) (ht : t.at? p.parts ≠ none)
    (h : ∀ left, Reached c.output d.refused ps t d.files left)
    (hy : Yields (cleanFile c p) d removed e) :
    ∀ left, Reached c.output d.refused (if removed then ps ++ [p] else ps) t e.files left := by
  rcases cleanFile_cases hp hy with ⟨rfl, rfl, -⟩ | ⟨rfl, -, -, hprune⟩
  · exact h
  · obtain ⟨names, last, hnames, hparts⟩ := exists_reverse_below hp.generated
    have hself : (⟨c.output.anchor, p.parts⟩ : Path) = p := by
      rw [← anchor_of_isGenerated hp.generated]
    rw [hnames] at hprune
    have hstart : Reached c.output d.refused (ps ++ [p]) t (d.files.remove p.parts)
        (c.output.parts ++ names.reverse) := by
      rw [hparts]
      refine (h _).remove (List.subset_append_left ps [p]) ?_ ?_ fun q hq => ?_
      · rw [← hparts]
        exact hp.below
      · rw [← hparts]
        exact Or.inl (by rw [hself]; simp)
      · rw [← hparts]
        exact (List.mem_append.1 hq).imp id fun hq => by rw [List.mem_singleton.1 hq]
    exact prune_reached (d := ⟨d.files.remove p.parts, d.refused⟩) hc.output names
      (hnames ▸ parent_below hp.generated hp.real) (isProper_remove hd) hstart
      ⟨last, by rw [← hparts]; exact ht⟩ hprune

theorem cleanFiles_reached (hc : c.Rooted) (ps : List Path) {before deleted : List Path}
    (hd : d.files.isProper = true) (hp : ∀ p ∈ ps, IsLeaf c d.files p ∧ t.at? p.parts ≠ none)
    (h : ∀ left, Reached c.output d.refused before t d.files left)
    (hy : Yields (cleanFiles c ps) d deleted e) :
    ∀ left, Reached c.output d.refused (before ++ deleted) t e.files left := by
  induction ps generalizing d before deleted with
  | nil =>
    obtain ⟨rfl, rfl⟩ := hy.unique (yields_pure [] d)
    rw [List.append_nil]
    exact h
  | cons p ps ih =>
    rw [List.forall_mem_cons] at hp
    rw [cleanFiles] at hy
    obtain ⟨first, d', hfile, hy⟩ := hy.of_bind
    obtain ⟨more, e', hfiles, hy⟩ := hy.of_bind
    obtain ⟨rfl, rfl⟩ := hy.unique (yields_pure _ e')
    obtain ⟨hrefused, hd', hcleaned⟩ := refused_of_cleanFile hc hd hp.1.1 hfile
    have hnext := cleanFile_reached hc hd hp.1.1 hp.1.2 h hfile
    rw [← hrefused] at hnext ⊢
    have hrest := ih hd' (fun q hq => ⟨(hp.2 q hq).1.of_cleaned hcleaned, (hp.2 q hq).2⟩) hnext
      hfiles
    cases first with
    | false => exact hrest
    | true => simpa using hrest

/-- Deleted are, in order, the orphans that the system lets be deleted. -/
theorem cleanFiles_deleted (hc : c.Rooted) (ps : List Path) {deleted : List Path}
    (hd : d.files.isProper = true) (hp : ∀ p ∈ ps, IsLeaf c d.files p)
    (hy : Yields (cleanFiles c ps) d deleted e) :
    deleted.Sublist ps ∧
      ∀ p ∈ ps, p ∈ deleted ↔ IsOrphan c d.files p ∧ p ∉ d.refused := by
  induction ps generalizing d deleted with
  | nil =>
    obtain ⟨rfl, -⟩ := hy.unique (yields_pure [] d)
    exact ⟨.slnil, by simp⟩
  | cons p ps ih =>
    rw [List.forall_mem_cons] at hp
    rw [cleanFiles] at hy
    obtain ⟨first, d', hfile, hy⟩ := hy.of_bind
    obtain ⟨more, e', hfiles, hy⟩ := hy.of_bind
    obtain ⟨rfl, rfl⟩ := hy.unique (yields_pure _ e')
    obtain ⟨hrefused, hd', hcleaned⟩ := refused_of_cleanFile hc hd hp.1 hfile
    obtain ⟨hsub, hmore⟩ := ih hd' (fun q hq => (hp.2 q hq).of_cleaned hcleaned) hfiles
    have hrest : ∀ q ∈ ps, q ∈ more ↔ IsOrphan c d.files q ∧ q ∉ d.refused := by
      intro q hq
      rw [hmore q hq, hrefused, IsOrphan, IsOrphan, hasTemplate_congr hc (hp.2 q hq).real hcleaned]
    rcases cleanFile_cases hp.1 hfile with ⟨rfl, -, hkept⟩ | ⟨rfl, ho, hallowed, -⟩
    · refine ⟨hsub.cons p, List.forall_mem_cons.2 ⟨?_, hrest⟩⟩
      constructor
      · exact fun hm => (hrest p (hsub.subset hm)).1 hm
      · exact fun h => absurd (by simpa using hkept h.1) h.2
    · refine ⟨hsub.cons_cons p, List.forall_mem_cons.2 ⟨?_, fun q hq => ?_⟩⟩
      · exact ⟨fun _ => ⟨ho, by simpa using hallowed⟩, fun _ => List.mem_cons_self ..⟩
      · rw [if_pos rfl, List.mem_cons, hrest q hq]
        refine ⟨fun h => h.elim (fun he => ?_) id, Or.inr⟩
        rw [he]
        exact ⟨ho, by simpa using hallowed⟩

theorem disk_of_cleanFiles_nil (ps : List Path) (hp : ∀ p ∈ ps, IsLeaf c d.files p)
    (hy : Yields (cleanFiles c ps) d [] e) : e = d := by
  induction ps with
  | nil => exact (hy.unique (yields_pure [] d)).2
  | cons p ps ih =>
    rw [List.forall_mem_cons] at hp
    rw [cleanFiles] at hy
    obtain ⟨first, d', hfile, hy⟩ := hy.of_bind
    obtain ⟨more, e', hfiles, hy⟩ := hy.of_bind
    obtain ⟨hnil, rfl⟩ := hy.unique (yields_pure _ e')
    rcases cleanFile_cases hp.1 hfile with ⟨rfl, rfl, -⟩ | ⟨rfl, -⟩
    · obtain rfl : [] = more := hnil
      exact ih hp.2 hfiles
    · cases hnil

/-- A directory that may vanish has vanished when nothing is left to look at. -/
theorem Reached.at?_of_vanishes (h : ∀ left, Reached root refused ps t u left)
    (hq : Vanishes root refused ps t q) : u.at? q = none := by
  induction hq with
  | @intro q inside ne directory allowed held _ ih =>
    rcases (h []).gone q with he | ⟨hnone, -⟩
    · -- A directory that is left has an entry left, and that one is gone.
      obtain ⟨name, hname⟩ := held
      refine absurd ?_ hname
      refine (h (q ++ [name])).settled q (by simp) inside ne allowed (he.trans directory)
        (fun n => ?_) name
      by_cases hn : t.at? (q ++ [n]) = none
      · rcases (h []).gone (q ++ [n]) with he | ⟨hnone, -⟩
        · rw [he, hn]
        · exact hnone
      · by_cases hdeleted : (⟨root.anchor, q ++ [n]⟩ : Path) ∈ ps
        · exact (h []).deleted _ hdeleted
        · exact ih n hn hdeleted
    · exact hnone

theorem at?_of_mem_generated (hc : c.Rooted) (hd : d.files.isProper = true)
    (h : p ∈ generated d.files c.output) :
    IsLeaf c d.files p ∧ d.files.at? p.parts ≠ none := by
  obtain ⟨-, b, hb⟩ := (mem_generated hd hc.output).1 h
  exact ⟨isLeaf_of_mem_generated hc hd h, by rw [hb]; simp⟩

/-- The output directory is never gone. -/
theorem not_isGone_output (hps : ∀ p ∈ ps, IsGenerated c p) :
    ¬IsGone c.output refused ps t c.output.parts := by
  rintro (hp | ⟨-, hne, -⟩)
  · obtain ⟨names, last, -, hparts⟩ := exists_reverse_below (hps _ hp)
    simp at hparts
  · exact hne rfl

theorem reached_start (root : Path) (refused : List Path) (t : FileTree) (left : List String) :
    Reached root refused [] t t left :=
  ⟨fun _ => Or.inl rfl, by simp, fun _ _ _ _ _ _ hempty => hempty⟩

theorem hasTemplate_eq_false_iff : hasTemplate t c p = .ok false ↔
    ∃ template, c.templateFor p = .ok template ∧ t.isFile template = false := by
  rw [hasTemplate]
  cases c.templateFor p with
  | error f => simp [Except.map]
  | ok template => simp [Except.map]

/-- To delete orphans is to look at each generated file. -/
theorem cleanFiles_of_clean (hy : Yields (clean c) d ps e) :
    Yields (cleanFiles c (generated d.files c.output)) d ps e := by
  unfold clean at hy
  obtain ⟨_, _, hlook, hy⟩ := hy.of_bind
  obtain ⟨rfl, rfl⟩ := (yields_look _ d).unique hlook
  exact hy

/-- After orphans have been deleted there are none to delete. -/
theorem clean_rests (hc : c.Rooted) (hd : d.files.isProper = true)
    (hy : Yields (clean c) d ps ⟨u, d.refused⟩) (hu : u.isProper = true) :
    Yields (clean c) ⟨u, d.refused⟩ [] ⟨u, d.refused⟩ := by
  obtain ⟨more, v, hagain, -, -⟩ := clean_cleans (d := ⟨u, d.refused⟩) hc hu
  have hnone : more = [] := List.eq_nil_iff_forall_not_mem.2 fun p hp =>
    absurd (clean_again hc hd hy hagain p hp).1 (clean_again hc hd hy hagain p hp).2
  subst hnone
  have hleaf : ∀ p ∈ generated u c.output, IsLeaf c u p := fun p hp =>
    isLeaf_of_mem_generated hc hu hp
  rw [disk_of_cleanFiles_nil _ hleaf (cleanFiles_of_clean hagain)] at hagain
  exact hagain

/-- Deleting orphans deletes, in order, exactly the generated files that have no template, save
those that the system keeps, and with them exactly the directories that vanish by it. All else
stays as it is, the output directory too, and doing it again deletes nothing. -/
theorem clean_deletes_exactly (c : Config) (d : Disk) (hc : c.Rooted)
    (hd : d.files.isProper = true) :
    ∃ deleted u, Yields (clean c) d deleted ⟨u, d.refused⟩ ∧
      (deleted.Pairwise fun p q => Path.le p q = true ∧ p ≠ q) ∧
      (∀ p, p ∈ deleted ↔ IsGenerated c p ∧ (∃ b, d.files.at? p.parts = some (.file b)) ∧
        (∃ template, c.templateFor p = .ok template ∧ d.files.isFile template = false) ∧
        p ∉ d.refused) ∧
      (∀ q, IsGone c.output d.refused deleted d.files q → u.at? q = none) ∧
      (∀ q, ¬IsGone c.output d.refused deleted d.files q → u.at? q = d.files.at? q) ∧
      u.at? c.output.parts = d.files.at? c.output.parts ∧
      Yields (clean c) ⟨u, d.refused⟩ [] ⟨u, d.refused⟩ := by
  obtain ⟨deleted, u, hy, hu, -⟩ := clean_cleans hc hd
  have hleaf : ∀ p ∈ generated d.files c.output, IsLeaf c d.files p ∧ d.files.at? p.parts ≠ none :=
    fun p => at?_of_mem_generated hc hd
  have hfiles := cleanFiles_of_clean hy
  obtain ⟨hsub, hmem⟩ := cleanFiles_deleted hc _ hd (fun p hp => (hleaf p hp).1) hfiles
  have hreached : ∀ left, Reached c.output d.refused deleted d.files u left := by
    simpa using cleanFiles_reached hc _ hd hleaf (reached_start _ _ _) hfiles
  have hstays : ∀ q, ¬IsGone c.output d.refused deleted d.files q → u.at? q = d.files.at? q :=
    fun q hq => ((hreached []).gone q).resolve_right fun h => hq h.2
  refine ⟨deleted, u, hy, (pairwise_generated hd hc.output).sublist hsub, fun p => ?_,
    fun q hq => ?_, hstays, hstays _ ?_, clean_rests hc hd hy hu⟩
  · rw [← hasTemplate_eq_false_iff]
    constructor
    · intro hp
      have hg := (mem_generated hd hc.output).1 (hsub.subset hp)
      obtain ⟨ho, hallowed⟩ := (hmem p (hsub.subset hp)).1 hp
      exact ⟨hg.1, hg.2, ho.2, hallowed⟩
    · rintro ⟨hg, hb, ho, hallowed⟩
      exact (hmem p ((mem_generated hd hc.output).2 ⟨hg, hb⟩)).2 ⟨⟨hg, ho⟩, hallowed⟩
  · rcases hq with hp | hv
    · exact (hreached []).deleted _ hp
    · exact Reached.at?_of_vanishes hreached hv
  · exact not_isGone_output fun p hp => ((mem_generated hd hc.output).1 (hsub.subset hp)).1

def orphanedDisk : Disk :=
  ⟨.directory [("out", .directory [("gone", .directory [("a.g.md", .file "x".toUTF8)]),
    ("kept", .directory [("b.g.md", .file "y".toUTF8)])]), ("templates", .directory [])],
    [⟨.root, ["out", "kept"]⟩]⟩

def orphanedConfig : Config := ⟨⟨.root, ["templates"]⟩, ⟨.root, ["out"]⟩, [], 100⟩

/-- Two orphans are deleted, and one of the directories that held them: the other is kept. -/
theorem clean_deletes_exactly_of_orphaned :
    ∃ deleted u, Yields (clean orphanedConfig) orphanedDisk deleted ⟨u, orphanedDisk.refused⟩ ∧
      ⟨.root, ["out", "gone", "a.g.md"]⟩ ∈ deleted ∧ ⟨.root, ["out", "kept", "b.g.md"]⟩ ∈ deleted ∧
      u.at? ["out", "gone"] = none ∧ u.at? ["out", "kept"] = some .directory := by
  obtain ⟨deleted, u, hy, -, hmem, hgone, hstays, -⟩ :=
    clean_deletes_exactly orphanedConfig orphanedDisk
      ⟨by decide, by decide, by decide, by decide⟩ (by decide)
  have ha : (⟨.root, ["out", "gone", "a.g.md"]⟩ : Path) ∈ deleted :=
    (hmem _).2 ⟨by decide, ⟨_, rfl⟩, ⟨_, rfl, by decide⟩, by decide⟩
  have hb : (⟨.root, ["out", "kept", "b.g.md"]⟩ : Path) ∈ deleted :=
    (hmem _).2 ⟨by decide, ⟨_, rfl⟩, ⟨_, rfl, by decide⟩, by decide⟩
  refine ⟨deleted, u, hy, ha, hb, hgone _ (Or.inr ?_), hstays _ ?_⟩
  · refine .intro (by decide) (by decide) rfl (by decide) ⟨"a.g.md", nofun⟩ fun name hat hkept => ?_
    by_cases hname : name = "a.g.md"
    · rw [hname] at hkept
      exact absurd ha hkept
    · have hother : (name == "a.g.md") = false := beq_false_of_ne hname
      exact absurd (by simp [orphanedDisk, at?_directory_cons, List.lookup_cons, hother]) hat
  · rintro (hp | ⟨-, -, -, hallowed, -⟩)
    · exact absurd ((hmem _).1 hp).1 (by decide)
    · exact hallowed (by decide)

end Orphans

end DocPress
