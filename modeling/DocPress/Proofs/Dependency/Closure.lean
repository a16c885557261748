import DocPress.Proofs.Dependency.Map
import DocPress.Proofs.Path.Spelling

/-!
# What the search finds

An existing file refers to a path if one of its inclusion tags, wherever it stands, has a file
name that leads there from the file's directory. From a file whose references can all be
followed the search finds what one or more references lead to, in whatever order it takes them
up and whatever circles they run in. A file name that holds NUL, or a surrogate that cannot be
encoded, leads nowhere: the search fails when it comes to one.
-/

set_option autoImplicit false

namespace DocPress.Dependency

open FileTree Compilation Relation

variable {files : FileTree} {t p q : Path}

/-! ## References as they are written -/

/-- A node is an inclusion tag with a file name, a text that is not empty. -/
def Names (x : Node) (s : String) : Prop :=
  x.isTagNamed Schema.partialTag = true ∧ (Attributes.get x.attributes "file").text? = some s ∧
    s ≠ ""

/-- An existing file refers to a path. -/
def RefersTo (files : FileTree) (p q : Path) : Prop :=
  ∃ n, (documentOf files p).result = .ok n ∧
    ∃ x ∈ n.walk, ∃ s, Names x s ∧ (p.parent ++ Path.ofString s).real = q

/-- A file, if there is one, parses, and the file names in it can be encoded and hold no NUL. -/
def IsLegible (files : FileTree) (p : Path) : Prop :=
  files.isFile p = true → ∃ n, (documentOf files p).result = .ok n ∧
    ∀ x ∈ n.walk, ∀ s, Names x s →
      (Attributes.get x.attributes "file").isEncodable = true ∧ '\x00' ∉ s.toList

/-- All references can be followed that a path leads to. -/
structure IsTraced (files : FileTree) (t : Path) : Prop where
  noNul : t.hasNul = false
  legible : ∀ p, ReflTransGen (RefersTo files) t p → IsLegible files p

/-- However a search takes up references, it ends, does not fail, and then has found what one or
more references lead to. -/
structure Finds (files : FileTree) (t : Path) : Prop where
  ends : Acc (fun s' s => Search.Step files s s') (.start t)
  goesOn : ∀ s, ReflTransGen (Search.Step files) (.start t) s → s.pending ≠ [] →
    ∃ s', Search.Step files s s'
  finds : ∀ s, ReflTransGen (Search.Step files) (.start t) s → s.pending = [] →
    ∀ p, p ∈ s.found ↔ TransGen (RefersTo files) t p

theorem Names.display_eq {x : Node} {s : String} (h : Names x s) :
    (Attributes.get x.attributes "file").display = s := by
  rw [Value.display, h.2.1, Option.getD_some]

theorem included?_eq_some_iff {x : Node} {file : Value} :
    included? x = some file ↔ Attributes.get x.attributes "file" = file ∧ Names x file.display := by
  constructor
  · intro h
    obtain ⟨hx, hfile⟩ := Option.ite_none_right_eq_some.1 h
    obtain rfl := Option.some.inj hfile
    obtain ⟨htag, hany⟩ := Bool.and_eq_true_iff.1 hx
    obtain ⟨s, hs, hne⟩ := (Option.any_eq_true _ _).1 hany
    have hnames : Names x s := ⟨htag, hs, by simpa using hne⟩
    exact ⟨rfl, hnames.display_eq.symm ▸ hnames⟩
  · rintro ⟨rfl, htag, htext, hne⟩
    simp [included?, htag, htext, hne]

theorem mem_filterMap_included {n : Node} {file : Value} :
    file ∈ n.walk.filterMap included? ↔
      ∃ x ∈ n.walk, Attributes.get x.attributes "file" = file ∧ Names x file.display := by
  simp only [List.mem_filterMap, included?_eq_some_iff]

theorem Names.mem_included {n x : Node} {s : String} (h : Names x s) (hx : x ∈ n.walk) :
    Attributes.get x.attributes "file" ∈ n.walk.filterMap included? :=
  mem_filterMap_included.2 ⟨x, hx, rfl, h.display_eq.symm ▸ h⟩

theorem Refers.refersTo (h : Refers files p q) : RefersTo files p q := by
  obtain ⟨qs, hqs, hq⟩ := h
  rcases partialsOf_ok hqs with ⟨rfl, -⟩ | ⟨n, hn, hps⟩
  · cases hq
  · obtain ⟨file, hfile, rfl⟩ := (mem_partials hps q).1 hq
    obtain ⟨x, hx, -, hnames⟩ := mem_filterMap_included.1 hfile
    exact ⟨n, hn, x, hx, file.display, hnames, rfl⟩

/-! ## Following references -/

namespace IsTraced

theorem place_eq_ok (h : IsTraced files t) {n x : Node} {s : String}
    (hn : (documentOf files t).result = .ok n) (hx : x ∈ n.walk) (hs : Names x s) :
    place t.parent (Attributes.get x.attributes "file") =
      .ok (t.parent ++ Path.ofString s).real := by
  obtain ⟨m, hm, hlegible⟩ := h.legible t .refl (isFile_of_documentOf hn)
  obtain rfl := Except.ok.inj (hm.symm.trans hn)
  obtain ⟨hencodable, hnul⟩ := hlegible x hx s hs
  rw [place_eq_ok_iff, hs.display_eq]
  exact ⟨⟨hencodable, Path.hasNul_append (Path.hasNul_parent h.noNul) (Path.hasNul_ofString hnul)⟩,
    rfl⟩

theorem hasNul_of_refersTo (h : IsTraced files t) (hq : RefersTo files t q) :
    q.hasNul = false := by
  obtain ⟨n, hn, x, hx, s, hs, rfl⟩ := hq
  have hplace := (place_eq_ok_iff.1 (h.place_eq_ok hn hx hs)).1.2
  rw [hs.display_eq] at hplace
  exact Path.hasNul_real hplace

theorem step (h : IsTraced files t) (hq : RefersTo files t q) : IsTraced files q where
  noNul := h.hasNul_of_refersTo hq
  legible p hp := h.legible p (.head hq hp)

theorem run (h : IsTraced files t) (hq : ReflTransGen (RefersTo files) t q) :
    IsTraced files q := by
  induction hq with
  | refl => exact h
  | tail _ hq ih => exact ih.step hq

theorem exists_partialsOf (h : IsTraced files t) :
    ∃ qs, (partialsOf files t).result = .ok qs ∧ ∀ q, RefersTo files t q → q ∈ qs := by
  cases hc : files.content? t with
  | none =>
    obtain ⟨f, hf, hsystem⟩ := load_of_no_content h.noNul hc
    refine ⟨[], partialsOf_of_unreadable hf hsystem, ?_⟩
    rintro q ⟨n, hn, -⟩
    obtain ⟨b, hb⟩ := isFile_iff.1 (isFile_of_documentOf hn)
    cases hc.symm.trans hb
  | some b =>
    obtain ⟨n, hn, -⟩ := h.legible t .refl (isFile_iff.2 ⟨b, hc⟩)
    have hplaces : ∀ file ∈ n.walk.filterMap included?, ∃ q, place t.parent file = .ok q := by
      intro file hfile
      obtain ⟨x, hx, rfl, hnames⟩ := mem_filterMap_included.1 hfile
      exact ⟨_, h.place_eq_ok hn hx hnames⟩
    obtain ⟨qs, hqs⟩ := exists_partials hplaces
    refine ⟨qs, partialsOf_of_document hn hqs, ?_⟩
    rintro q ⟨m, hm, x, hx, s, hs, rfl⟩
    obtain rfl := Except.ok.inj (hn.symm.trans hm)
    exact (mem_partials hqs _).2 ⟨_, hs.mem_included hx, by rw [hs.display_eq]⟩

theorem refers (h : IsTraced files t) (hq : RefersTo files t q) : Refers files t q := by
  obtain ⟨qs, hqs, hall⟩ := h.exists_partialsOf
  exact ⟨qs, hqs, hall q hq⟩

theorem transGen_iff (h : IsTraced files t) :
    TransGen (Refers files) t q ↔ TransGen (RefersTo files) t q := by
  refine ⟨TransGen.mono (fun _ _ => Refers.refersTo) t q, fun hq => ?_⟩
  induction hq with
  | single hp => exact .single (h.refers hp)
  | tail hp hq ih => exact .tail ih ((h.run hp.to_reflTransGen).refers hq)

theorem exists_partialsOf_source (h : IsTraced files t) :
    ∀ p, p = t ∨ TransGen (Refers files) t p ∧ files.isFile p = true →
      ∃ qs, (partialsOf files p).result = .ok qs := by
  intro p hp
  have hrun : ReflTransGen (RefersTo files) t p := by
    rcases hp with rfl | ⟨hp, -⟩
    · exact .refl
    · exact (h.transGen_iff.1 hp).to_reflTransGen
  exact (h.run hrun).exists_partialsOf.imp fun _ hqs => hqs.1

theorem finds (h : IsTraced files t) : Finds files t where
  ends := (Search.Holds.start files t).acc
  goesOn _ hrun hs := exists_step hrun hs h.exists_partialsOf_source
  finds _ hrun hs p :=
    (((Search.Holds.start files t).run hrun).mem_found hs p).trans h.transGen_iff

theorem reachable (h : IsTraced files t) :
    ∃ found, (reachable files t).result = .ok found ∧ found.Nodup ∧
      ∀ p, p ∈ found ↔ TransGen (RefersTo files) t p := by
  obtain ⟨found, hfound⟩ := exists_reachable h.exists_partialsOf_source
  exact ⟨found, hfound, (reachable_scanned hfound).1.nodup,
    fun p => (mem_reachable hfound p).trans h.transGen_iff⟩

end IsTraced

def loopFiles : FileTree :=
  .directory [("a.mdoc", .file "\x7b% partial file=\"b.mdoc\" /%\x7d".toUTF8),
    ("b.mdoc", .file ("\x7b% partial file=\"a.mdoc\" /%\x7d\n\n" ++
      "\x7b% partial file=\"gone.mdoc\" /%\x7d").toUTF8)]

theorem isLegible_of_any (h : ((documentOf files p).result.toOption.any fun n =>
    (n.walk.filterMap included?).all fun file =>
      file.isEncodable && !file.display.toList.contains '\x00') = true) :
    IsLegible files p := by
  intro _
  obtain ⟨n, hn, hall⟩ := (Option.any_eq_true _ _).1 h
  refine ⟨n, eq_ok_of_toOption hn, fun x hx s hs => ?_⟩
  have hfile := List.all_eq_true.1 hall _ (hs.mem_included hx)
  simpa [hs.display_eq] using hfile

/-- Whether all files that a path leads to are legible can be told from the files that there
are. -/
theorem isLegible_of_files (ht : t.IsReal) (h : ∀ f ∈ files.files, IsLegible files ⟨.root, f.1⟩)
    (p : Path) (hp : ReflTransGen (RefersTo files) t p) : IsLegible files p := by
  have hreal : p.IsReal := by
    cases hp with
    | refl => exact ht
    | tail _ hstep =>
      obtain ⟨-, -, -, -, s, -, rfl⟩ := hstep
      exact Path.isReal_real _
  intro hf
  exact of_isFile hreal hf h hf

def unnameableFiles : FileTree :=
  .directory [("a.mdoc", .file "\x7b% partial file=\"a\\u0000\" /%\x7d".toUTF8),
    ("b.mdoc", .file "\x7b% partial file=\"\\ud800\" /%\x7d".toUTF8)]

end DocPress.Dependency
