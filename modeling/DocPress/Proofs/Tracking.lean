import DocPress.Proofs.Dependency.Search
import DocPress.Proofs.Evaluation

/-!
# The tracker sees what compiling reads

Whatever a template includes while it is compiled, directly or through others,
is among the partials found for it, as long as inclusion tags name their files
by texts. So the text of a template, or the failure that stops it, is decided
by the template and its partials, and the rest of the tree may change freely.
-/

set_option autoImplicit false

namespace DocPress

def Node.NamesFiles (n : Node) : Prop :=
  ∀ x ∈ n.walk, x.isTagNamed Schema.partialTag = true →
    (Attributes.get x.attributes "file").text?.isSome = true

instance (n : Node) : Decidable n.NamesFiles := inferInstanceAs (Decidable (∀ x ∈ n.walk, _))

namespace Dependency

open FileTree Compilation

/-- A node is an inclusion tag with a literal that reads as a text, which is not empty. -/
def Spells (x : Node) (s : String) : Prop :=
  x.isTagNamed Schema.partialTag = true ∧ Attributes.get x.attributes "file" ≠ .null ∧
    (Attributes.get x.attributes "file").display = s ∧ s ≠ ""

theorem spells_of_partialName? {attributes : Attributes} {children : List Node}
    {content : Option String} {s : String} (h : Resolution.partialName? attributes = some s) :
    Spells ⟨.tag, some Schema.partialTag, attributes, children, content⟩ s := by
  obtain ⟨-, hnull, hread, hne⟩ := Resolution.partialName?_eq_some_iff.1 h
  exact ⟨by simp [Node.isTagNamed], hnull, hread, hne⟩

mutual

/-- What a document looks up is spelled on one of its inclusion tags. -/
theorem exists_spells_of_lookups {s : String} (n : Node) (hs : s ∈ Resolution.lookups n) :
    ∃ x ∈ n.walk, Spells x s := by
  obtain ⟨kind, name, attributes, children, content⟩ := n
  rw [Node.walk]
  by_cases hn : kind = .tag ∧ name = some Schema.partialTag
  · obtain ⟨rfl, rfl⟩ := hn
    have hs : Resolution.partialName? attributes = some s := by
      simpa [Resolution.lookups] using hs
    exact ⟨_, List.mem_cons_self .., spells_of_partialName? hs⟩
  · have hc : s ∈ Resolution.lookupsAll children := by
      cases kind <;> simp only [Resolution.lookups] at hs
      case tag => rwa [if_neg fun e => hn ⟨rfl, e⟩] at hs
      all_goals first | exact hs | cases hs
    obtain ⟨x, hx, hspells⟩ := exists_spells_of_lookupsAll children hc
    exact ⟨x, List.mem_cons_of_mem _ hx, hspells⟩

theorem exists_spells_of_lookupsAll {s : String} (ns : List Node)
    (hs : s ∈ Resolution.lookupsAll ns) : ∃ x ∈ Node.walkAll ns, Spells x s := by
  cases ns with
  | nil => cases hs
  | cons n ns =>
    rw [Resolution.lookupsAll, List.mem_append] at hs
    rw [Node.walkAll]
    rcases hs with hs | hs
    · obtain ⟨x, hx, hspells⟩ := exists_spells_of_lookups n hs
      exact ⟨x, List.mem_append_left _ hx, hspells⟩
    · obtain ⟨x, hx, hspells⟩ := exists_spells_of_lookupsAll ns hs
      exact ⟨x, List.mem_append_right _ hx, hspells⟩

end

/-- A document that names its files looks up no partial that the scan of its tree misses. -/
theorem included_of_lookups {s : String} (n : Node) (h : n.NamesFiles)
    (hs : s ∈ Resolution.lookups n) : ∃ file ∈ n.walk.filterMap included?, file.display = s := by
  obtain ⟨x, hx, htag, -, hread, hne⟩ := exists_spells_of_lookups n hs
  obtain ⟨r, hr⟩ := Option.isSome_iff_exists.1 (h x hx htag)
  obtain rfl : r = s := by rwa [Value.display, hr] at hread
  exact ⟨_, List.mem_filterMap.2 ⟨x, hx, by simp [included?, htag, hr, hne]⟩, hread⟩

/-! ## Scanned templates -/

theorem hasNul_of_scanned {files : FileTree} {found : List Path} {p : Path}
    (h : Scanned files found p) : p.hasNul = false := by
  obtain ⟨qs, hq, -⟩ := h
  cases hn : p.hasNul with
  | false => rfl
  | true =>
    rw [partialsOf, load_of_hasNul hn] at hq
    cases hq

/-- The partials of a file that was scanned are those of its document. -/
theorem document_of_scanned {files : FileTree} {found : List Path} {p : Path}
    (h : Scanned files found p) (hf : files.isFile p = true) :
    ∃ n, (documentOf files p).result = .ok n ∧
      ∀ file ∈ n.walk.filterMap included?,
        (p.parent ++ Path.ofString file.display).real ∈ found := by
  have hn := hasNul_of_scanned h
  obtain ⟨qs, hq, hsub⟩ := h
  rcases partialsOf_ok hq with ⟨-, f, hl, hsys⟩ | ⟨n, hdoc, hps⟩
  · obtain ⟨b, hb⟩ := isFile_iff.1 hf
    rw [load_of_content hn hb] at hl
    split at hl
    · cases hl
    · obtain rfl := Except.error.inj hl
      cases hsys
  · exact ⟨n, hdoc, fun s hs => hsub _ ((mem_partials hps _).2 ⟨s, hs, rfl⟩)⟩

theorem documentOf_of_real {files : FileTree} {t : Path} {n : Node} (hf : files.isFile t = true)
    (hn : t.hasNul = false) (h : (documentOf files t.real).result = .ok n) :
    (documentOf files t).result = .ok n := by
  obtain ⟨b, hb⟩ := isFile_iff.1 hf
  have hl := load_of_content (Path.hasNul_real hn) (content?_real hb)
  cases hs : readText? b with
  | none =>
    rw [hs] at hl
    rw [documentOf, hl, Reporting.ofExcept_error_bind] at h
    cases h
  | some source =>
    rw [hs] at hl
    have hl' : files.load t = .ok source := by rw [load_of_content hn hb, hs]
    rw [documentOf_of_load hl] at h
    rw [documentOf_of_load hl', Document.read_name _ t.real.toString, h]

theorem closed_of_reachable {files : FileTree} {t : Path} {found : List Path}
    (hr : (reachable files t).result = .ok found)
    (hnames : ∀ p ∈ t :: found, ∀ n, (documentOf files p).result = .ok n → n.NamesFiles)
    (ht : files.isFile t = true) : Closed files fun q => q = t.real ∨ q ∈ found := by
  obtain ⟨-, htemplate, hfiles⟩ := reachable_scanned hr
  intro p n hp _ hdoc s hs
  right
  rcases hp with rfl | hp
  · have hdoc := documentOf_of_real ht (hasNul_of_scanned htemplate) hdoc
    obtain ⟨m, hm, hsub⟩ := document_of_scanned htemplate ht
    obtain rfl : m = n := Except.ok.inj (hm.symm.trans hdoc)
    obtain ⟨file, hfile, rfl⟩ :=
      included_of_lookups m (hnames t (List.mem_cons_self ..) m hdoc) hs
    rw [Path.real_parent_append t _ (getLast?_of_isFile ht)]
    exact hsub file hfile
  · have hf := isFile_of_documentOf hdoc
    obtain ⟨m, hm, hsub⟩ := document_of_scanned (hfiles p hp hf) hf
    obtain rfl : m = n := Except.ok.inj (hm.symm.trans hdoc)
    obtain ⟨file, hfile, rfl⟩ :=
      included_of_lookups m (hnames p (List.mem_cons_of_mem _ hp) m hdoc) hs
    exact hsub file hfile

/-- Two trees that agree on a template and on the partials found for it compile the template
alike. Where there is no template to read, both fail to open it. -/
theorem compileFile_of_tracked_alike {files other : FileTree} {t : Path} {found : List Path}
    (hr : (reachable files t).result = .ok found)
    (hnames : ∀ p ∈ t :: found, ∀ n, (documentOf files p).result = .ok n → n.NamesFiles)
    (hspelled : files.isFile t.real = true → files.isFile t = true)
    (halike : ∀ p ∈ t.real :: found, files.content? p = other.content? p) :
    (files.isFile t = true → compileFile files t = compileFile other t) ∧
      (files.isFile t = false → ∃ f g, (compileFile files t).result = .error f ∧
        (compileFile other t).result = .error g ∧ f.isSystem = true ∧ g.isSystem = true) := by
  constructor
  · intro ht
    have ha : Alike files other fun q => q = t.real ∨ q ∈ found :=
      fun p hp _ => halike p (List.mem_cons.2 hp)
    exact compileFile_congr (closed_of_reachable hr hnames ht) ha (Or.inl rfl)
      (load_congr (halike _ (List.mem_cons_self ..)) (isFile_real ht))
  · intro ht
    have hn := Path.hasNul_real (hasNul_of_scanned (reachable_scanned hr).2.1)
    have hc : files.content? t.real = none := by
      cases hc : files.content? t.real with
      | none => rfl
      | some b =>
        rw [hspelled (isFile_iff.2 ⟨b, hc⟩)] at ht
        cases ht
    obtain ⟨f, hf, hfs⟩ := load_of_no_content hn hc
    obtain ⟨g, hg, hgs⟩ := load_of_no_content hn ((halike _ (List.mem_cons_self ..)).symm.trans hc)
    refine ⟨f, g, ?_, ?_, hfs, hgs⟩
    · rw [compileFile, hf, Reporting.ofExcept_error_bind]
      rfl
    · rw [compileFile, hg, Reporting.ofExcept_error_bind]
      rfl

def trackedFiles (aside : String) : FileTree :=
  .directory [("a.mdoc", .file "\x7b% partial file=\"p.p.mdoc\" /%\x7d".toUTF8),
    ("p.p.mdoc", .file "B".toUTF8), ("aside.mdoc", .file aside.toUTF8)]

theorem compileFile_of_changed_aside :
    compileFile (trackedFiles "x") ⟨.root, ["a.mdoc"]⟩ =
      compileFile (trackedFiles "y") ⟨.root, ["a.mdoc"]⟩ := by
  have hr : (reachable (trackedFiles "x") ⟨.root, ["a.mdoc"]⟩).result =
      .ok [⟨.root, ["p.p.mdoc"]⟩] := eq_ok_of_toOption (by decide +kernel)
  refine (compileFile_of_tracked_alike hr ?_ (by decide) (by decide)).1 (by decide)
  intro p hp
  apply forall_ok_of_all
  revert p
  decide +kernel

/-- The kind of the failure is not decided by what is tracked: where one tree has nothing, the
other may have a directory. -/
theorem compileFile_of_no_template : ¬ ∀ (files other : FileTree) (t : Path) (found : List Path),
    (reachable files t).result = .ok found →
    (∀ p ∈ t :: found, ∀ n, (documentOf files p).result = .ok n → n.NamesFiles) →
    (∀ p ∈ t :: found, files.content? p = other.content? p) →
    (compileFile files t).result = (compileFile other t).result := by
  intro h
  have hs := h (.directory []) (.directory [("a.mdoc", .directory [])]) ⟨.root, ["a.mdoc"]⟩ [] rfl
    (by
      intro p hp n hn
      obtain rfl := List.mem_singleton.1 hp
      cases hn)
    (by decide)
  cases hs

end Dependency

end DocPress
