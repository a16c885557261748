import DocPress.Dependency
import DocPress.Proofs.Compilation
import DocPress.Proofs.Evaluation
import DocPress.Proofs.Reading

/-!
# Partials

The partials of a document are what the file names of its inclusion tags lead to from the
document's directory, each once. A file that cannot be opened has none.
-/

set_option autoImplicit false

namespace DocPress.Dependency

open FileTree Compilation

/-! ## Paths kept once -/

theorem mem_addPath {ps : List Path} {p q : Path} : q ∈ addPath ps p ↔ q ∈ ps ∨ q = p := by
  unfold addPath
  split
  · rename_i h
    constructor
    · exact Or.inl
    · rintro (hq | rfl)
      · exact hq
      · simpa using h
  · simp

theorem mem_foldl_addPath {found ps : List Path} {q : Path} :
    q ∈ ps.foldl addPath found ↔ q ∈ found ∨ q ∈ ps := by
  induction ps generalizing found with
  | nil => simp
  | cons p ps ih => rw [List.foldl_cons, ih, mem_addPath, List.mem_cons, or_assoc]

theorem nodup_addPath {ps : List Path} (h : ps.Nodup) (p : Path) : (addPath ps p).Nodup := by
  unfold addPath
  split
  · exact h
  · rename_i hm
    rw [List.nodup_append]
    refine ⟨h, by simp, ?_⟩
    intro a ha b hb e
    rw [List.mem_singleton.1 hb] at e
    exact hm (by simpa [e] using ha)

theorem nodup_foldl_addPath {found : List Path} (h : found.Nodup) (ps : List Path) :
    (ps.foldl addPath found).Nodup := by
  induction ps generalizing found with
  | nil => exact h
  | cons p ps ih => exact ih (nodup_addPath h p)

/-! ## The partials of one document -/

theorem place_eq_ok_iff {directory : Path} {file : Value} {p : Path} :
    place directory file = .ok p ↔
      (file.isEncodable = true ∧ (directory ++ Path.ofString file.display).hasNul = false) ∧
        p = (directory ++ Path.ofString file.display).real := by
  unfold place
  dsimp only
  cases file.isEncodable with
  | false => simp
  | true =>
    cases (directory ++ Path.ofString file.display).hasNul with
    | true => simp
    | false => simp [eq_comm (a := p)]

/-- The partials that a document in a directory includes are what its names lead to; they are
found unless one of these cannot be encoded or holds NUL. -/
theorem partials_eq_ok_iff {directory : Path} {n : Node} {ps : List Path} :
    partials directory n = .ok ps ↔
      (∀ file ∈ n.walk.filterMap included?, file.isEncodable = true ∧
        (directory ++ Path.ofString file.display).hasNul = false) ∧
      ps = ((n.walk.filterMap included?).map fun file =>
        (directory ++ Path.ofString file.display).real).foldl addPath [] := by
  rw [partials, bind_eq_ok_iff]
  simp only [mapM_eq_ok_iff fun _ _ => place_eq_ok_iff]
  constructor
  · rintro ⟨_, ⟨hnames, rfl⟩, hps⟩
    exact ⟨hnames, (Except.ok.inj hps).symm⟩
  · rintro ⟨hnames, rfl⟩
    exact ⟨_, ⟨hnames, rfl⟩, rfl⟩

theorem mem_partials {directory : Path} {n : Node} {ps : List Path}
    (h : partials directory n = .ok ps) (q : Path) :
    q ∈ ps ↔ ∃ file ∈ n.walk.filterMap included?,
      (directory ++ Path.ofString file.display).real = q := by
  rw [(partials_eq_ok_iff.1 h).2, mem_foldl_addPath, List.mem_map]
  simp

theorem nodup_of_partials {directory : Path} {n : Node} {ps : List Path}
    (h : partials directory n = .ok ps) : ps.Nodup := by
  rw [(partials_eq_ok_iff.1 h).2]
  exact nodup_foldl_addPath List.nodup_nil _

/-- What the scan of a file yields: nothing when it cannot be opened, else its partials. -/
theorem partialsOf_ok {files : FileTree} {p : Path} {qs : List Path}
    (h : (partialsOf files p).result = .ok qs) :
    (qs = [] ∧ ∃ f, files.load p = .error f ∧ f.isSystem = true) ∨
      ∃ n, (documentOf files p).result = .ok n ∧ partials p.parent n = .ok qs := by
  unfold partialsOf at h
  cases hl : files.load p with
  | error f =>
    simp only [hl] at h
    split at h
    · rename_i hf
      exact Or.inl ⟨(Except.ok.inj h).symm, f, rfl, hf⟩
    · cases h
  | ok source =>
    simp only [hl] at h
    rw [documentOf_of_load hl]
    cases hn : (Document.read p.toString source).result with
    | error f =>
      rw [Reporting.bind_of_error _ hn] at h
      cases h
    | ok n =>
      rw [Reporting.bind_of_ok _ hn] at h
      exact Or.inr ⟨n, rfl, h⟩

theorem isReal_of_partialsOf {files : FileTree} {p q : Path} {qs : List Path}
    (h : (partialsOf files p).result = .ok qs) (hq : q ∈ qs) : q.IsReal := by
  rcases partialsOf_ok h with ⟨rfl, -⟩ | ⟨n, -, hn⟩
  · cases hq
  · obtain ⟨s, -, rfl⟩ := (mem_partials hn q).1 hq
    exact Path.isReal_real _

theorem nodup_of_partialsOf {files : FileTree} {p : Path} {qs : List Path}
    (h : (partialsOf files p).result = .ok qs) : qs.Nodup := by
  rcases partialsOf_ok h with ⟨rfl, -⟩ | ⟨n, -, hn⟩
  · exact List.nodup_nil
  · exact nodup_of_partials hn

end DocPress.Dependency
