import DocPress.Proofs.Compilation
import DocPress.Proofs.Resolution

/-!
# Nodes as they are read

Only containers and tags are open while a tree is built, so every other node of a document
that is read from a source has no children, and a call has its arguments as a list.
-/

set_option autoImplicit false

namespace DocPress

namespace Document

open Node Resolution

structure IsRead (n : Node) : Prop where
  leaf : n.kind ∈ leafKinds → n.children = []
  call : n.kind = .function → ∃ arguments, n.attributes = [("args", .list arguments)]

theorem IsRead.hasArguments {n : Node} (h : IsRead n) : HasArguments n := by
  intro hk _
  obtain ⟨arguments, ha⟩ := h.call hk
  rw [ha]
  rfl

theorem isRead_of_kind {n : Node} (h : n.kind ∉ leafKinds) : IsRead n :=
  ⟨fun hk => absurd hk h, fun hk => absurd (by rw [hk]; decide) h⟩

theorem forall_isRead_of_childless {n : Node} (hc : n.children = []) (h : IsRead n) :
    ∀ m ∈ n.walk, IsRead m := by
  rw [walk_eq, hc]
  simpa [walkAll] using h

theorem isRead_leaf (l : Leaf) : IsRead l.node := by
  cases l <;> exact ⟨fun _ => rfl, nofun⟩

theorem kind_not_mem_leafKinds (c : Container) : c.kind ∉ leafKinds := by
  cases c <;> simp [Container.kind, leafKinds]

theorem mem_walkAll_reverse {ns : List Node} {m : Node} :
    m ∈ walkAll ns.reverse ↔ m ∈ walkAll ns := by
  simp [walkAll_eq_flatMap]

namespace Builder

/-- A tree that is being built: only nodes that can have children are open, and the nodes that
are closed are read. -/
structure Reads (b : Builder) : Prop where
  frames : ∀ f ∈ b.frames, f.kind ∉ leafKinds ∧ ∀ m ∈ walkAll f.children, IsRead m
  roots : ∀ m ∈ walkAll b.roots, IsRead m

variable {b : Builder}

theorem Reads.push (h : b.Reads) {kind : NodeKind} (hk : kind ∉ leafKinds) (name : Option String)
    (attributes : Attributes) : (b.push ⟨kind, name, attributes, []⟩).Reads :=
  ⟨List.forall_mem_cons.2 ⟨⟨hk, nofun⟩, h.frames⟩, h.roots⟩

theorem Reads.append (h : b.Reads) {n : Node} (hn : ∀ m ∈ n.walk, IsRead m) :
    (b.append n).Reads := by
  obtain ⟨frames, roots⟩ := b
  obtain ⟨hframes, hroots⟩ := h
  cases frames with
  | nil => exact ⟨hframes, List.forall_mem_append.2 ⟨hn, hroots⟩⟩
  | cons f fs =>
    rw [List.forall_mem_cons] at hframes
    refine ⟨List.forall_mem_cons.2 ⟨⟨hframes.1.1, ?_⟩, hframes.2⟩, hroots⟩
    exact List.forall_mem_append.2 ⟨hn, hframes.1.2⟩

theorem Reads.pop (h : b.Reads) : b.pop.Reads := by
  obtain ⟨frames, roots⟩ := b
  cases frames with
  | nil => exact h
  | cons f fs =>
    obtain ⟨⟨hkind, hchildren⟩, hframes⟩ := List.forall_mem_cons.1 h.frames
    have hrest : (⟨fs, roots⟩ : Builder).Reads := ⟨hframes, h.roots⟩
    refine hrest.append (n := f.node) ?_
    rw [walk_eq, List.forall_mem_cons]
    exact ⟨isRead_of_kind hkind, fun m hm => hchildren m (mem_walkAll_reverse.1 hm)⟩

theorem Reads.popMany (h : b.Reads) (k : Nat) : (Builder.popMany k b).Reads := by
  induction k generalizing b with
  | zero => exact h
  | succ k ih => exact ih h.pop

theorem Reads.closeContainer (h : b.Reads) (source : String) (kind : NodeKind) :
    (closeContainer source kind b).1.Reads := by
  unfold Builder.closeContainer
  split
  · exact h
  · exact h.popMany _

theorem Reads.closeTag (h : b.Reads) (source name : String) :
    (closeTag source name b).1.Reads := by
  unfold Builder.closeTag
  split
  · exact h
  · exact h.popMany _

theorem Reads.feedDirective (h : b.Reads) (source : String) (d : Directive) :
    (feedDirective source b d).1.Reads := by
  cases d with
  | opening name attributes => exact h.push (by decide) _ _
  | closing name => exact h.closeTag source name
  | selfClosing name attributes =>
    exact h.append (forall_isRead_of_childless rfl
      (isRead_of_kind (show NodeKind.tag ∉ leafKinds by decide)))
  | call name arguments =>
    exact h.append (forall_isRead_of_childless rfl ⟨fun _ => rfl, fun _ => ⟨arguments, rfl⟩⟩)

mutual

theorem Reads.feed {b : Builder} (h : b.Reads) (source : String) (t : Token) :
    (feed source b t).1.Reads := by
  cases t with
  | opening c => exact h.push (kind_not_mem_leafKinds c) _ _
  | closing kind => exact h.closeContainer source kind
  | hidden | unsupported name => exact h
  | directive d => exact h.feedDirective source d
  | leaf l =>
    exact h.append (forall_isRead_of_childless (by cases l <;> rfl) (isRead_leaf l))
  | inline ts => exact h.feedAll source ts

theorem Reads.feedAll {b : Builder} (h : b.Reads) (source : String) (ts : List Token) :
    (feedAll source b ts).1.Reads := by
  cases ts with
  | nil => exact h
  | cons t ts => exact Reads.feedAll (h.feed source t) source ts

end

end Builder

theorem isRead_of_ofTokens (source : String) (ts : List Token) :
    ∀ m ∈ (ofTokens source ts).1.walk, IsRead m := by
  have hstart : Builder.start.Reads := ⟨nofun, nofun⟩
  have hfed := hstart.feedAll source ts
  rw [walk_eq, List.forall_mem_cons]
  refine ⟨isRead_of_kind (show NodeKind.document ∉ leafKinds by decide), fun m hm => ?_⟩
  exact (hfed.popMany _).roots m (mem_walkAll_reverse.1 hm)

theorem isRead_of_read {name source : String} {n : Node} (h : (read name source).result = .ok n) :
    ∀ m ∈ n.walk, IsRead m := by
  unfold read at h
  dsimp only at h
  split at h
  · cases h
  · rw [← Except.ok.inj h]
    exact isRead_of_ofTokens name _

end Document

namespace Compilation

theorem isRead_of_documentOf {files : FileTree} {p : Path} {n : Node}
    (h : (documentOf files p).result = .ok n) : ∀ m ∈ n.walk, Document.IsRead m := by
  cases hl : files.load p with
  | ok source =>
    rw [documentOf_of_load hl] at h
    exact Document.isRead_of_read h
  | error f =>
    rw [documentOf, hl, Reporting.ofExcept_error_bind] at h
    cases h

end Compilation

end DocPress
