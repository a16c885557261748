import DocPress.Proofs.Document.Order
import DocPress.Proofs.Document.Shape

/-!
# What including a partial yields

An inclusion tag becomes the render tree of its partial, and every other node of a document that
is read becomes what it would become in a document without partials. So a render tree is whole
if those of the partials in it are, and by induction on the depth of inclusion all of them are.
-/

set_option autoImplicit false

namespace DocPress

namespace Document

open Node Resolution

def HasLevel (n : Node) : Prop :=
  n.kind = .heading → isLevel (Ordered.get? n.attributes "level") = true

theorem hasLevel_container (c : Container) (n : Node) (hk : n.kind = c.kind)
    (ha : n.attributes = c.attributes) : HasLevel n := by
  intro h
  rw [hk] at h
  cases c with
  | heading level =>
    rw [ha]
    rfl
  | _ => cases h

theorem hasLevel_directive (d : Directive) : ∀ m ∈ directiveNode? d, HasLevel m := by
  cases d <;> simp [directiveNode?, HasLevel]

mutual

theorem hasLevel_nodes : ∀ t : Token, ∀ m ∈ t.nodes, HasLevel m
  | .opening c => by
    simpa [Token.nodes] using hasLevel_container c _ rfl rfl
  | .leaf l => by
    cases l <;> simp [Token.nodes, Leaf.node, HasLevel]
  | .directive d => by
    simpa [Token.nodes] using hasLevel_directive d
  | .inline children => hasLevel_nodesAll children
  | .closing _ | .hidden | .unsupported _ => nofun

theorem hasLevel_nodesAll : ∀ ts : List Token, ∀ m ∈ Token.nodesAll ts, HasLevel m
  | [] => nofun
  | t :: ts => List.forall_mem_append.2 ⟨hasLevel_nodes t, hasLevel_nodesAll ts⟩

end

theorem hasLevel_ofTokens (source : String) (ts : List Token) :
    ∀ m ∈ (ofTokens source ts).1.walk, HasLevel m := by
  have hbelow : bareWalk (ofTokens source ts).1.children = Token.nodesAll ts := by
    simp only [ofTokens]
    rw [Builder.bareWalk_finish, Builder.nodes_feedAll]
    rfl
  have htop : HasLevel (ofTokens source ts).1 := by
    intro hkind
    cases hkind
  rw [walk_eq, List.forall_mem_cons]
  refine ⟨htop, fun m hm => ?_⟩
  have hbare : m.bare ∈ Token.nodesAll ts := by
    rw [← hbelow]
    exact List.mem_map_of_mem hm
  exact hasLevel_nodesAll ts m.bare hbare

theorem exists_of_read {name source : String} {n : Node} (h : (read name source).result = .ok n) :
    ∃ ts, n = (ofTokens name ts).1 := by
  unfold read at h
  dsimp only at h
  split at h
  · cases h
  · exact ⟨_, (Except.ok.inj h).symm⟩

end Document

namespace Resolution

open Element

structure IsTemplate (n : Node) : Prop where
  leaf : n.kind ∈ leafKinds → n.children = []
  level : n.kind = .heading → isLevel (Ordered.get? n.attributes "level") = true

def included (scope : Scope) (m : Node) : Element :=
  match partialName? m.attributes with
  | some s => ((scope.include_ s).result.toOption).getD (.value .null)
  | none => .value .null

inductive Yields (scope : Scope) : List Node → List Element → Prop
  | nil : Yields scope [] []
  | cons {n : Node} {ns : List Node} {r : Resolved} {es gs fs : List Element} :
      n.isTagNamed Schema.partialTag = false → (resolve scope n).result = .ok r →
      r.elements = gs → Yields scope n.children es → Becomes n es gs → Yields scope ns fs →
      Yields scope (n :: ns) (gs ++ fs)
  | included {n : Node} {ns : List Node} {s : String} {fs : List Element} :
      n.isTagNamed Schema.partialTag = true →
      (scope.include_ s).result = .ok (included scope n) → Yields scope ns fs →
      Yields scope (n :: ns) (included scope n :: fs)

variable {scope : Scope} {n : Node} {r : Resolved}

theorem included_of_resolve (hn : n.isTagNamed Schema.partialTag = true)
    (h : (resolve scope n).result = .ok r) :
    r.elements = [included scope n] ∧ ∃ s, (scope.include_ s).result = .ok (included scope n) := by
  obtain ⟨kind, name, attributes, children, content⟩ := n
  simp only [Node.isTagNamed, Bool.and_eq_true, beq_iff_eq] at hn
  obtain ⟨rfl, rfl⟩ := hn
  simp only [resolve, Option.getD_some, Schema.find?_partial] at h
  cases hc : (checkedAttributes scope.file Schema.partialSchema attributes
      (!children.isEmpty)).result with
  | error f =>
    rw [Reporting.bind_of_error _ hc] at h
    cases h
  | ok kept =>
    have htag : Schema.partialSchema.name = Schema.partialTag := rfl
    simp only [Reporting.bind_of_ok _ hc, if_pos htag] at h
    obtain ⟨e, he, rfl⟩ := Reporting.ok_of_map h
    obtain ⟨hfile, he⟩ := include_of_includeFile he
    have hincluded : included scope ⟨.tag, some Schema.partialTag, attributes, children, content⟩ =
        e := by
      simp only [included, partialName?_of_ok hc hfile, he]
      rfl
    rw [hincluded]
    exact ⟨rfl, _, he⟩

mutual

theorem yields_of_resolve {r : Resolved} {ns : List Node} {fs : List Element}
    (hns : Yields scope ns fs) : ∀ n : Node, (∀ m ∈ n.walk, IsTemplate m) →
      (resolve scope n).result = .ok r → Yields scope (n :: ns) (r.elements ++ fs)
  | ⟨kind, name, attributes, children, content⟩, hs, h => by
    rw [Node.walk, List.forall_mem_cons] at hs
    cases hp : Node.isTagNamed ⟨kind, name, attributes, children, content⟩ Schema.partialTag with
    | true =>
      obtain ⟨hr, s, he⟩ := included_of_resolve hp h
      rw [hr]
      exact .included hp he hns
    | false =>
      obtain ⟨es, hes, hb⟩ := becomes_of_resolve ⟨hs.1.leaf, hs.1.level, hp⟩ h
      exact .cons hp h rfl (yields_of_resolveAll children hs.2 hes) hb hns

theorem yields_of_resolveAll {es : List Element} :
    ∀ ns : List Node, (∀ m ∈ Node.walkAll ns, IsTemplate m) →
      (resolveAll scope ns).result = .ok es → Yields scope ns es
  | [], _, h => by
    obtain rfl : [] = es := Except.ok.inj h
    exact .nil
  | n :: ns, hs, h => by
    rw [Node.walkAll, List.forall_mem_append] at hs
    obtain ⟨r, fs, hr, hfs, rfl⟩ := resolveAll_cons_ok h
    exact yields_of_resolve (yields_of_resolveAll ns hs.2 hfs) n hs.1 hr

end

theorem Yields.areWhole {ns : List Node} {es : List Element} (h : Yields scope ns es)
    (hw : ∀ s e, (scope.include_ s).result = .ok e → e.isWhole = true) :
    Element.areWhole es = true := by
  induction h with
  | nil => rfl
  | cons _ _ _ _ hb _ ih ihs => rw [areWhole_append, hb.areWhole ih, ihs, Bool.and_true]
  | included _ he _ ihs => rw [Element.areWhole, hw _ _ he, ihs, Bool.and_true]

theorem Resolved.isWhole_document (h : areWhole r.elements = true) :
    r.document.isWhole = true := by
  have harticle : isWhole (.named "article" [] r.elements) = true := by
    rw [isWhole_of_plain (by decide)]
    exact h
  unfold Resolved.document
  split
  · rw [Resolved.elements, Element.areWhole, Bool.and_eq_true] at h
    exact h.1
  · exact harticle

end Resolution

namespace Compilation

open Resolution

variable {files : FileTree}

theorem exists_of_documentOf {p : Path} {n : Node} (h : (documentOf files p).result = .ok n) :
    ∃ ts, n = (Document.ofTokens p.toString ts).1 := by
  cases hl : files.load p with
  | ok source =>
    rw [documentOf_of_load hl] at h
    exact Document.exists_of_read h
  | error f =>
    rw [documentOf, hl, Reporting.ofExcept_error_bind] at h
    cases h

theorem isTemplate_of_documentOf {p : Path} {n : Node}
    (h : (documentOf files p).result = .ok n) : ∀ m ∈ n.walk, IsTemplate m := by
  have hread := isRead_of_documentOf h
  obtain ⟨ts, rfl⟩ := exists_of_documentOf h
  exact fun m hm => ⟨(hread m hm).leaf, Document.hasLevel_ofTokens _ ts m hm⟩

theorem includePartial_zero (files : FileTree) (place : Place) (index : Reference.Index)
    (file : String) :
    includePartial files 0 place index file =
      (let written := place.directory ++ Path.ofString file
      let path := written.real
      if written.hasNul then .fail .nulInPath
      else if !files.isFile path then do
        .note (.partialNotFound path)
        pure (.value .null)
      else if place.chain.contains path then .fail (.cyclicInclusion (place.chain ++ [path]))
      else pure (.value .null)) := rfl

theorem includePartial_ok {depth : Nat} {place : Place} {index : Reference.Index} {file : String}
    {e : Element} (h : (includePartial files depth place index file).result = .ok e) :
    e = .value .null ∨ ∃ k p n inner index r, depth = k + 1 ∧ (documentOf files p).result = .ok n ∧
      (resolve (scope inner index (includePartial files k inner index)) n).result = .ok r ∧
      e = r.document := by
  cases depth with
  | zero =>
    rw [includePartial_zero] at h
    dsimp only at h
    split at h
    · cases h
    split at h
    · exact .inl (Except.ok.inj h).symm
    split at h
    · cases h
    · exact .inl (Except.ok.inj h).symm
  | succ depth =>
    rw [includePartial_succ] at h
    dsimp only at h
    split at h
    · cases h
    split at h
    · exact .inl (Except.ok.inj h).symm
    split at h
    · cases h
    cases hn : (documentOf files (place.directory ++ Path.ofString file).real).result with
    | error f =>
      rw [Reporting.bind_of_error _ hn] at h
      cases h
    | ok n =>
      rw [Reporting.bind_of_ok _ hn] at h
      obtain ⟨r, hr, rfl⟩ := Reporting.ok_of_map h
      exact .inr ⟨depth, _, n, _, _, r, rfl, hn, hr, rfl⟩

theorem isWhole_includePartial (depth : Nat) (place : Place) (index : Reference.Index)
    (file : String) (e : Element)
    (h : (includePartial files depth place index file).result = .ok e) : e.isWhole = true := by
  induction depth using Nat.strongRecOn generalizing place index file e with
  | ind depth ih =>
    obtain rfl | ⟨k, p, n, inner, index, r, rfl, hn, hr, rfl⟩ := includePartial_ok h
    · rfl
    · have hyields := yields_of_resolve .nil n (isTemplate_of_documentOf hn) hr
      rw [List.append_nil] at hyields
      exact Resolved.isWhole_document
        (hyields.areWhole fun s e he => ih k (Nat.lt_succ_self k) _ _ s e he)

end Compilation

end DocPress
