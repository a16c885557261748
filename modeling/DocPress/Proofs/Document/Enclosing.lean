import DocPress.Proofs.Document.Flattening
import DocPress.Proofs.Document.Order

/-!
# A tag around a document

A tag that is opened before anything else and is never closed lies below all that is opened after
it. Whatever is fed works on what is above as if the tag were not there: a container is closed by
its own kind only, and a tag by its own name. What is finished at the top level becomes a child of
the tag. So the document of the stream is that of its remainder, put into the tag.
-/

set_option autoImplicit false

namespace DocPress.Document

def Token.closesTag (name : String) : Token → Bool
  | .directive (.closing s) => s == name
  | _ => false

namespace Builder

def under (name : String) (attributes : Attributes) (b : Builder) : Builder :=
  ⟨b.frames ++ [⟨.tag, some name, attributes, b.roots⟩], []⟩

variable {name : String} {attributes : Attributes} {source : String}

theorem under_append (b : Builder) (n : Node) :
    (b.append n).under name attributes = (b.under name attributes).append n := by
  obtain ⟨frames, roots⟩ := b
  cases frames <;> rfl

theorem under_pop {b : Builder} (h : b.frames ≠ []) :
    b.pop.under name attributes = (b.under name attributes).pop := by
  obtain ⟨frames, roots⟩ := b
  cases frames with
  | nil => exact absurd rfl h
  | cons f fs => exact under_append ⟨fs, roots⟩ f.node

theorem length_frames_pop (b : Builder) : b.pop.frames.length = b.frames.length - 1 := by
  obtain ⟨frames, roots⟩ := b
  cases frames with
  | nil => rfl
  | cons f fs => exact length_frames_append ⟨fs, roots⟩ f.node

theorem under_popMany {k : Nat} {b : Builder} (h : k ≤ b.frames.length) :
    (popMany k b).under name attributes = popMany k (b.under name attributes) := by
  induction k generalizing b with
  | zero => rfl
  | succ k ih =>
    have hne : b.frames ≠ [] := List.ne_nil_of_length_pos (by omega)
    have hlength := length_frames_pop b
    rw [popMany, popMany, ih (by omega), under_pop hne]

/-- What is found above the tag is found at the same place, and the tag is not found. -/
theorem findIdx?_under {b : Builder} {p : Frame → Bool}
    (h : p ⟨.tag, some name, attributes, b.roots⟩ = false) :
    (b.under name attributes).frames.findIdx? p = b.frames.findIdx? p := by
  rw [under, List.findIdx?_append, List.findIdx?_singleton, h]
  cases b.frames.findIdx? p <;> rfl

theorem lt_of_findIdx? {frames : List Frame} {p : Frame → Bool} {i : Nat}
    (h : frames.findIdx? p = some i) : i < frames.length :=
  (List.findIdx?_eq_some_iff_getElem.1 h).1

theorem closeContainer_under (kind : NodeKind) (b : Builder) :
    closeContainer source kind (b.under name attributes) =
      ((closeContainer source kind b).1.under name attributes,
        (closeContainer source kind b).2) := by
  have hfound : (b.under name attributes).frames.findIdx? (·.isContainer kind) =
      b.frames.findIdx? (·.isContainer kind) := findIdx?_under (by simp [Frame.isContainer])
  rw [closeContainer, closeContainer, hfound]
  cases hi : b.frames.findIdx? (·.isContainer kind) with
  | none => rfl
  | some i =>
    have hlt := lt_of_findIdx? hi
    have htake : (b.under name attributes).frames.take i = b.frames.take i :=
      List.take_append_of_le_length (by omega)
    dsimp only
    rw [under_popMany hlt, htake]

theorem closeTag_under {closed : String} (h : closed ≠ name) (b : Builder) :
    closeTag source closed (b.under name attributes) =
      ((closeTag source closed b).1.under name attributes, (closeTag source closed b).2) := by
  have hfound : (b.under name attributes).frames.findIdx? (·.isTagNamed closed) =
      b.frames.findIdx? (·.isTagNamed closed) :=
    findIdx?_under (by simpa [Frame.isTagNamed] using Ne.symm h)
  rw [closeTag, closeTag, hfound]
  cases hi : b.frames.findIdx? (·.isTagNamed closed) with
  | none => rfl
  | some i =>
    dsimp only
    rw [under_popMany (lt_of_findIdx? hi)]

theorem feedDirective_under {d : Directive} (h : (Token.directive d).closesTag name = false)
    (b : Builder) :
    feedDirective source (b.under name attributes) d =
      ((feedDirective source b d).1.under name attributes, (feedDirective source b d).2) := by
  cases d with
  | opening => rfl
  | closing closed => exact closeTag_under (by simpa [Token.closesTag] using h) b
  | selfClosing | call => simp only [feedDirective, under_append]

mutual

/-- A token that does not close the tag is fed inside the tag as outside of it. -/
theorem feed_under (b : Builder) : ∀ t : Token, (∀ u ∈ t.spliced, u.closesTag name = false) →
    feed source (b.under name attributes) t =
      ((feed source b t).1.under name attributes, (feed source b t).2)
  | .opening _, _ | .hidden, _ | .unsupported _, _ => rfl
  | .closing kind, _ => closeContainer_under kind b
  | .leaf l, _ => by rw [feed, feed, under_append]
  | .directive d, h => feedDirective_under (h _ (List.mem_singleton_self _)) b
  | .inline ts, h => feedAll_under b ts h

theorem feedAll_under (b : Builder) :
    ∀ ts : List Token, (∀ u ∈ Token.splicedAll ts, u.closesTag name = false) →
      feedAll source (b.under name attributes) ts =
        ((feedAll source b ts).1.under name attributes, (feedAll source b ts).2)
  | [], _ => rfl
  | t :: ts, h => by
    rw [Token.splicedAll, List.forall_mem_append] at h
    simp only [feedAll, feed_under b t h.1, feedAll_under _ ts h.2]

end

theorem popMany_succ (k : Nat) (b : Builder) : popMany (k + 1) b = (popMany k b).pop := by
  induction k generalizing b with
  | zero => rfl
  | succ k ih => rw [popMany, ih, popMany]

/-- At the end the tag is closed last. -/
theorem finish_under (b : Builder) :
    (b.under name attributes).finish source =
      ({ kind := .document, children := [tagNode name attributes (b.finish source).1.children] },
        (b.finish source).2 ++ [.unclosedTag source name]) := by
  have hlast : popMany (b.under name attributes).frames.length (b.under name attributes) =
      ⟨[], [tagNode name attributes (popMany b.frames.length b).roots.reverse]⟩ := by
    have hframes := frames_popMany b
    rw [under, List.length_append, List.length_singleton, popMany_succ, ← under,
      ← under_popMany (Nat.le_refl _)]
    generalize popMany b.frames.length b = closed at hframes ⊢
    obtain ⟨frames, roots⟩ := closed
    obtain rfl : frames = [] := hframes
    rfl
  rw [finish, hlast, finish]
  simp [under, Frame.isTag, tagName]

end Builder

/-- A tag that is opened first and never closed holds the document of what follows. -/
theorem ofTokens_opening (source : String) {name : String} (attributes : Attributes)
    {ts : List Token} (h : ∀ u ∈ Token.splicedAll ts, u.closesTag name = false) :
    ofTokens source (.directive (.opening name attributes) :: ts) =
      ({ kind := .document,
         children := [tagNode name attributes (ofTokens source ts).1.children] },
        (ofTokens source ts).2 ++ [.unclosedTag source name]) := by
  have hstart : Builder.feed source .start (.directive (.opening name attributes)) =
      (Builder.start.under name attributes, []) := rfl
  simp only [ofTokens, Builder.feedAll, hstart, Builder.feedAll_under _ ts h, Builder.finish_under,
    List.nil_append, List.append_assoc]

end DocPress.Document
