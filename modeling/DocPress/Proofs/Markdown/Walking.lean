import DocPress.Markdown.Inline
import DocPress.Proofs.Markdown.Retelling

/-!
# Retelling what is noted along a text

The inline reader keeps what is noted beside what it remembers of a text, and no
decision of it looks at the notes. So with two recognisers of which one retells the
notes of the other it takes the same way through the text, and what it remembers
is the same with the notes retold.
-/

set_option autoImplicit false

namespace DocPress.Markdown.Inline

open Text Document
open Directive (Recogniser Retells IsDelimited)

variable {φ ψ α β : Type} {h : φ → List ψ} {r : Recogniser φ} {r' : Recogniser ψ}

def Memo.retell (h : φ → List ψ) (m : Memo φ) : Memo ψ :=
  { m with notes := m.notes.flatMap fun n => (h n).reverse }

theorem Memo.retell_note (h : φ → List ψ) (notes : List φ) (m : Memo φ) :
    (m.note notes).retell h = (m.retell h).note (notes.flatMap h) := by
  simp only [Memo.note, Memo.retell, List.flatMap_append, List.reverse_flatMap]
  rfl

/-- Two walks that take the same way, with the notes of one retold by the other. -/
def WalkRetells (h : φ → List ψ) (w : Walk φ α) (w' : Walk ψ α) : Prop :=
  ∀ m, w'.run (m.retell h) = ((w.run m).1, (w.run m).2.retell h)

/-! ## Steps of a walk -/

namespace WalkRetells

theorem pure (a : α) : WalkRetells h (Pure.pure a) (Pure.pure a) := fun _ => rfl

theorem bind {w : Walk φ α} {w' : Walk ψ α} {f : α → Walk φ β} {f' : α → Walk ψ β}
    (hw : WalkRetells h w w') (hf : ∀ a, WalkRetells h (f a) (f' a)) :
    WalkRetells h (w >>= f) (w' >>= f') := by
  intro m
  show ((f' (w'.run (m.retell h)).1).run (w'.run (m.retell h)).2) = _
  rw [hw m]
  exact hf _ _

theorem map {w : Walk φ α} {w' : Walk ψ α} (f : α → β) (hw : WalkRetells h w w') :
    WalkRetells h (f <$> w) (f <$> w') := by
  intro m
  show (f (w'.run (m.retell h)).1, (w'.run (m.retell h)).2) = _
  rw [hw m]
  rfl

theorem ite {p : Prop} [Decidable p] {v w : Walk φ α} {v' w' : Walk ψ α}
    (hv : WalkRetells h v v') (hw : WalkRetells h w w') :
    WalkRetells h (if p then v else w) (if p then v' else w') := by
  split
  · exact hv
  · exact hw

theorem get_bind {f : Memo φ → Walk φ β} {f' : Memo ψ → Walk ψ β}
    (hf : ∀ m, WalkRetells h (f m) (f' (m.retell h))) :
    WalkRetells h (get >>= f) (get >>= f') := fun m => hf m m

theorem set (m : Memo φ) : WalkRetells h (set m) (set (m.retell h)) := fun _ => rfl

theorem modify {f : Memo φ → Memo φ} {f' : Memo ψ → Memo ψ}
    (hf : ∀ m, (f m).retell h = f' (m.retell h)) : WalkRetells h (modify f) (modify f') :=
  fun m => congrArg (Prod.mk PUnit.unit) (hf m).symm

end WalkRetells

/-! ## Spans -/

theorem slice_eq (s : Source) (i j : Nat) : s.slice i j = (s.chars.toList.drop i).take (j - i) := by
  rw [Source.slice, Array.toList_extract, List.extract_eq_take_drop]

theorem tail_eq (s : Source) (i : Nat) : s.tail i = s.chars.toList.drop i := by
  rw [Source.tail, slice_eq, List.take_of_length_le]
  rw [List.length_drop, Array.length_toList]
  exact Nat.le_refl _

/-- What is looked at for a directive reaches from an opening delimiter to the next closing one. -/
theorem isDelimited_slice {s : Source} {pos : Nat} {after : List Char}
    (hstart : s.slice pos (pos + 2) = ['{', '%'])
    (hstop : Html.afterFirst? ['%', '}'] (s.tail (pos + 2)) = some after) :
    IsDelimited (s.slice pos (s.size - after.length)) := by
  obtain ⟨a, ha⟩ := Html.eq_append_of_afterFirst? hstop
  have hdrop : s.chars.toList.drop pos = '{' :: '%' :: (a ++ ['%', '}']) ++ after := by
    have htwo : (s.chars.toList.drop pos).drop 2 = a ++ (['%', '}'] ++ after) := by
      rw [List.drop_drop, ← tail_eq, ha]
    rw [slice_eq, Nat.add_sub_cancel_left] at hstart
    rw [← List.take_append_drop 2 (s.chars.toList.drop pos), hstart, htwo]
    simp
  have hlength : s.size - after.length - pos = ('{' :: '%' :: (a ++ ['%', '}'])).length := by
    have h := congrArg List.length hdrop
    rw [List.length_drop, Array.length_toList, List.length_append] at h
    have hsize : s.size = s.chars.size := rfl
    omega
  rw [slice_eq, hdrop, hlength, List.take_left]
  exact ⟨⟨_, rfl⟩, ⟨'{' :: '%' :: a, by simp⟩⟩

theorem directive?_retells (hr : Retells h r r') (s : Source) (pos : Nat) :
    WalkRetells h (directive? r s pos) (directive? r' s pos) := by
  unfold directive?
  split
  · rename_i hstart
    dsimp only
    split
    · exact .pure _
    · rename_i after hstop
      rw [hr _ (isDelimited_slice hstart hstop)]
      exact .bind (.modify fun m => Memo.retell_note h _ m) fun _ => .pure _
  · exact .pure _

theorem code_retells (s : Source) (limit pos : Nat) :
    WalkRetells h (code s limit pos) (code s limit pos) := by
  apply WalkRetells.get_bind
  intro m
  have hticks : (m.retell h).ticks = m.ticks := rfl
  rw [hticks]
  refine .ite (.pure _) ?_
  generalize closingTicks s limit _ _ _ m.ticks = sought
  obtain ⟨_ | ⟨start, stop⟩, ticks⟩ := sought
  · exact .bind (.set { m with ticks := ticks, ticksKnown := true }) fun _ => .pure _
  · exact .bind (.set { m with ticks := ticks }) fun _ => .pure _

section

variable {skip : Nat → Walk φ Nat} {skip' : Nat → Walk ψ Nat}
  (hskip : ∀ pos, WalkRetells h (skip pos) (skip' pos))

include hskip

theorem labelEnd?_retells (s : Source) (limit : Nat) (nestable : Bool) (fuel depth pos : Nat) :
    WalkRetells h (labelEnd? s skip limit nestable fuel depth pos)
      (labelEnd? s skip' limit nestable fuel depth pos) := by
  induction fuel generalizing depth pos with
  | zero => exact .pure _
  | succ fuel ih =>
    unfold labelEnd?
    refine .ite (.pure _) (.ite (.pure _) (.bind (hskip pos) fun next => ?_))
    exact .ite (.ite (ih _ _) (.ite (ih _ _) (.pure _))) (ih _ _)

theorem reference?_retells (s : Source) (limit start stop pos : Nat) :
    WalkRetells h (reference? s skip limit start stop pos)
      (reference? s skip' limit start stop pos) := by
  unfold reference?
  refine .ite (.pure _) ?_
  dsimp only
  refine .ite (.bind ?_ fun _ => .pure _) (.bind (.pure _) fun _ => .pure _)
  exact labelEnd?_retells hskip s limit true _ _ _

theorem link?_retells (s : Source) (limit pos : Nat) :
    WalkRetells h (link? s skip limit pos) (link? s skip' limit pos) := by
  refine .bind (labelEnd?_retells hskip s limit false _ _ _) fun found => ?_
  cases found with
  | none => exact .pure _
  | some stop =>
    refine .ite ?_ (.bind (reference?_retells hskip s limit _ _ _) fun _ => .pure _)
    cases readDestination (s.slice (stop + 2) limit) with
    | cut => exact .pure _
    | taken => exact .pure _
    | refused => exact .bind (reference?_retells hskip s limit _ _ _) fun _ => .pure _

theorem image?_retells (s : Source) (limit pos : Nat) :
    WalkRetells h (image? s skip limit pos) (image? s skip' limit pos) := by
  refine .ite (.pure _) (.bind (labelEnd?_retells hskip s limit true _ _ _) fun found => ?_)
  cases found with
  | none => exact .pure _
  | some stop =>
    refine .ite ?_ (.bind (reference?_retells hskip s limit _ _ _) fun _ => .pure _)
    cases readDestination (s.slice (stop + 2) limit) <;> exact .pure _

theorem span?_retells (hr : Retells h r r') (s : Source) (limit pos : Nat) :
    WalkRetells h (span? r s skip limit pos) (span? r' s skip' limit pos) := by
  unfold span?
  cases s.char? pos with
  | none => exact .pure _
  | some c =>
    dsimp only
    split
    · exact directive?_retells hr s pos
    · exact .pure _
    · exact .pure _
    · exact .map _ (code_retells s limit pos)
    · exact link?_retells hskip s limit pos
    · exact image?_retells hskip s limit pos
    · exact .pure _
    · exact .pure _
    · exact .pure _

end

theorem skipAt_retells (hr : Retells h r r') (s : Source) (limit levels pos : Nat) :
    WalkRetells h (skipAt r s limit levels pos) (skipAt r' s limit levels pos) := by
  have hremember : ∀ pos stop, WalkRetells h
      (do modify fun m => { m with ends := m.ends.setIfInBounds pos (some stop) }; pure stop)
      (do modify fun m => { m with ends := m.ends.setIfInBounds pos (some stop) }; pure stop) :=
    fun _ _ => .bind (.modify fun _ => rfl) fun _ => .pure _
  induction levels generalizing pos with
  | zero =>
    unfold skipAt
    refine .get_bind fun m => ?_
    have hends : (m.retell h).ends = m.ends := rfl
    rw [hends]
    cases m.ends.getD pos none with
    | some stop => exact .pure _
    | none => exact .bind (.pure _) fun _ => hremember _ _
  | succ n ih =>
    unfold skipAt
    refine .get_bind fun m => ?_
    have hends : (m.retell h).ends = m.ends := rfl
    rw [hends]
    cases m.ends.getD pos none with
    | some stop => exact .pure _
    | none =>
      have hspan := span?_retells ih hr s limit pos
      exact .bind hspan fun _ => .bind (.pure _) fun _ => hremember _ _

/-! ## Texts -/

theorem readFrom_retells (hr : Retells h r r') (s : Source) {skip : Nat → Walk φ Nat}
    {skip' : Nat → Walk ψ Nat} (hskip : ∀ pos, WalkRetells h (skip pos) (skip' pos))
    {inner : Nat → Nat → Walk φ (List Piece)} {inner' : Nat → Nat → Walk ψ (List Piece)}
    (hinner : ∀ start stop, WalkRetells h (inner start stop) (inner' start stop))
    {alternative : List Char → List φ} {alternative' : List Char → List ψ}
    (halternative : ∀ t, alternative' t = (alternative t).flatMap h)
    (limit fuel pos : Nat) (d : Draft) :
    WalkRetells h (readFrom r s skip inner alternative limit fuel pos d)
      (readFrom r' s skip' inner' alternative' limit fuel pos d) := by
  induction fuel generalizing pos d with
  | zero => exact .pure _
  | succ fuel ih =>
    unfold readFrom
    refine .ite (.pure _) ?_
    cases marks? s limit pos d with
    | some p => exact ih _ _
    | none =>
      refine .bind (span?_retells hskip hr s limit pos) fun found => ?_
      cases found with
      | none => exact ih _ _
      | some e =>
        obtain ⟨e, next⟩ := e
        cases e with
        | text t => exact ih _ _
        | piece p => exact ih _ _
        | lineEnd => exact ih _ _
        | link target title start stop => exact .bind (hinner _ _) fun _ => ih _ _
        | image target title start stop =>
          refine .bind (.modify fun m => ?_) fun _ => ih _ _
          rw [Memo.retell_note, halternative]

theorem readPart_retells (hr : Retells h r r') (s : Source)
    {alternative : List Char → List φ} {alternative' : List Char → List ψ}
    (halternative : ∀ t, alternative' t = (alternative t).flatMap h) (levels start stop : Nat) :
    WalkRetells h (readPart r s alternative levels start stop)
      (readPart r' s alternative' levels start stop) := by
  induction levels generalizing start stop with
  | zero => exact .pure _
  | succ n ih =>
    exact readFrom_retells hr s (skipAt_retells hr s stop (n + 1)) ih halternative _ _ _ _

theorem readAll_retell (hr : Retells h r r') (definitions : List Definition)
    {alternative : List Char → List φ} {alternative' : List Char → List ψ}
    (halternative : ∀ t, alternative' t = (alternative t).flatMap h) (t : List Char) :
    readAll r' definitions alternative' t = (readAll r definitions alternative t).retell h := by
  have hwalk := readPart_retells hr (Source.ofList definitions t) halternative maxLevel 0
    (Source.ofList definitions t).size (Memo.start (Source.ofList definitions t))
  cases hbefore : (readPart r (Source.ofList definitions t) alternative maxLevel 0
      (Source.ofList definitions t).size).run (Memo.start (Source.ofList definitions t)) with
  | mk pieces m =>
    have hafter : (readPart r' (Source.ofList definitions t) alternative' maxLevel 0
        (Source.ofList definitions t).size).run (Memo.start (Source.ofList definitions t)) =
          (pieces, m.retell h) := by
      rw [hbefore] at hwalk
      exact hwalk
    simp only [readAll, hbefore, hafter, Probed.retell, Memo.retell, List.reverse_flatMap,
      Function.comp_def, List.reverse_reverse]

theorem notesWithin_retell (hr : Retells h r r') (definitions : List Definition) (n : Nat)
    (t : List Char) :
    notesWithin r' definitions n t = (notesWithin r definitions n t).flatMap h := by
  induction n generalizing t with
  | zero => rfl
  | succ n ih =>
    rw [notesWithin, readAll_retell hr definitions ih, notesWithin, Probed.retell_notes]

theorem read_retell (hr : Retells h r r') (definitions : List Definition) (t : List Char) :
    read r' definitions t = (read r definitions t).retell h := by
  rw [read, readAll_retell hr definitions (notesWithin_retell hr definitions t.length), read,
    Probed.retell_map]

end DocPress.Markdown.Inline
