import DocPress.Markdown.Block

/-!
# Retelling what a reader notes

A reader of Markdown knows directives from what its recogniser says only, and what
is noted goes past it. So if each note of one recogniser is retold by some notes of
another one, and both say the same, then reading with either gives the same, and the
notes are retold one by one. Only texts between the delimiters of directives are ever
given to the recogniser. This module tells it for blocks.
-/

set_option autoImplicit false

namespace DocPress

namespace Probed

variable {φ ψ α β : Type} (h : φ → List ψ)

def retell (x : Probed φ α) : Probed ψ α := ⟨x.notes.flatMap h, x.value⟩

@[simp] theorem retell_notes (x : Probed φ α) : (x.retell h).notes = x.notes.flatMap h := rfl

@[simp] theorem retell_value (x : Probed φ α) : (x.retell h).value = x.value := rfl

@[simp] theorem retell_pure (a : α) : (pure a : Probed φ α).retell h = pure a := rfl

@[simp] theorem retell_bind (x : Probed φ α) (f : α → Probed φ β) :
    (x >>= f).retell h = x.retell h >>= fun a => (f a).retell h := by
  show (⟨_, _⟩ : Probed ψ β) = ⟨_, _⟩
  simp

@[simp] theorem retell_map (f : α → β) (x : Probed φ α) :
    (f <$> x).retell h = f <$> x.retell h :=
  retell_bind h x (pure ∘ f)

@[simp] theorem retell_ite (p : Prop) [Decidable p] (x y : Probed φ α) :
    (if p then x else y).retell h = if p then x.retell h else y.retell h :=
  apply_ite (retell h) p x y

end Probed

namespace Directive

def IsDelimited (t : List Char) : Prop := ['{', '%'] <+: t ∧ ['%', '}'] <:+ t

/-- Two recognisers say the same of such texts, and what one notes is what retells the notes of
the other. -/
def Retells {φ ψ : Type} (h : φ → List ψ) (r : Recogniser φ) (r' : Recogniser ψ) : Prop :=
  ∀ t, IsDelimited t → r' t = (r t).retell h

end Directive

namespace Markdown

open Text

theorem Html.eq_append_of_afterFirst? {p s rest : List Char}
    (h : Html.afterFirst? p s = some rest) : ∃ a, s = a ++ (p ++ rest) := by
  induction s with
  | nil =>
    rw [Html.afterFirst?] at h
    split at h
    · rename_i hp
      cases h
      exact ⟨[], by simpa using hp⟩
    · cases h
  | cons c r ih =>
    rw [Html.afterFirst?] at h
    split at h
    · rename_i hp
      cases h
      obtain ⟨t, ht⟩ := List.isPrefixOf_iff_prefix.1 hp
      refine ⟨[], ?_⟩
      rw [← ht, List.drop_left, List.nil_append]
    · obtain ⟨a, rfl⟩ := ih h
      exact ⟨c :: a, rfl⟩

namespace Block

open Directive (Recogniser Retells IsDelimited)

variable {φ ψ : Type} {h : φ → List ψ} {r : Recogniser φ} {r' : Recogniser ψ}

theorem directive?_retell (hr : Retells h r r') (p : Place) (l : Line) :
    directive? r' p l = (directive? r p l).retell h := by
  unfold directive?
  dsimp only
  split
  · rfl
  · rename_i hguard
    simp only [Bool.or_eq_true, Bool.not_eq_true', bne_iff_ne, ne_eq, not_or,
      Bool.not_eq_false, Decidable.not_not] at hguard
    obtain ⟨⟨-, hstart⟩, hstop⟩ := hguard
    obtain ⟨a, ha⟩ := Html.eq_append_of_afterFirst? hstop
    have hdelimited : IsDelimited (stripRight l.body) :=
      ⟨List.isPrefixOf_iff_prefix.1 hstart, ⟨a, by simpa using ha.symm⟩⟩
    rw [hr _ hdelimited, Probed.retell_map]

theorem interrupts_retell (hr : Retells h r r') (k : Host) (p : Place) (l : Line)
    (rest : List Line) : interrupts r' k p l rest = (interrupts r k p l rest).retell h := by
  simp only [interrupts, directive?_retell hr, Probed.retell_ite, Probed.retell_pure,
    Probed.retell_map]

theorem paragraphLines_retell (hr : Retells h r r') (k : Host) (p : Place) (lines : List Line) :
    paragraphLines r' k p lines = (paragraphLines r k p lines).retell h := by
  induction lines with
  | nil => rfl
  | cons l rest ih =>
    simp only [paragraphLines, interrupts_retell hr, ih, Probed.retell_ite, Probed.retell_pure,
      Probed.retell_map, Probed.retell_bind]

theorem underlined?_retell (hr : Retells h r r') (p : Place) (lines : List Line) :
    underlined? r' p lines = (underlined? r p lines).retell h := by
  induction lines with
  | nil => rfl
  | cons l rest ih =>
    simp only [underlined?, interrupts_retell hr, ih, Probed.retell_ite, Probed.retell_pure,
      Probed.retell_map]
    cases (if l.isOutside p = true then none else underline? l.body) with
    | some level => rfl
    | none =>
      simp only [Probed.retell_ite, Probed.retell_pure, Probed.retell_map, Probed.retell_bind]

theorem definitionLines_retell (hr : Retells h r r') (p : Place) (lines : List Line) :
    definitionLines r' p lines =
      (definitionLines r p lines).map fun f => (f.1.flatMap h, f.2) := by
  induction lines with
  | nil => rfl
  | cons l rest ih =>
    simp only [definitionLines, interrupts_retell hr, ih, Probed.retell_notes, Probed.retell_value,
      apply_ite (List.map _), List.map_nil, List.map_cons, List.flatMap_nil]

theorem definition?_retell (hr : Retells h r r') (p : Place) (l : Line) (rest : List Line) :
    definition? r' p l rest = (definition? r p l rest).retell h := by
  unfold definition?
  split
  · rfl
  · simp only [definitionLines_retell hr, List.flatMap_map, List.length_map, Probed.retell,
      ← List.map_take, List.flatMap_assoc]

theorem tableRows_retell (hr : Retells h r r') (p : Place) (columns : Nat) (missing : Int)
    (lines : List Line) :
    tableRows r' p columns missing lines = (tableRows r p columns missing lines).retell h := by
  induction lines generalizing missing with
  | nil => rfl
  | cons l rest ih =>
    simp only [tableRows, interrupts_retell hr, ih, Probed.retell_ite, Probed.retell_pure,
      Probed.retell_map, Probed.retell_bind]

theorem quotedLines_retell (hr : Retells h r r') (p : Place) (afterEmpty : Bool)
    (lines : List Line) :
    quotedLines r' p afterEmpty lines = (quotedLines r p afterEmpty lines).retell h := by
  induction lines generalizing afterEmpty with
  | nil => rfl
  | cons l rest ih =>
    simp only [quotedLines, interrupts_retell hr, ih, Probed.retell_ite, Probed.retell_pure,
      Probed.retell_map, Probed.retell_bind]

def ReaderRetells (h : φ → List ψ) (q : Reader φ) (q' : Reader ψ) : Prop :=
  ∀ p lines, q' p lines = (q p lines).retell h

section

variable {quoted nested : Reader φ} {quoted' nested' : Reader ψ}

theorem readItem_retell (hn : ReaderRetells h nested nested') (p : Place) (m : ListMark) (l : Line)
    (rest : List Line) : readItem nested' p m l rest = (readItem nested p m l rest).retell h := by
  simp only [readItem, hn _ _, Probed.retell_ite, Probed.retell_pure]

theorem nextMark?_retell (hr : Retells h r r') (p : Place) (m : ListMark) (l : Line)
    (rest : List Line) : nextMark? r' p m l rest = (nextMark? r p m l rest).retell h := by
  simp only [nextMark?, interrupts_retell hr, Probed.retell_ite, Probed.retell_pure,
    Probed.retell_bind]

theorem readItems_retell (hr : Retells h r r') (hn : ReaderRetells h nested nested') (p : Place)
    (m : ListMark) (l : Line) (rest : List Line) :
    readItems r' nested' p m l rest = (readItems r nested p m l rest).retell h := by
  rw [readItems, readItems, readItem_retell hn, Probed.retell_bind]
  congr 1
  funext item
  dsimp only
  split
  · rfl
  · rename_i l' rest' hrest
    have hshorter : rest'.length < rest.length := by
      have := congrArg List.length hrest
      simp only [List.length_drop, List.length_cons] at this
      omega
    rw [nextMark?_retell hr, Probed.retell_bind]
    congr 1
    funext mark
    cases mark with
    | none => rfl
    | some m' =>
      simp only [readItems_retell hr hn p m' l' rest', Probed.retell_bind, Probed.retell_pure]
termination_by rest.length

theorem readText_retell (hr : Retells h r r') (p : Place) (l : Line) (rest : List Line) :
    readText r' p l rest = (readText r p l rest).retell h := by
  unfold readText
  cases Html.blockKind? l.body with
  | some k => rfl
  | none =>
    cases heading? l.body with
    | some e => rfl
    | none =>
      dsimp only
      rw [underlined?_retell hr, Probed.retell_bind]
      congr 1
      funext level
      cases level with
      | some e => rfl
      | none =>
        dsimp only
        rw [directive?_retell hr, Probed.retell_bind]
        congr 1
        funext d
        cases d with
        | some d => rfl
        | none => simp only [paragraphLines_retell hr, Probed.retell_bind, Probed.retell_pure]

theorem readBlock_retell (hr : Retells h r r') (hq : ReaderRetells h quoted quoted')
    (hn : ReaderRetells h nested nested') (p : Place) (l : Line) (rest : List Line) :
    readBlock r' quoted' nested' p l rest = (readBlock r quoted nested p l rest).retell h := by
  unfold readBlock
  cases tableAt? p l rest with
  | some header => simp only [tableRows_retell hr, Probed.retell_bind, Probed.retell_pure]
  | none =>
    simp only [Probed.retell_ite, Probed.retell_pure]
    congr 1
    cases fence? l.body with
    | some f => rfl
    | none =>
      simp only [Probed.retell_ite, Probed.retell_pure, quotedLines_retell hr, hq _ _,
        Probed.retell_bind]
      congr 2
      cases listMarkAt? p l with
      | some m => simp only [readItems_retell hr hn, Probed.retell_bind, Probed.retell_pure]
      | none =>
        dsimp only
        rw [definition?_retell hr, Probed.retell_bind]
        congr 1
        funext d
        cases d with
        | some d => rfl
        | none => exact readText_retell hr p l rest

theorem readBlocks_retell (hr : Retells h r r') (hq : ReaderRetells h quoted quoted')
    (hn : ReaderRetells h nested nested') (p : Place) (loose tight : Bool) (lines : List Line) :
    readBlocks r' quoted' nested' p loose tight lines =
      (readBlocks r quoted nested p loose tight lines).retell h := by
  rw [readBlocks.eq_def, readBlocks.eq_def]
  cases lines with
  | nil => rfl
  | cons l rest =>
    have hshorter : ∀ n, (rest.drop n).length < (l :: rest).length := fun n => by
      simp only [List.length_drop, List.length_cons]
      omega
    simp only [Probed.retell_ite, Probed.retell_pure, Probed.retell_bind, readBlock_retell hr hq hn,
      readBlocks_retell hr hq hn p _ _ rest, readBlocks_retell hr hq hn p _ _ (rest.drop _)]
termination_by lines.length

end

theorem reader_retell (hr : Retells h r r') : ∀ n, ReaderRetells h (reader r n) (reader r' n)
  | 0 => fun _ _ => rfl
  | 1 => fun p lines =>
    readBlocks_retell hr (reader_retell hr 0) (reader_retell hr 0) p false true lines
  | n + 2 => fun p lines =>
    readBlocks_retell hr (reader_retell hr (n + 1)) (reader_retell hr n) p false true lines

theorem ofLines_retell (hr : Retells h r r') (lines : List Line) :
    ofLines r' lines = (ofLines r lines).retell h := by
  rw [ofLines, ofLines, reader_retell hr maxLevel Place.top lines, Probed.retell_map]

end Block

end Markdown

end DocPress
