import DocPress.Markdown.Inline

/-!
# What inline content consists of

The text of a paragraph, a heading or a cell is read into directives, inline containers and
inline leaves. No block comes out of it: each step of the reader adds such pieces only, and
pairing the marks of emphasis puts inline containers in their places.
-/

set_option autoImplicit false

namespace DocPress

namespace Document

def Container.isSpan : Container → Bool
  | .strong | .emphasis | .strike | .link .. => true
  | _ => false

def Leaf.isSpan : Leaf → Bool
  | .fence .. | .rule => false
  | _ => true

def spanKinds : List NodeKind := [.strong, .emphasis, .strike, .link]

def Token.isSpan : Token → Bool
  | .opening c => c.isSpan
  | .closing kind => spanKinds.contains kind
  | .directive _ => true
  | .leaf l => l.isSpan
  | .hidden | .inline _ | .unsupported _ => false

end Document

namespace Markdown

open Text Document Directive

namespace Piece

mutual

def isSpan : Piece → Bool
  | .text _ | .special _ | .markup _ | .directive _ => true
  | .leaf l => l.isSpan
  | .opening c => c.isSpan
  | .closing kind => spanKinds.contains kind
  | .link _ _ inside => areSpans inside

def areSpans : List Piece → Bool
  | [] => true
  | p :: ps => isSpan p && areSpans ps

end

theorem areSpans_iff {ps : List Piece} : areSpans ps = true ↔ ∀ p ∈ ps, p.isSpan = true := by
  induction ps with
  | nil => simp [areSpans]
  | cons p ps ih => simp [areSpans, ih]

end Piece

/-! ## Marks -/

section

variable {P : Piece → Prop} {ps : Array Piece}

theorem forall_mem_set (h : ∀ p ∈ ps, P p) (i : Nat) {q : Piece} (hq : P q) :
    ∀ p ∈ ps.setIfInBounds i q, P p := by
  intro p hp
  rcases Array.mem_or_eq_of_mem_setIfInBounds hp with hp | rfl
  · exact h p hp
  · exact hq

theorem forall_mem_swap (h : ∀ p ∈ ps, P p) (i j : Nat) : ∀ p ∈ ps.swapIfInBounds i j, P p := by
  intro p hp
  rw [Array.swapIfInBounds_def] at hp
  split at hp
  · split at hp
    · exact h p ((Array.swap_perm ..).mem_iff.1 hp)
    · exact h p hp
  · exact h p hp

theorem forall_mem_openStrikes (h : ∀ p ∈ ps, p.isSpan = true) (marks : Array Delimiter) :
    ∀ p ∈ (openStrikes marks ps).1, p.isSpan = true := by
  unfold openStrikes
  refine Array.foldl_induction
    (fun _ (r : Array Piece × List Nat) => ∀ p ∈ r.1, p.isSpan = true) h fun i r hr => ?_
  dsimp only
  split
  · exact forall_mem_set (forall_mem_set hr _ rfl) _ rfl
  · exact hr

theorem forall_mem_moveLoneTildes (h : ∀ p ∈ ps, P p) (lone : List Nat) :
    ∀ p ∈ moveLoneTildes ps lone, P p := by
  unfold moveLoneTildes
  induction lone generalizing ps with
  | nil => exact h
  | cons i lone ih => exact ih (forall_mem_swap h _ _)

theorem forall_mem_emphasis (h : ∀ p ∈ ps, p.isSpan = true) (opener closer : Nat)
    (strong : Bool) : ∀ p ∈ (ps.setIfInBounds opener
        (.opening (if strong then .strong else .emphasis))).setIfInBounds closer
        (.closing (if strong then Container.strong else .emphasis).kind), p.isSpan = true := by
  cases strong <;> exact forall_mem_set (forall_mem_set h _ rfl) _ rfl

theorem forall_mem_applyEmphasisFrom (marks : Array Delimiter) (n : Nat)
    (h : ∀ p ∈ ps, p.isSpan = true) : ∀ p ∈ applyEmphasisFrom marks n ps, p.isSpan = true := by
  fun_induction applyEmphasisFrom marks n ps with
  | case1 => exact h
  | case2 => exact forall_mem_set (forall_mem_set (forall_mem_emphasis h _ _ _) _ rfl) _ rfl
  | case3 =>
    rename_i ih
    exact ih (forall_mem_set (forall_mem_set (forall_mem_emphasis h _ _ _) _ rfl) _ rfl)
  | case4 =>
    rename_i ih
    exact ih (forall_mem_emphasis h _ _ _)
  | case5 | case6 =>
    rename_i ih
    exact ih h

theorem forall_mem_resolveMarks (h : ∀ p ∈ ps, p.isSpan = true) (marks : Array Delimiter) :
    ∀ p ∈ resolveMarks marks ps, p.isSpan = true := by
  intro p hp
  refine forall_mem_applyEmphasisFrom _ _ ?_ p (by simpa [resolveMarks] using hp)
  exact forall_mem_moveLoneTildes (forall_mem_openStrikes h _) _

end

namespace Inline

variable {φ α β : Type}

/-! ## Walks -/

/-- What a walk comes to has a property, whatever is remembered. -/
def Gives (P : α → Prop) (w : Walk φ α) : Prop := ∀ m, P (w.run m).1

namespace Gives

variable {P : α → Prop} {Q : β → Prop}

theorem pure {a : α} (h : P a) : Gives P (Pure.pure a : Walk φ α) := fun _ => h

theorem bind {w : Walk φ α} {f : α → Walk φ β} (hw : Gives P w) (hf : ∀ a, P a → Gives Q (f a)) :
    Gives Q (w >>= f) := fun m => hf _ (hw m) _

/-- What comes before does not matter. -/
theorem after {w : Walk φ α} {f : α → Walk φ β} (hf : ∀ a, Gives Q (f a)) : Gives Q (w >>= f) :=
  fun _ => hf _ _

theorem map {w : Walk φ α} {f : α → β} (hw : Gives P w) (hf : ∀ a, P a → Q (f a)) :
    Gives Q (f <$> w) := fun m => hf _ (hw m)

theorem ite {p : Prop} [Decidable p] {v w : Walk φ α} (hv : Gives P v) (hw : Gives P w) :
    Gives P (if p then v else w) := by
  split
  · exact hv
  · exact hw

end Gives

def IsInline (found : Found) : Prop := ∀ p stop, found = some (.piece p, stop) → p.isSpan = true

theorem isInline_none : IsInline none := nofun

theorem directive?_gives (recognise : Recogniser φ) (s : Source) (pos : Nat) :
    Gives IsInline (directive? recognise s pos) := by
  unfold directive?
  split
  · dsimp only
    split
    · exact .pure isInline_none
    · refine .after fun _ => .pure fun p stop h => ?_
      obtain ⟨d, -, hd⟩ := Option.map_eq_some_iff.1 h
      cases hd
      rfl
  · exact .pure isInline_none

theorem code_gives (s : Source) (limit pos : Nat) :
    Gives (fun r => IsInline (some r)) (code (φ := φ) s limit pos) := by
  unfold code
  refine .after fun m => .ite (.pure nofun) ?_
  split
  · refine .after fun _ => .pure fun p stop h => ?_
    cases h
    rfl
  · exact .after fun _ => .pure nofun

theorem isInline_escape? (s : Source) (limit pos : Nat) : IsInline (escape? s limit pos) := by
  intro p stop h
  unfold escape? at h
  split at h
  · split at h <;> cases h <;> rfl
  · cases h

theorem isInline_entity? (s : Source) (limit pos : Nat) : IsInline (entity? s limit pos) := by
  intro p stop h
  unfold entity? at h
  split at h
  · obtain ⟨t, -, ht⟩ := Option.map_eq_some_iff.1 h
    cases ht
    rfl
  · cases h

theorem isInline_text? (s : Source) (limit pos : Nat) : IsInline (text? s limit pos) := by
  intro p stop h
  unfold text? at h
  split at h <;> cases h

theorem isInline_address? (s : Source) (limit pos : Nat) : IsInline (address? s limit pos) := by
  have haddress : ∀ target shown stop, IsInline (address target shown stop) := by
    intro target shown stop p after h
    unfold address at h
    dsimp only at h
    split at h
    · cases h
      rfl
    · cases h
  unfold address?
  dsimp only
  split
  · split
    · exact haddress _ _ _
    · split
      · exact haddress _ _ _
      · exact isInline_none
  · exact isInline_none

theorem isInline_markup? (s : Source) (limit pos : Nat) : IsInline (markup? s limit pos) := by
  intro p stop h
  unfold markup? at h
  split at h
  · dsimp only at h
    split at h
    · split at h
      · obtain ⟨t, -, ht⟩ := Option.map_eq_some_iff.1 h
        cases ht
        rfl
      · cases h
    · cases h
  · cases h

theorem isInline_map {α : Type} {f : α → Span × Nat} (hf : ∀ a p, (f a).1 ≠ .piece p)
    (o : Option α) : IsInline (o.map f) := by
  intro p stop h
  obtain ⟨a, -, ha⟩ := Option.map_eq_some_iff.1 h
  exact absurd (congrArg Prod.fst ha) (hf a p)

theorem link?_gives (s : Source) (skip : Nat → Walk φ Nat) (limit pos : Nat) :
    Gives IsInline (link? s skip limit pos) := by
  unfold link?
  refine .after fun found => ?_
  cases found with
  | none => exact .pure isInline_none
  | some stop =>
    refine .ite ?_ (.after fun d => .pure (isInline_map nofun d))
    cases readDestination (s.slice (stop + 2) limit) with
    | cut => exact .pure isInline_none
    | taken => exact .pure nofun
    | refused => exact .after fun d => .pure (isInline_map nofun d)

theorem image?_gives (s : Source) (skip : Nat → Walk φ Nat) (limit pos : Nat) :
    Gives IsInline (image? s skip limit pos) := by
  unfold image?
  refine .ite (.pure isInline_none) (.after fun found => ?_)
  cases found with
  | none => exact .pure isInline_none
  | some stop =>
    refine .ite ?_ (.after fun d => .pure (isInline_map nofun d))
    cases readDestination (s.slice (stop + 2) limit) with
    | taken => exact .pure nofun
    | cut | refused => exact .pure isInline_none

theorem span?_gives (recognise : Recogniser φ) (s : Source) (skip : Nat → Walk φ Nat)
    (limit pos : Nat) : Gives IsInline (span? recognise s skip limit pos) := by
  unfold span?
  cases s.char? pos with
  | none => exact .pure isInline_none
  | some c =>
    dsimp only
    split
    · exact directive?_gives recognise s pos
    · exact .pure nofun
    · exact .pure (isInline_escape? s limit pos)
    · exact .map (code_gives s limit pos) fun _ h => h
    · exact link?_gives s skip limit pos
    · exact image?_gives s skip limit pos
    · cases haddress : address? s limit pos with
      | none => exact .pure (isInline_markup? s limit pos)
      | some found =>
        have hfound := isInline_address? s limit pos
        rw [haddress] at hfound
        exact .pure hfound
    · exact .pure (isInline_entity? s limit pos)
    · exact .pure (isInline_text? s limit pos)

/-! ## Drafts -/

def Draft.IsInline (d : Draft) : Prop := ∀ p ∈ d.pieces, p.isSpan = true

namespace Draft.IsInline

variable {d : Draft}

theorem empty : Draft.empty.IsInline := by simp [Draft.IsInline, Draft.empty]

theorem add {pieces : Array Piece} {q : Piece} (h : ∀ p ∈ pieces, p.isSpan = true)
    (hq : q.isSpan = true) : ∀ p ∈ pieces.push q, p.isSpan = true := by
  intro p hp
  rcases Array.mem_push.1 hp with hp | rfl
  · exact h p hp
  · exact hq

theorem flush (h : d.IsInline) : d.flush.IsInline := by
  unfold Draft.flush
  split
  · exact h
  · exact add h rfl

theorem push (h : d.IsInline) {p : Piece} (hp : p.isSpan = true) : (d.push p).IsInline :=
  add h.flush hp

theorem breakLine (h : d.IsInline) : d.breakLine.IsInline := by
  have hpending : ∀ r, ({ d with pending := r } : Draft).IsInline := fun _ => h
  unfold Draft.breakLine
  split
  · exact (hpending _).push rfl
  · exact (hpending _).push rfl
  · exact h.push rfl

theorem addMarks (h : d.IsInline) (t : List Char) (m : Delimiter) (n : Nat) :
    (Draft.addMarks t m n d).IsInline := by
  induction n generalizing d with
  | zero => exact h
  | succ n ih => exact ih (d := d.addMark t m) (h.push (p := .text t) rfl)

theorem finish (h : d.IsInline) : ∀ p ∈ d.finish, p.isSpan = true :=
  forall_mem_resolveMarks h.flush _

end Draft.IsInline

theorem marks?_isInline {s : Source} {limit pos : Nat} {d : Draft} (h : d.IsInline) :
    ∀ r ∈ marks? s limit pos d, r.1.IsInline := by
  intro r hr
  unfold marks? at hr
  split at hr
  · cases hr
  · dsimp only at hr
    split at hr
    · split at hr
      · split at hr
        · cases hr
        · obtain rfl := Option.some.inj hr
          refine Draft.IsInline.addMarks ?_ _ _ _
          split
          · exact h.push rfl
          · exact h
      · obtain rfl := Option.some.inj hr
        exact h.addMarks _ _ _
    · cases hr

/-! ## Texts -/

def AreInline (ps : List Piece) : Prop := ∀ p ∈ ps, p.isSpan = true

theorem readFrom_gives (recognise : Recogniser φ) (s : Source) (skip : Nat → Walk φ Nat)
    {inner : Nat → Nat → Walk φ (List Piece)} (hinner : ∀ i j, Gives AreInline (inner i j))
    (alternative : List Char → List φ) (limit fuel pos : Nat) {d : Draft} (h : d.IsInline) :
    Gives AreInline (readFrom recognise s skip inner alternative limit fuel pos d) := by
  induction fuel generalizing pos d with
  | zero => exact .pure h.finish
  | succ fuel ih =>
    unfold readFrom
    refine .ite (.pure h.finish) ?_
    cases hmarks : marks? s limit pos d with
    | some r => exact ih _ (marks?_isInline h r hmarks)
    | none =>
      refine .bind (span?_gives recognise s skip limit pos) fun found hfound => ?_
      cases found with
      | none => exact ih _ (d := d.addText _) h
      | some e =>
        obtain ⟨e, next⟩ := e
        have hnext : ∀ {d : Draft}, d.IsInline → Gives AreInline (Pure.pure d >>= fun d =>
            readFrom recognise s skip inner alternative limit fuel next d) :=
          fun hd => .bind (.pure hd) fun d hd => ih next hd
        cases e with
        | text t => exact hnext (d := d.addText t) h
        | piece p => exact hnext (h.push (hfound p next rfl))
        | lineEnd => exact hnext h.breakLine
        | link target title start stop =>
          exact .bind (hinner start stop) fun ps hps =>
            hnext (h.push (p := .link target title ps) (Piece.areSpans_iff.2 hps))
        | image target title start stop => exact .after fun _ => hnext (h.push rfl)

theorem readPart_gives (recognise : Recogniser φ) (s : Source)
    (alternative : List Char → List φ) (levels start stop : Nat) :
    Gives AreInline (readPart recognise s alternative levels start stop) := by
  induction levels generalizing start stop with
  | zero => exact .pure (Draft.IsInline.empty.finish (d := Draft.empty.addText _))
  | succ n ih => exact readFrom_gives recognise s _ ih alternative _ _ _ Draft.IsInline.empty

theorem areInline_joinTexts {ps : List Piece} (h : AreInline ps) : AreInline (joinTexts ps) := by
  induction ps with
  | nil => exact h
  | cons p ps ih =>
    obtain ⟨hp, hps⟩ := List.forall_mem_cons.1 h
    have hrest := ih hps
    unfold joinTexts
    split
    · next hjoined =>
      rw [hjoined] at hrest
      exact List.forall_mem_cons.2 ⟨rfl, (List.forall_mem_cons.1 hrest).2⟩
    · next hjoined =>
      rw [hjoined] at hrest
      exact List.forall_mem_cons.2 ⟨rfl, (List.forall_mem_cons.1 hrest).2⟩
    · exact List.forall_mem_cons.2 ⟨rfl, hrest⟩
    · exact List.forall_mem_cons.2 ⟨hp, hrest⟩

mutual

theorem isSpan_joined : ∀ p : Piece, p.isSpan = true → (joined p).isSpan = true
  | .link _ _ inside, h =>
    Piece.areSpans_iff.2 (areInline_joinTexts (areInline_joinedAll inside
      (Piece.areSpans_iff.1 h)))
  | .text _, h | .special _, h | .markup _, h | .leaf _, h | .directive _, h | .opening _, h
  | .closing _, h => h

theorem areInline_joinedAll : ∀ ps : List Piece, AreInline ps → AreInline (joinedAll ps)
  | [], h => h
  | p :: ps, h =>
    List.forall_mem_cons.2 ⟨isSpan_joined p (List.forall_mem_cons.1 h).1,
      areInline_joinedAll ps (List.forall_mem_cons.1 h).2⟩

end

mutual

theorem isSpan_pieceTokens : ∀ p : Piece, p.isSpan = true → ∀ t ∈ pieceTokens p, t.isSpan = true
  | .link _ _ inside, h => by
    rw [pieceTokens, List.forall_mem_cons, List.forall_mem_append]
    exact ⟨rfl, isSpan_piecesTokens inside (Piece.areSpans_iff.1 h),
      by simp [Token.isSpan, spanKinds]⟩
  | .text _, h | .special _, h | .markup _, h | .leaf _, h | .directive _, h | .opening _, h
  | .closing _, h => by
    rw [pieceTokens, List.forall_mem_singleton]
    exact h

theorem isSpan_piecesTokens :
    ∀ ps : List Piece, AreInline ps → ∀ t ∈ piecesTokens ps, t.isSpan = true
  | [], _ => nofun
  | p :: ps, h => by
    rw [piecesTokens, List.forall_mem_append]
    exact ⟨isSpan_pieceTokens p (List.forall_mem_cons.1 h).1,
      isSpan_piecesTokens ps (List.forall_mem_cons.1 h).2⟩

end

theorem isSpan_of_read (recognise : Recogniser φ) (definitions : List Definition) (t : List Char) :
    ∀ u ∈ (read recognise definitions t).value, u.isSpan = true :=
  isSpan_piecesTokens _ (areInline_joinTexts (areInline_joinedAll _
    (readPart_gives recognise _ _ maxLevel _ _ _)))

end Inline

end Markdown

end DocPress
