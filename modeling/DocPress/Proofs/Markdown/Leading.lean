import DocPress.Proofs.Markdown.Pieces
import DocPress.Proofs.Markdown.Wording

/-!
# Text at the start

A text that is read from left to right keeps what it starts with: once characters have been taken
for text before anything else was found, the first piece is a text that starts with them. Pairing
the marks of emphasis replaces and moves later pieces only, since no mark is kept in the first one.
-/

set_option autoImplicit false

namespace DocPress.Markdown

open Text Document Directive

variable {t : List Char} {ps : Array Piece}

def Leads (t : List Char) (ps : List Piece) : Prop := ∃ s, ps.head? = some (.text s) ∧ t <+: s

/-! ## Marks -/

def StartsWith (t : List Char) (ps : Array Piece) : Prop :=
  ∃ s, ps[0]? = some (.text s) ∧ t <+: s

namespace StartsWith

theorem set (h : StartsWith t ps) {i : Nat} (hi : 0 < i) (p : Piece) :
    StartsWith t (ps.setIfInBounds i p) := by
  obtain ⟨s, hs, ht⟩ := h
  refine ⟨s, ?_, ht⟩
  rw [Array.getElem?_setIfInBounds_ne (by omega), hs]

theorem swap (h : StartsWith t ps) {i j : Nat} (hi : 0 < i) (hj : 0 < j) :
    StartsWith t (ps.swapIfInBounds i j) := by
  rw [Array.swapIfInBounds_def]
  split
  · split
    · obtain ⟨s, hs, ht⟩ := h
      refine ⟨s, ?_, ht⟩
      rw [Array.getElem?_swap, if_neg (by omega), if_neg (by omega), hs]
    · exact h
  · exact h

theorem size_pos (h : StartsWith t ps) : 0 < ps.size := by
  obtain ⟨s, hs, -⟩ := h
  exact (Array.getElem?_eq_some_iff.1 hs).1

theorem push (h : StartsWith t ps) (p : Piece) : StartsWith t (ps.push p) := by
  have hpos := h.size_pos
  obtain ⟨s, hs, ht⟩ := h
  refine ⟨s, ?_, ht⟩
  rw [Array.getElem?_push_lt hpos, ← Array.getElem?_eq_getElem hpos, hs]

end StartsWith

/-- No mark is kept in the first piece, and partners are marks. -/
def AreBehind (marks : Array Delimiter) : Prop :=
  ∀ d ∈ marks, 0 < d.piece ∧ ∀ e, d.partner = some e → e < marks.size

theorem forall_mem_modify {α : Type} {P : α → Prop} {xs : Array α} (h : ∀ x ∈ xs, P x) (i : Nat)
    {f : α → α} (hf : ∀ x, P x → P (f x)) : ∀ x ∈ xs.modify i f, P x := by
  intro x hx
  obtain ⟨j, hj⟩ := Array.mem_iff_getElem?.1 hx
  rw [Array.getElem?_modify] at hj
  split at hj
  · obtain ⟨y, hy, rfl⟩ := Option.map_eq_some_iff.1 hj
    exact hf y (h y (Array.mem_of_getElem? hy))
  · exact h x (Array.mem_of_getElem? hj)

/-- Pairing a mark changes no mark, or the mark and its opener. -/
theorem Pairing.marks_close (p : Pairing) (i : Nat) :
    (p.close i).marks = p.marks ∨ ∃ o, (p.close i).marks =
      (p.marks.modify i fun d => { d with opens := false }).modify o fun d =>
        { d with partner := some i, closes := false } := by
  unfold close
  dsimp only
  split
  · exact .inl rfl
  · split
    · exact .inr ⟨_, rfl⟩
    · rw [apply_ite Pairing.marks, ite_self]
      exact .inl rfl

theorem Pairing.size_close (p : Pairing) (i : Nat) : (p.close i).marks.size = p.marks.size := by
  obtain h | ⟨o, h⟩ := p.marks_close i <;> simp [h]

theorem Pairing.areBehind_close {p : Pairing} (h : AreBehind p.marks) {i : Nat}
    (hi : i < p.marks.size) : AreBehind (p.close i).marks := by
  have hsize := p.size_close i
  obtain hsame | ⟨o, hpaired⟩ := p.marks_close i
  · rwa [hsame]
  · unfold AreBehind
    rw [hsize, hpaired]
    refine forall_mem_modify (forall_mem_modify h i fun _ hd => ?_) o fun d hd => ?_
    · exact hd
    · exact ⟨hd.1, fun e he => Option.some.inj he ▸ hi⟩

theorem AreBehind.pairMarks {marks : Array Delimiter} (h : AreBehind marks) :
    AreBehind (pairMarks marks) := by
  have hrun : ∀ (is : List Nat) (p : Pairing), AreBehind p.marks →
      (∀ i ∈ is, i < p.marks.size) → AreBehind (is.foldl Pairing.close p).marks := by
    intro is
    induction is with
    | nil => exact fun p hp _ => hp
    | cons i is ih =>
      intro p hp his
      obtain ⟨hi, his⟩ := List.forall_mem_cons.1 his
      exact ih _ (Pairing.areBehind_close hp hi) fun j hj => by
        rw [p.size_close i]
        exact his j hj
  exact hrun _ _ h fun i hi => List.mem_range.1 hi

theorem AreBehind.pos_piece {marks : Array Delimiter} (h : AreBehind marks) {e : Nat}
    (he : e < marks.size) : 0 < (marks.getD e default).piece := by
  rw [Array.getD_eq_getD_getElem?, Array.getElem?_eq_getElem he]
  exact (h _ (Array.getElem_mem he)).1

theorem eq_of_isLoneTilde {s : List Char} (h : isLoneTilde (some (.text s)) = true) :
    s = ['~'] := by
  unfold isLoneTilde at h
  split at h
  · rename_i he
    exact Piece.text.inj (Option.some.inj he)
  · cases h

theorem startsWith_openStrikes {marks : Array Delimiter} (hmarks : AreBehind marks)
    (htilde : ¬t <+: ['~']) (h : StartsWith t ps) :
    StartsWith t (openStrikes marks ps).1 ∧ ∀ i ∈ (openStrikes marks ps).2, 0 < i := by
  unfold openStrikes
  refine Array.foldl_induction
    (fun _ (r : Array Piece × List Nat) => StartsWith t r.1 ∧ ∀ i ∈ r.2, 0 < i)
    ⟨h, List.forall_mem_nil _⟩ fun i r hr => ?_
  dsimp only
  split
  · rename_i e _ hpartner
    obtain ⟨hpiece, he⟩ := hmarks marks[i] (Array.getElem_mem i.2)
    have hcloser := hmarks.pos_piece (he e hpartner)
    have hset := (hr.1.set hpiece (.opening .strike)).set hcloser (.closing .strike)
    refine ⟨hset, ?_⟩
    split
    · rename_i hlone
      refine List.forall_mem_cons.2 ⟨?_, hr.2⟩
      refine Nat.pos_of_ne_zero fun hfirst => htilde ?_
      obtain ⟨s, hs, ht⟩ := hset
      rw [hfirst, hs] at hlone
      rwa [eq_of_isLoneTilde (Bool.and_eq_true_iff.1 hlone).2] at ht
    · exact hr.2
  · exact hr

theorem le_lastStrikeEnd (ps : Array Piece) (fuel i : Nat) : i ≤ lastStrikeEnd ps fuel i := by
  induction fuel generalizing i with
  | zero => exact Nat.le_refl i
  | succ fuel ih =>
    rw [lastStrikeEnd]
    split
    · exact Nat.le_of_succ_le (ih (i + 1))
    · exact Nat.le_refl i

theorem StartsWith.moveLoneTildes (h : StartsWith t ps) {lone : List Nat}
    (hlone : ∀ i ∈ lone, 0 < i) : StartsWith t (moveLoneTildes ps lone) := by
  unfold Markdown.moveLoneTildes
  induction lone generalizing ps with
  | nil => exact h
  | cons i lone ih =>
    obtain ⟨hi, hlone⟩ := List.forall_mem_cons.1 hlone
    exact ih (h.swap hi (Nat.lt_of_lt_of_le hi (le_lastStrikeEnd ps _ i))) hlone

/-- A pair of marks is replaced behind the first piece. -/
theorem StartsWith.replace (h : StartsWith t ps) {marks : Array Delimiter}
    (hmarks : AreBehind marks) {i e : Nat}
    (hpartner : (marks.getD i default).partner = some e) (p q : Piece) :
    StartsWith t ((ps.setIfInBounds (marks.getD i default).piece p).setIfInBounds
      (marks.getD e default).piece q) := by
  have hi : i < marks.size := by
    refine Nat.lt_of_not_le fun hi => ?_
    rw [Array.getD_eq_getD_getElem?, Array.getElem?_eq_none hi] at hpartner
    cases hpartner
  have he : e < marks.size := by
    rw [Array.getD_eq_getD_getElem?, Array.getElem?_eq_getElem hi] at hpartner
    exact (hmarks _ (Array.getElem_mem hi)).2 e hpartner
  exact (h.set (hmarks.pos_piece hi) p).set (hmarks.pos_piece he) q

theorem partner_of_isStrongPair {marks : Array Delimiter} {i e : Nat}
    (h : isStrongPair marks i e = true) :
    (marks.getD (i - 1) default).partner = some (e + 1) := by
  simp only [isStrongPair, Bool.and_eq_true, beq_iff_eq] at h
  exact h.1.1.1.2

theorem StartsWith.applyEmphasisFrom (h : StartsWith t ps) {marks : Array Delimiter}
    (hmarks : AreBehind marks) (n : Nat) : StartsWith t (applyEmphasisFrom marks n ps) := by
  fun_induction Markdown.applyEmphasisFrom marks n ps with
  | case1 => exact h
  | case2 ps e d hpartner =>
    rename_i hstrong _
    exact (h.replace hmarks hpartner _ _).replace hmarks (partner_of_isStrongPair hstrong) _ _
  | case3 ps e j d hpartner =>
    rename_i hstrong _ ih
    exact ih ((h.replace hmarks hpartner _ _).replace hmarks (partner_of_isStrongPair hstrong) _ _)
  | case4 i ps d e hpartner =>
    rename_i ih
    exact ih (h.replace hmarks hpartner _ _)
  | case5 | case6 =>
    rename_i ih
    exact ih h

theorem StartsWith.resolveMarks (h : StartsWith t ps) {marks : Array Delimiter}
    (hmarks : AreBehind marks) (htilde : ¬t <+: ['~']) :
    Leads t (resolveMarks marks ps) := by
  obtain ⟨hopen, hlone⟩ := startsWith_openStrikes hmarks.pairMarks htilde h
  obtain ⟨s, hs, ht⟩ := (hopen.moveLoneTildes hlone).applyEmphasisFrom hmarks.pairMarks
    (pairMarks marks).size
  refine ⟨s, ?_, ht⟩
  rw [List.head?_eq_getElem?, ← hs]
  exact Array.getElem?_toList

namespace Inline

variable {φ : Type} {u : List Char} {d : Draft}

/-! ## Drafts -/

/-- A draft in which only text has been read, which starts with the given one, or whose first piece
is such a text. -/
inductive Draft.Begins (t : List Char) : Draft → Prop
  | pending {r : List Char} : t.reverse <:+ r → Begins t ⟨r, #[], #[]⟩
  | pieces {r : List Char} {ps : Array Piece} {marks : Array Delimiter} : StartsWith t ps →
      (∀ m ∈ marks, 0 < m.piece ∧ m.partner = none) → Begins t ⟨r, ps, marks⟩

namespace Draft.Begins

theorem flush (h : d.Begins (u ++ ['{'])) : StartsWith (u ++ ['{']) d.flush.pieces ∧
    ∀ m ∈ d.flush.marks, 0 < m.piece ∧ m.partner = none := by
  cases h with
  | @pending r hr =>
    have hne : r.isEmpty = false := by
      obtain ⟨w, rfl⟩ := hr
      simp
    rw [Draft.flush, if_neg (by simp [hne])]
    refine ⟨⟨r.reverse, rfl, ?_⟩, by simp⟩
    rwa [← List.reverse_suffix, List.reverse_reverse]
  | pieces hs hm =>
    unfold Draft.flush
    split
    · exact ⟨hs, hm⟩
    · exact ⟨hs.push _, hm⟩

theorem push (h : d.Begins (u ++ ['{'])) (p : Piece) : (d.push p).Begins (u ++ ['{']) :=
  .pieces (h.flush.1.push p) h.flush.2

theorem addText (h : d.Begins (u ++ ['{'])) (s : List Char) :
    (d.addText s).Begins (u ++ ['{']) := by
  cases h with
  | pending hr => exact .pending (hr.trans (List.suffix_append _ _))
  | pieces hs hm => exact .pieces hs hm

/-- The brace is no space, so it stays when spaces after it are dropped. -/
theorem trim (h : d.Begins (u ++ ['{'])) {w r : List Char} (hw : ∀ c ∈ w, c = ' ')
    (hd : d.pending = w ++ r) : ({ d with pending := r } : Draft).Begins (u ++ ['{']) := by
  cases h with
  | pieces hs hm => exact .pieces hs hm
  | pending hr =>
    refine .pending ?_
    obtain rfl := hd
    induction w with
    | nil => exact hr
    | cons c w ih =>
      obtain ⟨hc, hrest⟩ := List.forall_mem_cons.1 hw
      obtain he | hr := List.suffix_cons_iff.1 hr
      · rw [List.reverse_append] at he
        exact absurd ((List.cons.inj he).1.trans hc) (by decide)
      · exact ih hrest hr

theorem breakLine (h : d.Begins (u ++ ['{'])) : d.breakLine.Begins (u ++ ['{']) := by
  unfold Draft.breakLine
  split
  · rename_i r hr
    refine (h.trim (w := ' ' :: ' ' :: r.takeWhile (· == ' ')) ?_ ?_).push _
    · have hrun : ∀ c ∈ r.takeWhile (· == ' '), c = ' ' := fun c hc =>
        eq_of_beq (List.all_eq_true.1 List.all_takeWhile c hc)
      exact List.forall_mem_cons.2 ⟨rfl, List.forall_mem_cons.2 ⟨rfl, hrun⟩⟩
    · rw [hr, List.cons_append, List.cons_append, List.takeWhile_append_dropWhile]
  · rename_i r _ hr
    exact (h.trim (w := [' ']) (by simp) hr).push _
  · exact h.push _

theorem addMark (h : d.Begins (u ++ ['{'])) (s : List Char) {m : Delimiter}
    (hm : m.partner = none) : (d.addMark s m).Begins (u ++ ['{']) := by
  obtain ⟨hs, hmarks⟩ := h.flush
  refine .pieces (hs.push (.text s)) fun m' hm' => ?_
  obtain hm' | rfl := Array.mem_push.1 hm'
  · exact hmarks m' hm'
  · refine ⟨?_, hm⟩
    simpa [Draft.push] using hs.size_pos

theorem addMarks (h : d.Begins (u ++ ['{'])) (s : List Char) {m : Delimiter}
    (hm : m.partner = none) (n : Nat) : (Draft.addMarks s m n d).Begins (u ++ ['{']) := by
  induction n generalizing d with
  | zero => exact h
  | succ n ih => exact ih (h.addMark s hm)

theorem finish (h : d.Begins (u ++ ['{'])) : Leads (u ++ ['{']) d.finish := by
  refine h.flush.1.resolveMarks (fun m hm => ?_) fun ht => ?_
  · obtain ⟨hpiece, hpartner⟩ := h.flush.2 m hm
    exact ⟨hpiece, fun e he => nomatch hpartner.symm.trans he⟩
  · have hbrace := ht.subset (List.mem_append_right u (List.mem_singleton_self '{'))
    exact absurd hbrace (by decide)

end Draft.Begins

theorem marks?_begins {s : Source} {limit pos : Nat} (h : d.Begins (u ++ ['{'])) :
    ∀ r ∈ marks? s limit pos d, r.1.Begins (u ++ ['{']) := by
  intro r hr
  unfold marks? at hr
  split at hr
  · cases hr
  · dsimp only at hr
    split at hr
    · split at hr
      · split at hr
        · cases hr
        · obtain rfl := Option.some.inj hr
          refine Draft.Begins.addMarks ?_ _ rfl _
          split
          · exact h.push _
          · exact h
      · obtain rfl := Option.some.inj hr
        exact h.addMarks _ rfl _
    · cases hr

/-! ## Texts -/

theorem readFrom_leads (recognise : Recogniser φ) (s : Source) (skip : Nat → Walk φ Nat)
    (inner : Nat → Nat → Walk φ (List Piece)) (alternative : List Char → List φ)
    (limit fuel pos : Nat) (h : d.Begins (u ++ ['{'])) :
    Gives (Leads (u ++ ['{'])) (readFrom recognise s skip inner alternative limit fuel pos d) := by
  induction fuel generalizing pos d with
  | zero => exact .pure h.finish
  | succ fuel ih =>
    unfold readFrom
    refine .ite (.pure h.finish) ?_
    cases hmarks : marks? s limit pos d with
    | some r => exact ih _ (marks?_begins h r hmarks)
    | none =>
      refine .after fun found => ?_
      cases found with
      | none => exact ih _ (h.addText _)
      | some e =>
        obtain ⟨e, next⟩ := e
        have hnext : ∀ {d : Draft}, d.Begins (u ++ ['{']) →
            Gives (Leads (u ++ ['{'])) (Pure.pure d >>= fun d =>
              readFrom recognise s skip inner alternative limit fuel next d) :=
          fun hd => .bind (.pure hd) fun d hd => ih next hd
        cases e with
        | text t => exact hnext (h.addText t)
        | piece p => exact hnext (h.push p)
        | lineEnd => exact hnext h.breakLine
        | link | image => exact .after fun _ => hnext (h.push _)

theorem leads_joinTexts {ps : List Piece} (h : Leads t ps) : Leads t (joinTexts ps) := by
  obtain ⟨s, hs, ht⟩ := h
  cases ps with
  | nil => cases hs
  | cons p ps =>
    obtain rfl := Option.some.inj hs
    unfold joinTexts
    split
    · next a b rest hp _ =>
      obtain rfl := Piece.text.inj hp
      exact ⟨_, rfl, ht.trans (List.prefix_append s b)⟩
    · next hp _ => cases hp
    · next hp _ => cases hp
    · exact ⟨s, rfl, ht⟩

theorem leads_joinedAll {ps : List Piece} (h : Leads t ps) : Leads t (joinedAll ps) := by
  obtain ⟨s, hs, ht⟩ := h
  cases ps with
  | nil => cases hs
  | cons p ps =>
    obtain rfl := Option.some.inj hs
    exact ⟨s, rfl, ht⟩

/-- The first token of such pieces is the text. -/
theorem piecesTokens_of_leads {ps : List Piece} (h : Leads t ps) :
    ∃ s ts, piecesTokens ps = .leaf (.text (String.ofList s)) :: ts ∧ t <+: s := by
  obtain ⟨s, hs, ht⟩ := h
  cases ps with
  | nil => cases hs
  | cons p ps =>
    obtain rfl := Option.some.inj hs
    exact ⟨s, _, rfl, ht⟩

end Inline

end DocPress.Markdown
