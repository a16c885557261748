import DocPress.Proofs.Markdown.Walking
import DocPress.Proofs.Text.Scanning

/-!
# Plain wording

Words of letters with one space between them hold nothing that inline content is made of but
text, and are read as one text.
-/

set_option autoImplicit false

namespace DocPress.Markdown

open Text Document Directive

/-! ## Letters -/

theorem ne_of_isAlpha {c d : Char} (hc : c.isAlpha = true) (hd : d.isAlpha = false) : c ≠ d := by
  rintro rfl
  rw [hc] at hd
  cases hd

theorem stops_of_isAlpha {p : Char → Bool} (hp : ∀ c, p c = true → c.isAlpha = false)
    {s : List Char} (h : ∃ c r, s = c :: r ∧ c.isAlpha = true) : Stops p s := by
  obtain ⟨c, r, rfl, hc⟩ := h
  rw [stops_cons]
  exact Bool.eq_false_iff.2 fun hpc => ne_of_isAlpha hc (hp c hpc) rfl

theorem isAlpha_of_isEdge (c : Char) (h : isEdge c = true) : c.isAlpha = false := by
  simp only [isEdge, isSpaceOrTab, Bool.or_eq_true, beq_iff_eq] at h
  rcases h with ((rfl | rfl) | rfl) | rfl <;> decide

theorem isAlpha_of_isSpaceOrTab (c : Char) (h : isSpaceOrTab c = true) : c.isAlpha = false :=
  isAlpha_of_isEdge c (by simp [isEdge, h])

theorem isAlpha_iff (c : Char) : c.isAlpha = true ↔
    (0x41 ≤ c.toNat ∧ c.toNat ≤ 0x5A) ∨ (0x61 ≤ c.toNat ∧ c.toNat ≤ 0x7A) := by
  change (decide ('A'.val ≤ c.val ∧ c.val ≤ 'Z'.val) ||
    decide ('a'.val ≤ c.val) && decide (c.val ≤ 'z'.val)) = true ↔ _
  simp [UInt32.le_iff_toNat_le]

theorem isAlpha_of_isBlank (c : Char) (h : isBlank c = true) : c.isAlpha = false := by
  rw [Bool.eq_false_iff, Ne, isAlpha_iff]
  simp only [isBlank, Ranges.contains_iff, blankRanges, List.mem_cons, List.not_mem_nil, or_false,
    exists_eq_or_imp, exists_eq_left] at h
  omega

/-! ## Wordings -/

def IsWord (w : List Char) : Prop := w ≠ [] ∧ ∀ c ∈ w, c.isAlpha = true

inductive IsWording : List Char → Prop
  | word {w : List Char} : IsWord w → IsWording w
  | cons {w t : List Char} : IsWord w → IsWording t → IsWording (w ++ ' ' :: t)

structure Wording where
  text : List Char
  isWording : IsWording text

theorem trim_of_stops {s : List Char} (hl : Stops isEdge s) (hr : Stops isEdge s.reverse) :
    trim s = s := by
  rw [trim, dropWhile_of_stops hl, dropWhile_of_stops hr, List.reverse_reverse]

namespace IsWording

variable {t : List Char}

theorem first (h : IsWording t) : ∃ c r, t = c :: r ∧ c.isAlpha = true := by
  cases h with
  | word hw =>
    obtain ⟨c, r, rfl⟩ := List.exists_cons_of_ne_nil hw.1
    exact ⟨c, r, rfl, hw.2 c (by simp)⟩
  | cons hw _ =>
    obtain ⟨c, r, rfl⟩ := List.exists_cons_of_ne_nil hw.1
    exact ⟨c, _, rfl, hw.2 c (by simp)⟩

theorem last (h : IsWording t) : ∃ c r, t.reverse = c :: r ∧ c.isAlpha = true := by
  induction h with
  | @word w hw =>
    obtain ⟨c, r, hr⟩ := List.exists_cons_of_ne_nil (List.reverse_ne_nil_iff.2 hw.1)
    exact ⟨c, r, hr, hw.2 c (List.mem_reverse.1 (by simp [hr]))⟩
  | @cons w t hw _ ih =>
    obtain ⟨c, r, hr, hc⟩ := ih
    exact ⟨c, r ++ ' ' :: w.reverse, by simp [hr], hc⟩

theorem mem (h : IsWording t) : ∀ c ∈ t, c.isAlpha = true ∨ c = ' ' := by
  induction h with
  | word hw => exact fun c hc => Or.inl (hw.2 c hc)
  | cons hw _ ih =>
    intro c hc
    rw [List.mem_append, List.mem_cons] at hc
    rcases hc with hc | rfl | hc
    · exact Or.inl (hw.2 c hc)
    · exact Or.inr rfl
    · exact ih c hc

theorem not_mem (h : IsWording t) {d : Char} (hd : d.isAlpha = false) (hne : d ≠ ' ') : d ∉ t :=
  fun hmem => (h.mem d hmem).elim (fun ha => ne_of_isAlpha ha hd rfl) hne

theorem trim_eq (h : IsWording t) : trim t = t :=
  trim_of_stops (stops_of_isAlpha isAlpha_of_isEdge h.first)
    (stops_of_isAlpha isAlpha_of_isEdge h.last)

theorem strip_eq (h : IsWording t) : strip t = t := by
  rw [strip, stripLeft_of_stops (stops_of_isAlpha isAlpha_of_isBlank h.first),
    stripRight_of_stops (stops_of_isAlpha isAlpha_of_isBlank h.last)]

end IsWording

/-! ## Reading -/

namespace Inline

variable {φ : Type}

section

variable {s : Source} {pos : Nat} {c : Char} {a r : List Char}

theorem char?_of_tail (h : s.tail pos = c :: r) : s.char? pos = some c := by
  rw [tail_eq] at h
  rw [Source.char?, ← Array.getElem?_toList, ← List.head?_drop, h]
  rfl

theorem length_of_tail (h : s.tail pos = a) (hne : a ≠ []) : pos + a.length = s.size := by
  rw [tail_eq] at h
  have hlength := congrArg List.length h
  have hpos := List.length_pos_iff.2 hne
  rw [List.length_drop, Array.length_toList] at hlength
  have hsize : s.size = s.chars.size := rfl
  omega

theorem not_size_le_of_tail (h : s.tail pos = c :: r) : ¬s.size ≤ pos := by
  have hlength := length_of_tail h (List.cons_ne_nil c r)
  rw [List.length_cons] at hlength
  omega

theorem tail_of_append (h : s.tail pos = a ++ r) : s.tail (pos + a.length) = r := by
  rw [tail_eq] at h ⊢
  rw [← List.drop_drop, h, List.drop_left]

theorem slice_of_append (h : s.tail pos = a ++ r) : s.slice pos (pos + a.length) = a := by
  rw [tail_eq] at h
  rw [slice_eq, h, Nat.add_sub_cancel_left, List.take_left]

end

theorem isStop_of_isAlpha {c : Char} (h : c.isAlpha = true) : isStop c = false := by
  rw [isStop, List.contains_eq_mem, decide_eq_false_iff_not]
  intro hc
  have hall : ∀ d ∈ ['\n', '!', '#', '$', '%', '&', '*', '+', '-', ':', '<', '=', '>', '@', '[',
      '\\', ']', '^', '_', '\x60', '{', '}', '~'], d.isAlpha = false := by simp
  exact ne_of_isAlpha h (hall c hc) rfl

theorem span?_of_not_isStop (recognise : Recogniser φ) {s : Source} (skip : Nat → Walk φ Nat)
    (limit : Nat) {pos : Nat} {c : Char} (hc : s.char? pos = some c) (h : isStop c = false) :
    span? recognise s skip limit pos = pure (text? s limit pos) := by
  rw [span?, hc]
  dsimp only
  split <;> first | rfl | exact absurd h (by decide)

theorem marks?_of_not_isStop {s : Source} (limit : Nat) {pos : Nat} (d : Draft) {c : Char}
    (hc : s.char? pos = some c) (h : isStop c = false) : marks? s limit pos d = none := by
  have hmark : ¬(c == '*' || c == '_' || c == '~') = true := by
    simp only [Bool.or_eq_true, beq_iff_eq]
    rintro ((rfl | rfl) | rfl) <;> exact absurd h (by decide)
  rw [marks?, hc]
  dsimp only
  rw [if_neg hmark]

theorem readFrom_of_le (recognise : Recogniser φ) (s : Source) (skip : Nat → Walk φ Nat)
    (inner : Nat → Nat → Walk φ (List Piece)) (alternative : List Char → List φ) {limit pos : Nat}
    (h : limit ≤ pos) (fuel : Nat) (d : Draft) :
    readFrom recognise s skip inner alternative limit fuel pos d = pure d.finish := by
  cases fuel with
  | zero => rfl
  | succ fuel => rw [readFrom, if_pos h]

theorem finish_text {t : List Char} (hne : t ≠ []) :
    (Draft.empty.addText t).finish = [.text t] := by
  have hpending : (t.reverse ++ []).isEmpty = false := by simpa using hne
  simp only [Draft.finish, Draft.addText, Draft.empty, Draft.flush, hpending]
  simp [resolveMarks, pairMarks, applyStrikes, openStrikes, moveLoneTildes, applyEmphasisFrom]

/-- Text goes up to the next character that may start something else. -/
theorem readFrom_text (recognise : Recogniser φ) {s : Source} (skip : Nat → Walk φ Nat)
    (inner : Nat → Nat → Walk φ (List Piece)) (alternative : List Char → List φ) (fuel : Nat)
    {pos : Nat} (d : Draft) {t r : List Char} (hne : t ≠ []) (ht : ∀ c ∈ t, isStop c = false)
    (hr : Stops (!isStop ·) r) (h : s.tail pos = t ++ r) :
    readFrom recognise s skip inner alternative s.size (fuel + 1) pos d =
      readFrom recognise s skip inner alternative s.size fuel (pos + t.length) (d.addText t) := by
  obtain ⟨c, t, rfl⟩ := List.exists_cons_of_ne_nil hne
  have hc : s.char? pos = some c := char?_of_tail h
  have hstop : isStop c = false := ht c List.mem_cons_self
  have htext : text? s s.size pos = some (.text (c :: t), pos + (c :: t).length) := by
    have hall : (s.slice pos s.size).takeWhile (!isStop ·) = c :: t := by
      rw [show s.slice pos s.size = c :: t ++ r from h]
      exact takeWhile_run (fun x hx => by simp [ht x hx]) hr
    rw [text?, hall]
  rw [readFrom, if_neg (not_size_le_of_tail h), marks?_of_not_isStop s.size d hc hstop]
  dsimp only
  rw [span?_of_not_isStop recognise skip s.size hc hstop, htext]
  rfl

section

variable {t : List Char} (hne : t ≠ []) (h : ∀ c ∈ t, isStop c = false)

include hne h

/-- The text is read at once, and nothing is left then. -/
theorem readPart_of_plain (recognise : Recogniser φ) (alternative : List Char → List φ) (n : Nat) :
    readPart recognise (Source.ofList [] t) alternative (n + 1) 0 (Source.ofList [] t).size =
      pure [.text t] := by
  obtain ⟨c, r, rfl⟩ := List.exists_cons_of_ne_nil hne
  generalize hs : Source.ofList [] (c :: r) = s
  have htail : s.tail 0 = c :: r ++ [] := by
    rw [tail_eq, List.append_nil, ← hs]
    rfl
  have hsize := length_of_tail (htail.trans (List.append_nil _)) hne
  have hfuel : s.size - 0 = r.length + 1 := by
    rw [← hsize, List.length_cons]
    omega
  rw [readPart, hfuel, readFrom_text recognise _ _ alternative _ _ hne h (stops_nil _) htail,
    readFrom_of_le recognise s _ _ alternative (Nat.le_of_eq hsize.symm), finish_text hne]

theorem read_of_plain (recognise : Recogniser φ) :
    read recognise [] t = pure [.leaf (.text (String.ofList t))] := by
  rw [read, readAll, maxLevel, readPart_of_plain hne h]
  rfl

end

theorem read_wording (recognise : Recogniser φ) {t : List Char} (h : IsWording t) :
    read recognise [] t = pure [.leaf (.text (String.ofList t))] := by
  refine read_of_plain ?_ (fun c hc => ?_) recognise
  · obtain ⟨c, r, rfl, -⟩ := h.first
    simp
  · rcases h.mem c hc with ha | rfl
    · exact isStop_of_isAlpha ha
    · decide

end Inline

end DocPress.Markdown
