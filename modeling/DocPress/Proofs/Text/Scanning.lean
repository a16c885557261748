import Mathlib.Data.List.TakeWhile
import DocPress.Text.Blank

/-!
# Scanning and trimming

A scan takes the longest run of characters of one class: what a text is made of
such a run and a rest that does not go on with it determines both. Trimming is
scanning for white space, from the left and, on the text read backwards, from
the right.
-/

set_option autoImplicit false

namespace DocPress.Text

def Stops (p : Char → Bool) (s : List Char) : Prop := s.head?.any p = false

variable {p q : Char → Bool} {a b s t : List Char} {c : Char}

@[simp] theorem stops_nil (p : Char → Bool) : Stops p [] := rfl

@[simp] theorem stops_cons : Stops p (c :: s) ↔ p c = false := by simp [Stops]

theorem Stops.mono (h : Stops p s) (hsub : ∀ c, q c = true → p c = true) : Stops q s := by
  cases s with
  | nil => exact stops_nil q
  | cons c s =>
    rw [stops_cons] at h ⊢
    exact Bool.eq_false_iff.2 fun hq => Bool.eq_false_iff.1 h (hsub c hq)

theorem Stops.append (h : Stops p a) (hne : a ≠ []) (b : List Char) : Stops p (a ++ b) := by
  obtain ⟨c, r, rfl⟩ := List.exists_cons_of_ne_nil hne
  exact h

theorem stops_dropWhile (p : Char → Bool) (s : List Char) : Stops p (s.dropWhile p) := by
  induction s with
  | nil => rfl
  | cons c s ih =>
    cases hc : p c with
    | true => rw [List.dropWhile_cons_of_pos hc]; exact ih
    | false => rw [List.dropWhile_cons_of_neg (by simp [hc])]; simp [hc]

theorem dropWhile_of_stops (h : Stops p s) : s.dropWhile p = s := by
  cases s with
  | nil => rfl
  | cons c s => exact List.dropWhile_cons_of_neg (by simpa using h)

theorem takeWhile_of_stops (h : Stops p s) : s.takeWhile p = [] := by
  cases s with
  | nil => rfl
  | cons c s => exact List.takeWhile_cons_of_neg (by simpa using h)

theorem takeWhile_run (ha : ∀ c ∈ a, p c = true) (hb : Stops p b) :
    (a ++ b).takeWhile p = a := by
  rw [List.takeWhile_append_of_pos ha, takeWhile_of_stops hb, List.append_nil]

theorem dropWhile_run (ha : ∀ c ∈ a, p c = true) (hb : Stops p b) :
    (a ++ b).dropWhile p = b := by
  rw [List.dropWhile_append_of_pos ha, dropWhile_of_stops hb]

/-! ## White space -/

@[simp] theorem isBlankText_nil : isBlankText [] = true := rfl

theorem isBlankText_append : isBlankText (a ++ b) = true ↔
    isBlankText a = true ∧ isBlankText b = true := by
  simp [isBlankText]

theorem isBlankText_reverse (s : List Char) : isBlankText s.reverse = isBlankText s := by
  simp [isBlankText]

theorem stripLeft_append (ha : isBlankText a = true) : stripLeft (a ++ s) = stripLeft s :=
  List.dropWhile_append_of_pos (List.all_eq_true.1 ha)

theorem stripLeft_of_stops (h : Stops isBlank s) : stripLeft s = s := dropWhile_of_stops h

theorem stops_stripLeft (s : List Char) : Stops isBlank (stripLeft s) := stops_dropWhile isBlank s

theorem exists_stripLeft (s : List Char) : ∃ a, isBlankText a = true ∧ s = a ++ stripLeft s :=
  ⟨s.takeWhile isBlank, List.all_takeWhile, List.takeWhile_append_dropWhile.symm⟩

theorem isBlankText_of_stops (h : Stops isBlank s) : isBlankText s = true ↔ s = [] := by
  cases s with
  | nil => simp
  | cons c s => simp [isBlankText, stops_cons.1 h]

theorem stripLeft_eq_nil_iff (s : List Char) : stripLeft s = [] ↔ isBlankText s = true := by
  simp [stripLeft, isBlankText]

theorem strip_of_isBlankText (hb : isBlankText b = true) : strip b = [] := by
  simp [strip, (stripLeft_eq_nil_iff b).2 hb, stripRight]

theorem stripRight_eq (s : List Char) : stripRight s = (stripLeft s.reverse).reverse := rfl

theorem stripRight_append (hb : isBlankText b = true) : stripRight (s ++ b) = stripRight s := by
  rw [stripRight_eq, List.reverse_append,
    stripLeft_append (by rwa [isBlankText_reverse]), stripRight_eq]

theorem stripRight_of_stops (h : Stops isBlank s.reverse) : stripRight s = s := by
  rw [stripRight_eq, stripLeft_of_stops h, List.reverse_reverse]

theorem stops_stripRight (s : List Char) : Stops isBlank (stripRight s).reverse := by
  rw [stripRight_eq, List.reverse_reverse]
  exact stops_stripLeft _

theorem exists_stripRight (s : List Char) : ∃ b, isBlankText b = true ∧ s = stripRight s ++ b := by
  obtain ⟨a, ha, hs⟩ := exists_stripLeft s.reverse
  refine ⟨a.reverse, by rwa [isBlankText_reverse], ?_⟩
  rw [stripRight_eq, ← List.reverse_append, ← hs, List.reverse_reverse]

theorem stops_strip_reverse (s : List Char) : Stops isBlank (strip s).reverse :=
  stops_stripRight _

theorem strip_append_of_left (ha : isBlankText a = true) : strip (a ++ s) = strip s := by
  rw [strip, stripLeft_append ha, strip]

theorem strip_append_of_right (hb : isBlankText b = true) : strip (s ++ b) = strip s := by
  obtain ⟨a, ha, hs⟩ := exists_stripLeft s
  rw [hs, List.append_assoc, strip_append_of_left ha, strip_append_of_left ha]
  have hstops := stops_stripLeft s
  cases hr : stripLeft s with
  | nil => rw [List.nil_append, strip_of_isBlankText hb, strip_of_isBlankText isBlankText_nil]
  | cons c r =>
    rw [hr, stops_cons] at hstops
    rw [strip, strip, stripLeft_of_stops (by simpa using hstops),
      stripLeft_of_stops (by simpa using hstops), stripRight_append hb]

theorem stops_strip (s : List Char) : Stops isBlank (strip s) := by
  obtain ⟨b, -, ht⟩ := exists_stripRight (stripLeft s)
  have hstops := stops_stripLeft s
  rw [strip]
  cases hr : stripRight (stripLeft s) with
  | nil => exact stops_nil _
  | cons c r =>
    rw [ht, hr, List.cons_append, stops_cons] at hstops
    exact stops_cons.2 hstops

theorem isEmpty_strip (s : List Char) : (strip s).isEmpty = isBlankText s := by
  obtain ⟨front, hfront, hs⟩ := exists_stripLeft s
  obtain ⟨back, hback, hr⟩ := exists_stripRight (stripLeft s)
  have hcut : s = front ++ (strip s ++ back) := by rw [strip, ← hr, ← hs]
  rw [congrArg isBlankText hcut, Bool.eq_iff_iff, List.isEmpty_iff,
    ← isBlankText_of_stops (stops_strip s), isBlankText_append, isBlankText_append]
  exact ⟨fun h => ⟨hfront, h, hback⟩, fun h => h.2.1⟩

@[simp] theorem strip_strip (s : List Char) : strip (strip s) = strip s := by
  rw [strip, stripLeft_of_stops (stops_strip s), stripRight_of_stops (stops_strip_reverse s)]

/-- What ends a trimmed text is trimmed on the right. -/
theorem stops_reverse_of_append (h : Stops isBlank (a ++ b).reverse) : Stops isBlank b.reverse := by
  rw [List.reverse_append] at h
  cases hb : b.reverse with
  | nil => exact stops_nil _
  | cons c r =>
    rw [hb] at h
    exact h

/-! ## Words -/

theorem words_go_eq (w s : List Char) :
    words.go w s = (List.splitOnPPrepend isBlank s w).filter (· ≠ []) := by
  induction s generalizing w with
  | nil => cases w <;> simp [words.go, List.splitOnPPrepend_nil]
  | cons c s ih =>
    rw [List.splitOnPPrepend_cons_eq_if]
    cases hc : isBlank c <;> cases w <;> simp [words.go, hc, ih]

/-- The words of a text are the parts that stand between white space, empty ones left out. -/
theorem words_eq (s : List Char) : words s = (s.splitOnP isBlank).filter (· ≠ []) := by
  rw [words, words_go_eq, List.splitOnP_eq_splitOnPPrepend]

theorem mem_words_go {w : List Char} {q : Char → Prop}
    (hw : ∀ c ∈ w, isBlank c = false ∧ q c) (hs : ∀ c ∈ s, q c) :
    ∀ word ∈ words.go w s, ∀ c ∈ word, isBlank c = false ∧ q c := by
  induction s generalizing w with
  | nil =>
    cases w with
    | nil => nofun
    | cons d w => simpa [words.go, or_comm] using hw
  | cons c s ih =>
    obtain ⟨hc, hs⟩ := List.forall_mem_cons.1 hs
    have hrest := ih (w := []) nofun hs
    have hword : isBlank c = false → ∀ word ∈ words.go (c :: w) s, ∀ c ∈ word,
        isBlank c = false ∧ q c := fun hb => ih (List.forall_mem_cons.2 ⟨⟨hb, hc⟩, hw⟩) hs
    cases w with
    | nil =>
      rw [words.go]
      split
      · exact hrest
      · next hb => exact hword (by simpa using hb)
    | cons d w =>
      rw [words.go]
      · split
        · exact List.forall_mem_cons.2 ⟨fun x hx => hw x (List.mem_reverse.1 hx), hrest⟩
        · next hb => exact hword (by simpa using hb)
      · nofun

theorem mem_words {q : Char → Prop} (h : ∀ c ∈ s, q c) :
    ∀ word ∈ words s, ∀ c ∈ word, isBlank c = false ∧ q c := mem_words_go nofun h

theorem words_of_no_blank (h : ∀ c ∈ s, isBlank c = false) : (words s).head?.getD [] = s := by
  rw [words_eq, List.splitOnP_eq_singleton h]
  cases s <;> rfl

theorem words_append_of_left (ha : isBlankText a = true) : words (a ++ s) = words s := by
  induction a with
  | nil => rfl
  | cons c a ih =>
    obtain ⟨hc, ha⟩ : isBlank c = true ∧ isBlankText a = true := by simpa [isBlankText] using ha
    rw [← ih ha]
    simp [words, words.go, hc]

theorem words_go_append (hb : isBlankText b = true) (w : List Char) :
    words.go w (s ++ b) = words.go w s := by
  induction s generalizing w with
  | nil =>
    cases b with
    | nil => rfl
    | cons c b =>
      obtain ⟨hc, hb⟩ : isBlank c = true ∧ isBlankText b = true := by simpa [isBlankText] using hb
      have hrest : words.go [] b = [] := by
        have h := words_append_of_left (s := []) hb
        rwa [List.append_nil] at h
      cases w <;> simp [words.go, hc, hrest]
  | cons c s ih => cases hc : isBlank c <;> cases w <;> simp [words.go, hc, ih]

theorem words_strip (s : List Char) : words (strip s) = words s := by
  obtain ⟨a, ha, hs⟩ := exists_stripLeft s
  obtain ⟨b, hb, ht⟩ := exists_stripRight (stripLeft s)
  calc words (strip s) = words (stripRight (stripLeft s) ++ b) := (words_go_append hb []).symm
    _ = words (stripLeft s) := by rw [← ht]
    _ = words (a ++ stripLeft s) := (words_append_of_left ha).symm
    _ = words s := by rw [← hs]

end DocPress.Text
