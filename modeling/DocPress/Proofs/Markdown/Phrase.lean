import DocPress.Proofs.Markdown.Plain

/-!
# Plain phrases

A phrase is words with spaces between them, a word being letters and digits of any script. A line
that holds a phrase starts no block but a paragraph, and a phrase is read as one text.
-/

set_option autoImplicit false

namespace DocPress.Markdown

open Text Directive

/-- A letter or digit of ASCII, or anything beyond ASCII that is not white space. -/
def isPlain (c : Char) : Bool := c.isAlphanum || (0x80 ≤ c.toNat && !isBlank c)

structure IsPhrase (t : List Char) : Prop where
  mem : ∀ c ∈ t, isPlain c = true ∨ c = ' '
  first : t.head?.any isPlain = true
  last : t.reverse.head?.any isPlain = true

instance (t : List Char) : Decidable (IsPhrase t) :=
  decidable_of_iff ((t.all fun c => isPlain c || c == ' ') = true ∧
      t.head?.any isPlain = true ∧ t.reverse.head?.any isPlain = true)
    ⟨fun h => ⟨by simpa using h.1, h.2.1, h.2.2⟩, fun h => ⟨by simpa using h.mem, h.first, h.last⟩⟩

structure Phrase where
  text : List Char
  isPhrase : IsPhrase text

/-! ## Plain characters -/

theorem ne_of_isPlain {c d : Char} (hc : isPlain c = true) (hd : isPlain d = false) : c ≠ d := by
  rintro rfl
  rw [hc] at hd
  cases hd

theorem isPlain_of_isBlank (c : Char) (h : isBlank c = true) : isPlain c = false := by
  have hdigit : c.isDigit = false := by
    have hzero : '0'.toNat = 0x30 := rfl
    have hnine : '9'.toNat = 0x39 := rfl
    rw [Bool.eq_false_iff, Ne, Char.isDigit_iff_toNat]
    simp only [isBlank, Ranges.contains_iff, blankRanges, List.mem_cons, List.not_mem_nil,
      or_false, exists_eq_or_imp, exists_eq_left] at h
    omega
  simp [isPlain, Char.isAlphanum, isAlpha_of_isBlank c h, hdigit, h]

theorem isPlain_of_isSpaceOrTab (c : Char) (h : isSpaceOrTab c = true) : isPlain c = false :=
  isPlain_of_isBlank c (isBlank_of_isSpaceOrTab c h)

theorem isPlain_of_isEdge (c : Char) (h : isEdge c = true) : isPlain c = false := by
  refine isPlain_of_isBlank c ?_
  simp only [isEdge, isSpaceOrTab, Bool.or_eq_true, beq_iff_eq] at h
  rcases h with ((rfl | rfl) | rfl) | rfl <;> decide

theorem stops_of_isPlain {p : Char → Bool} (hp : ∀ c, p c = true → isPlain c = false)
    {s : List Char} (h : s.head?.any isPlain = true) : Stops p s := by
  cases s with
  | nil => rfl
  | cons c s =>
    rw [stops_cons]
    exact Bool.eq_false_iff.2 fun hpc => ne_of_isPlain h (hp c hpc) rfl

theorem not_mem_startMarks {c : Char} (h : isPlain c = true) : c ∉ Block.startMarks := fun hmem =>
  have hall : ∀ d ∈ Block.startMarks, isPlain d = false := by
    simp [Block.startMarks, isPlain]
  ne_of_isPlain h (hall c hmem) rfl

namespace IsPhrase

variable {t : List Char}

theorem exists_cons (h : IsPhrase t) : ∃ c r, t = c :: r ∧ isPlain c = true := by
  have hfirst := h.first
  cases t with
  | nil => cases hfirst
  | cons c r => exact ⟨c, r, rfl, hfirst⟩

theorem ne_nil (h : IsPhrase t) : t ≠ [] := by
  obtain ⟨c, r, rfl, -⟩ := h.exists_cons
  exact List.cons_ne_nil c r

theorem not_mem (h : IsPhrase t) {d : Char} (hd : isPlain d = false) (hne : d ≠ ' ') : d ∉ t :=
  fun hmem => (h.mem d hmem).elim (fun hp => ne_of_isPlain hp hd rfl) hne

theorem stops (h : IsPhrase t) {p : Char → Bool} (hp : ∀ c, p c = true → isPlain c = false) :
    Stops p t := stops_of_isPlain hp h.first

theorem stops_reverse (h : IsPhrase t) {p : Char → Bool}
    (hp : ∀ c, p c = true → isPlain c = false) : Stops p t.reverse := stops_of_isPlain hp h.last

/-- Spaces before a phrase are trimmed, and nothing of the phrase is. -/
theorem trim_spaces (h : IsPhrase t) (n : Nat) : trim (List.replicate n ' ' ++ t) = t := by
  have hspaces : ∀ c ∈ List.replicate n ' ', isEdge c = true := fun c hc => by
    rw [List.eq_of_mem_replicate hc]
    rfl
  rw [trim, dropWhile_run hspaces (h.stops isPlain_of_isEdge),
    dropWhile_of_stops (h.stops_reverse isPlain_of_isEdge), List.reverse_reverse]

theorem strip_eq (h : IsPhrase t) : strip t = t := by
  rw [strip, stripLeft_of_stops (h.stops isPlain_of_isBlank),
    stripRight_of_stops (h.stops_reverse isPlain_of_isBlank)]

theorem isStop (h : IsPhrase t) : ∀ c ∈ t, Inline.isStop c = false := by
  intro c hc
  have hall : ∀ d ∈ ['\n', '!', '#', '$', '%', '&', '*', '+', '-', ':', '<', '=', '>', '@', '[',
      '\\', ']', '^', '_', '\x60', '{', '}', '~'], isPlain d = false ∧ d ≠ ' ' := by
    simp [isPlain]
  rw [Inline.isStop, List.contains_eq_mem, decide_eq_false_iff_not]
  exact fun hstop => h.not_mem (hall c hstop).1 (hall c hstop).2 hc

theorem isStop_space (h : IsPhrase t) : ∀ c ∈ t ++ [' '], Inline.isStop c = false :=
  List.forall_mem_append.2 ⟨h.isStop, List.forall_mem_singleton.2 (by decide)⟩

theorem read (h : IsPhrase t) {φ : Type} (recognise : Recogniser φ) :
    Inline.read recognise [] t = pure [.leaf (.text (String.ofList t))] :=
  Inline.read_of_plain h.ne_nil h.isStop recognise

/-- A number in front is no mark of an item: what goes on with it is neither a dot nor a bracket. -/
theorem listMark?_append (h : IsPhrase t) {r : List Char} (hr : ∀ c ∈ r.head?, c = ' ') :
    Markdown.listMark? (t ++ r) = none := by
  obtain ⟨c, q, rfl, hc⟩ := h.exists_cons
  have hbullet : (c == '*' || c == '-' || c == '+') = false := by
    have hne : ∀ d, isPlain d = false → (c == d) = false := fun d hd =>
      beq_false_of_ne (ne_of_isPlain hc hd)
    rw [hne '*' rfl, hne '-' rfl, hne '+' rfl]
    rfl
  have hbehind : ∀ m ∈ ((c :: q ++ r).dropWhile Char.isDigit).head?, m ∈ c :: q ∨ m = ' ' := by
    intro m hm
    rw [List.dropWhile_append] at hm
    split at hm
    · cases r with
      | nil => cases hm
      | cons d r =>
        obtain rfl := hr d rfl
        exact Or.inr (Option.some.inj hm).symm
    · next hne =>
      obtain ⟨d, ds, hds⟩ := List.exists_cons_of_ne_nil (mt List.isEmpty_iff.2 hne)
      rw [hds] at hm
      obtain rfl := Option.some.inj hm
      exact Or.inl ((List.dropWhile_suffix _).subset (hds ▸ List.mem_cons_self))
  rw [List.cons_append, Markdown.listMark?, if_neg (by simp [hbullet])]
  rw [List.cons_append] at hbehind
  cases hrest : (c :: (q ++ r)).dropWhile Char.isDigit with
  | nil => rfl
  | cons m rest =>
    have hne : ∀ d, isPlain d = false → d ≠ ' ' → (m == d) = false := fun d hd hs =>
      beq_false_of_ne fun hmd => (hbehind m (by rw [hrest]; rfl)).elim
        (fun hm => h.not_mem hd hs (hmd ▸ hm)) fun hm => hs (hmd ▸ hm)
    dsimp only
    rw [hne ')' rfl (by decide), hne '.' rfl (by decide)]
    rfl

theorem listMark? (h : IsPhrase t) : Markdown.listMark? t = none := by
  simpa using h.listMark?_append (r := []) nofun

end IsPhrase

theorem IsWording.isPhrase {t : List Char} (h : IsWording t) : IsPhrase t := by
  have hplain : ∀ c : Char, c.isAlpha = true → isPlain c = true := fun c hc => by
    simp [isPlain, Char.isAlphanum, hc]
  obtain ⟨c, r, hcr, hc⟩ := h.first
  obtain ⟨d, q, hdq, hd⟩ := h.last
  refine ⟨fun c hc => (h.mem c hc).imp_left (hplain c), ?_, ?_⟩
  · rw [hcr]
    exact hplain c hc
  · rw [hdq]
    exact hplain d hd

/-! ## Lines after spaces -/

theorem isSpaceOrTab_of_mem {n : Nat} : ∀ c ∈ List.replicate n ' ', isSpaceOrTab c = true :=
  fun c hc => by rw [List.eq_of_mem_replicate hc]; rfl

theorem columnAfterAll_spaces (base n : Nat) (column : Int) :
    columnAfterAll base column (List.replicate n ' ') = column + n := by
  induction n generalizing column with
  | zero => simp [columnAfterAll]
  | succ n ih =>
    rw [List.replicate_succ, columnAfterAll, List.foldl_cons]
    refine (ih _).trans ?_
    simp only [columnAfter, show (' ' = '\t') = False by decide, if_false]
    omega

theorem Line.ofText_spaces {s : List Char} (h : Stops isSpaceOrTab s) (n : Nat) (ended : Bool) :
    Line.ofText (List.replicate n ' ' ++ s) ended = ⟨List.replicate n ' ', s, n, 0, ended⟩ := by
  rw [ofText, takeWhile_run isSpaceOrTab_of_mem h, dropWhile_run isSpaceOrTab_of_mem h,
    columnAfterAll_spaces]
  simp

/-! ## Lines of a phrase -/

namespace Block

variable {φ : Type} {recognise : Recogniser φ} {quoted nested : Reader φ}

/-- A directive on a line of its own starts with a brace. -/
theorem directive?_of_head (p : Place) {l : Line} (h : l.body.head? ≠ some '{') :
    directive? recognise p l = pure none := by
  have hopen : ['{', '%'].isPrefixOf (stripRight l.body) = false := by
    rw [Bool.eq_false_iff, Ne, List.isPrefixOf_iff_prefix]
    rintro ⟨s, hs⟩
    obtain ⟨b, -, hb⟩ := exists_stripRight l.body
    rw [← hs] at hb
    rw [hb] at h
    exact h rfl
  unfold directive?
  dsimp only
  rw [hopen, if_pos (by simp)]

/-- A phrase on a line of its own is a paragraph, if no line after it goes on with it. -/
theorem readBlock_phrase {p : Place} {l : Line} (ht : IsPhrase l.body)
    (hcode : l.isCodeAt p = false) {rest : List Line}
    (hunderlined : underlined? recognise p rest = pure none)
    (hmore : paragraphLines recognise .paragraph p rest = pure 0) :
    readBlock recognise quoted nested p l rest =
      pure (.paragraph (Line.paragraphText p.indent [l]), 0) := by
  obtain ⟨c, r, hbody, hc⟩ := ht.exists_cons
  have hne : ∀ d, isPlain d = false → c ≠ d := fun d hd => ne_of_isPlain hc hd
  have hdirective : directive? recognise p l = pure none :=
    directive?_of_head p (by simp [hbody, hne '{' rfl])
  exact readBlock_running hbody (not_mem_startMarks hc) (hne '<' rfl) (hne '#' rfl)
    ht.listMark? hcode (tableAt?_of_no_bar p rest (ht.not_mem rfl (by decide))) hunderlined
    hdirective hmore

theorem readBlock_phrase_top {t : Phrase} {k : Nat} (hk : k ≤ 3) (ended : Bool) {rest : List Line}
    (hrest : EndsThere rest) :
    readBlock recognise quoted nested .top (.ofText (List.replicate k ' ' ++ t.text) ended) rest =
      pure (.paragraph t.text, 0) := by
  have hcode : Line.isCodeAt .top ⟨List.replicate k ' ', t.text, k, 0, ended⟩ = false := by
    rw [Line.isCodeAt, decide_eq_false_iff_not]
    simp only [Place.top]
    omega
  have htext : Line.paragraphText 0 [⟨List.replicate k ' ', t.text, k, 0, ended⟩] = t.text := by
    rw [Line.paragraphText, Line.textOf, Line.cut_zero]
    simpa using t.isPhrase.trim_spaces k
  rw [Line.ofText_spaces (t.isPhrase.stops isPlain_of_isSpaceOrTab)]
  refine (readBlock_phrase t.isPhrase hcode (underlined?_of_endsThere hrest _)
    (paragraphLines_of_endsThere hrest _ _)).trans ?_
  exact congrArg (fun s => pure (paragraph s, 0)) htext

theorem readBlock_paragraph {t : List Char} (ht : IsWording t) {rest : List Line}
    (hrest : EndsThere rest) :
    readBlock recognise quoted nested .top (endedLine t) rest = pure (.paragraph t, 0) :=
  readBlock_phrase_top (t := ⟨t, ht.isPhrase⟩) (Nat.zero_le 3) true hrest

end Block

end DocPress.Markdown
