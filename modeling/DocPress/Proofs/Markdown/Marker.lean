import DocPress.Proofs.Markdown.Phrase

/-!
# Marks of list items

An item is a bullet or a number, spaces, and a phrase. Its line starts no block but the item, ends
the paragraph of an item before it, and its text is read at the column where it stands.
-/

set_option autoImplicit false

namespace DocPress.Markdown

open Text Directive

/-! ## Lines that are cut -/

/-- What stands behind the marks of a line is what is left when the line is cut there. -/
theorem Line.cutFrom_lead (base : Nat) {lead s : List Char} (h : '\t' ∉ lead) {marked : Nat}
    (hmarked : lead.length ≤ marked) (column : Int) :
    Line.cutFrom base (column + lead.length) marked column (lead ++ s) = s := by
  induction lead generalizing marked column with
  | nil => cases s <;> simp [cutFrom]
  | cons c lead ih =>
    simp only [List.mem_cons, not_or] at h
    simp only [List.length_cons] at hmarked ⊢
    have hnext : columnAfter base column c = column + 1 := if_neg (Ne.symm h.1)
    have hlimit : column + ((lead.length + 1 : Nat) : Int) = column + 1 + lead.length := by omega
    rw [List.cons_append, cutFrom, if_neg (by omega), hnext, if_pos (by omega : 0 < marked),
      ite_self, hlimit]
    exact ih h.2 (by omega) _

/-! ## Marks of items -/

/-- The number, the last character and the text of a mark: a bullet, or digits with a dot or a
bracket behind them. -/
inductive IsMarker : Option Nat → Char → List Char → Prop
  | bullet {c : Char} : c ∈ ['*', '-', '+'] → IsMarker none c [c]
  | number {ds : List Char} {d : Char} : ds ≠ [] → (∀ c ∈ ds, c.isDigit = true) →
      ds.length ≤ maxListDigits → d ∈ ['.', ')'] → IsMarker (some (numberOf ds)) d (ds ++ [d])

/-- The mark of an item and the number of spaces behind it. -/
structure Marker where
  number : Option Nat
  mark : Char
  text : List Char
  gap : Nat
  isMarker : IsMarker number mark text
  one_le : 1 ≤ gap
  le_four : gap ≤ 4

namespace Marker

def ordered (m : Marker) : Bool := m.number.isSome

def joins (m m' : Marker) : Bool := m.ordered == m'.ordered && m.mark == m'.mark

def column (m : Marker) (k : Nat) : Nat := k + m.text.length + m.gap

def body (m : Marker) (t : Phrase) : List Char :=
  m.text ++ (List.replicate m.gap ' ' ++ t.text)

def line (m : Marker) (k : Nat) (t : Phrase) (ended : Bool) : Line :=
  .ofText (List.replicate k ' ' ++ m.body t) ended

end Marker

namespace IsMarker

variable {number : Option Nat} {mark : Char} {s : List Char}

theorem mem (h : IsMarker number mark s) {c : Char} (hc : c ∈ s) :
    c ∈ ['*', '-', '+', '.', ')'] ∨ c.isDigit = true := by
  cases h with
  | bullet hmark =>
    obtain rfl := List.mem_singleton.1 hc
    exact .inl (List.mem_append_left ['.', ')'] hmark)
  | number _ hdigits _ hd =>
    rcases List.mem_append.1 hc with hc | hc
    · exact .inr (hdigits c hc)
    · obtain rfl := List.mem_singleton.1 hc
      exact .inl (List.mem_append_right ['*', '-', '+'] hd)

theorem exists_cons (h : IsMarker number mark s) :
    ∃ c r, s = c :: r ∧ (c ∈ ['*', '-', '+'] ∨ c.isDigit = true) := by
  cases h with
  | bullet hmark => exact ⟨mark, [], rfl, .inl hmark⟩
  | @number ds d hne hdigits _ _ =>
    obtain ⟨c, r, rfl⟩ := List.exists_cons_of_ne_nil hne
    exact ⟨c, r ++ [mark], rfl, .inr (hdigits c List.mem_cons_self)⟩

theorem listMark? (h : IsMarker number mark s) {rest : List Char} (hrest : endsWord rest = true) :
    listMark? (s ++ rest) = some ⟨number, mark, s, rest⟩ := by
  cases h with
  | bullet hmark =>
    have hbullet : (mark == '*' || mark == '-' || mark == '+') = true := by
      simpa [or_assoc] using hmark
    rw [List.singleton_append, Markdown.listMark?, if_pos hbullet, if_pos hrest]
  | @number ds d hne hdigits hlength hd =>
    have hmark : (mark == ')' || mark == '.') = true := by simpa [or_comm] using hd
    have hstop : Stops Char.isDigit (mark :: rest) := by
      simp only [List.mem_cons, List.not_mem_nil, or_false] at hd
      rcases hd with rfl | rfl <;> rfl
    have hpos : 1 ≤ ds.length := List.length_pos_iff.2 hne
    obtain ⟨c, r, hds⟩ := List.exists_cons_of_ne_nil hne
    have hbullet : (c == '*' || c == '-' || c == '+') = false := by
      have hc : c.isDigit = true := hdigits c (by simp [hds])
      have hne : ∀ d : Char, d.isDigit = false → (c == d) = false := fun d hd =>
        beq_false_of_ne fun hcd => by rw [← hcd, hc] at hd; cases hd
      rw [hne '*' rfl, hne '-' rfl, hne '+' rfl]
      rfl
    have htake := takeWhile_run hdigits hstop
    have hdrop := dropWhile_run hdigits hstop
    rw [List.append_assoc, List.singleton_append]
    rw [Markdown.listMark?.eq_def, htake, hdrop]
    rw [hds, List.cons_append]
    dsimp only
    rw [if_neg (by simp [hbullet]), ← hds, hmark, hrest]
    simp [hpos, hlength]

end IsMarker

namespace Marker

variable (m : Marker) (t : Phrase)

def listMark : ListMark := ⟨m.number, m.mark, m.text, List.replicate m.gap ' ' ++ t.text⟩

theorem listMark?_body : listMark? (m.body t) = some (m.listMark t) := by
  refine m.isMarker.listMark? ?_
  obtain ⟨n, hn⟩ := Nat.exists_eq_add_of_le' m.one_le
  rw [hn, List.replicate_succ, List.cons_append]
  rfl

theorem endsParagraph (h : m.number.getD 1 = 1) : (m.listMark t).endsParagraph = true := by
  obtain ⟨c, r, ht, hc⟩ := t.isPhrase.exists_cons
  have hspace : isSpaceOrTab c = false :=
    Bool.eq_false_iff.2 fun hs => ne_of_isPlain hc (isPlain_of_isSpaceOrTab c hs) rfl
  simp [ListMark.endsParagraph, listMark, h, ht, hspace]

theorem body_eq : ∃ c r, m.body t = c :: r ∧ (c ∈ ['*', '-', '+'] ∨ c.isDigit = true) := by
  obtain ⟨c, r, hcr, hc⟩ := m.isMarker.exists_cons
  exact ⟨c, _, by rw [body, hcr, List.cons_append], hc⟩

/-- What starts the line of an item starts no block of another kind, and is not white space. -/
theorem body_head {d : Char} (hd : d ∉ ['*', '-', '+'] ∧ d.isDigit = false) :
    (m.body t).head? ≠ some d := by
  obtain ⟨c, r, hcr, hc⟩ := m.body_eq t
  rw [hcr]
  rintro ⟨rfl⟩
  rcases hc with hc | hc
  · exact hd.1 hc
  · rw [hd.2] at hc
    cases hc

theorem line_eq (k : Nat) (ended : Bool) :
    m.line k t ended = ⟨List.replicate k ' ', m.body t, k, 0, ended⟩ := by
  refine Line.ofText_spaces ?_ k ended
  have hspace := m.body_head t (d := ' ') (by decide)
  have htab := m.body_head t (d := '\t') (by decide)
  obtain ⟨c, r, hcr, -⟩ := m.body_eq t
  rw [hcr] at hspace htab ⊢
  simp_all [isSpaceOrTab]

@[simp] theorem body_line (k : Nat) (ended : Bool) : (m.line k t ended).body = m.body t := by
  rw [line_eq]

@[simp] theorem indent_line (k : Nat) (ended : Bool) : (m.line k t ended).indent = k := by
  rw [line_eq]

@[simp] theorem isEmpty_line (k : Nat) (ended : Bool) : (m.line k t ended).isEmpty = false := by
  obtain ⟨c, r, hcr, -⟩ := m.body_eq t
  rw [Line.isEmpty, body_line, hcr]
  rfl

theorem bar_not_mem_body : '|' ∉ m.body t := by
  simp only [body, List.mem_append, not_or]
  refine ⟨fun hc => ?_, fun hc => ?_, t.isPhrase.not_mem rfl (by decide)⟩
  · rcases m.isMarker.mem hc with h | h <;> exact absurd h (by decide)
  · exact absurd (List.eq_of_mem_replicate hc) (by decide)

theorem fence?_body : fence? (m.body t) = none := by
  have htilde := m.body_head t (d := '~') (by decide)
  have htick := m.body_head t (d := '\x60') (by decide)
  obtain ⟨c, r, hcr, -⟩ := m.body_eq t
  rw [hcr] at htilde htick ⊢
  simp_all [fence?]

/-- The text behind a mark holds something else than the mark and spaces. -/
theorem exists_mem_body : ∃ d ∈ m.body t, isPlain d = true := by
  obtain ⟨d, r, hdr, hd⟩ := t.isPhrase.exists_cons
  exact ⟨d, by simp [body, hdr], hd⟩

theorem isRule_body : isRule (m.body t) = false := by
  obtain ⟨d, hmem, hd⟩ := m.exists_mem_body t
  unfold isRule
  split
  · rfl
  · next c r hcr =>
    rw [Bool.and_eq_false_iff, Bool.and_eq_false_iff]
    by_cases hc : (c == '*' || c == '-' || c == '_') = true
    · have hne : d ≠ c := ne_of_isPlain hd (by
        simp only [Bool.or_eq_true, beq_iff_eq] at hc
        rcases hc with (rfl | rfl) | rfl <;> rfl)
      have hspace : isSpaceOrTab d = false :=
        Bool.eq_false_iff.2 fun hs => ne_of_isPlain hd (isPlain_of_isSpaceOrTab d hs) rfl
      refine .inl (.inr (List.all_eq_false.2 ⟨d, hmem, ?_⟩))
      simp [hne, hspace]
    · exact .inl (.inl (by simpa using hc))

theorem underline?_body : underline? (m.body t) = none := by
  obtain ⟨d, hmem, hd⟩ := m.exists_mem_body t
  unfold underline?
  split
  · rfl
  · next c r hcr =>
    refine if_neg fun h => ?_
    rw [Bool.and_eq_true] at h
    have hne : (d == c) = false := beq_false_of_ne (ne_of_isPlain hd (by
      simp only [Bool.or_eq_true, beq_iff_eq] at h
      rcases h.1 with rfl | rfl <;> rfl))
    have hrest : d ∈ (m.body t).dropWhile (· == c) := by
      rw [← List.takeWhile_append_dropWhile (p := (· == c)) (l := m.body t)] at hmem
      exact (List.mem_append.1 hmem).resolve_left fun htake => by
        rw [List.mem_takeWhile_imp htake] at hne
        cases hne
    exact ne_of_isPlain hd (isPlain_of_isSpaceOrTab d (List.all_eq_true.1 h.2 d hrest)) rfl

end Marker

/-! ## What the line of an item starts and ends -/

namespace Block

variable {φ : Type} {recognise : Recogniser φ} {quoted nested : Reader φ}

section

variable {p : Place} {m : Marker} {t : Phrase} {k : Nat} {ended : Bool}

theorem isCodeAt_line (h : (k : Int) < p.indent + 4) : (m.line k t ended).isCodeAt p = false := by
  simp only [Line.isCodeAt, Marker.indent_line, decide_eq_false_iff_not]
  omega

theorem isOutside_line : (m.line k t ended).isOutside p = true ↔ (k : Int) < p.indent := by
  simp [Line.isOutside]

theorem listMarkAt?_line (h : (k : Int) < p.indent + 4)
    (hout : p.indent ≤ k ∨ (k : Int) < p.list + 4) :
    listMarkAt? p (m.line k t ended) = some (m.listMark t) := by
  have hnot : (decide (0 ≤ p.list) && decide (4 ≤ (m.line k t ended).indent - p.list) &&
      (m.line k t ended).isOutside p) = false := by
    simp only [Line.isOutside, Marker.indent_line, Bool.and_eq_false_iff, decide_eq_false_iff_not]
    omega
  rw [listMarkAt?, isCodeAt_line h, hnot, Marker.body_line, m.listMark?_body]
  rfl

theorem tableAt?_line (rest : List Line) : tableAt? p (m.line k t ended) rest = none :=
  tableAt?_of_no_bar p rest (by simpa using m.bar_not_mem_body t)

theorem directive?_line : directive? recognise p (m.line k t ended) = pure none :=
  directive?_of_head p (by simpa using m.body_head t (d := '{') (by decide))

/-- The line of an item does not end the list before it. -/
theorem interrupts_list (h : (k : Int) < p.indent + 4) (hin : p.indent ≤ k) (rest : List Line) :
    interrupts recognise .list p (m.line k t ended) rest = pure false := by
  have hquote : ((m.body t).head? == some '>') = false :=
    beq_false_of_ne (m.body_head t (by decide))
  have hmark : endsByMark .list p (m.line k t ended) rest = false := by
    rw [endsByMark, isCodeAt_line h, listMarkAt?_line h (.inl hin), Marker.body_line,
      m.fence?_body, hquote, m.isRule_body]
    rfl
  rw [interrupts, hmark, directive?_line]
  rfl

theorem nextMark?_outside {l : Line} (h : l.isOutside p = true) (mark : ListMark)
    (rest : List Line) : nextMark? recognise p mark l rest = pure none := by
  rw [nextMark?, h]
  rfl

/-- The item of a line joins the list before it exactly if its mark does. -/
theorem nextMark?_line {m' : Marker} {t' : Phrase} (h : (k : Int) < p.indent + 4)
    (hin : p.indent ≤ k) (rest : List Line) :
    nextMark? recognise p (m'.listMark t') (m.line k t ended) rest =
      pure (if m'.joins m then some (m.listMark t) else none) := by
  have hout : (m.line k t ended).isOutside p = false := by
    rw [Bool.eq_false_iff, Ne, isOutside_line]
    omega
  rw [nextMark?, hout, isCodeAt_line h, interrupts_list h hin, Marker.body_line, m.listMark?_body]
  rfl

end

/-- What a paragraph at a place does not go on with: nothing, a blank line, or an item that stands
outside of the place or may end a paragraph. -/
inductive EndsText (p : Place) : List Line → Prop
  | nil : EndsText p []
  | blank {l : Line} {rest : List Line} : l.isEmpty = true → EndsText p (l :: rest)
  | item {m : Marker} {t : Phrase} {k : Nat} {ended : Bool} {rest : List Line} :
      ((k : Int) < p.indent ∧ (k : Int) < p.list + 4 ∨
        p.indent ≤ k ∧ (k : Int) < p.indent + 4 ∧ m.number.getD 1 = 1) →
      EndsText p (m.line k t ended :: rest)

namespace EndsText

variable {p : Place} {rest : List Line}

theorem interrupts {m : Marker} {t : Phrase} {k : Nat} {ended : Bool}
    (h : (k : Int) < p.indent ∧ (k : Int) < p.list + 4 ∨
      p.indent ≤ k ∧ (k : Int) < p.indent + 4 ∧ m.number.getD 1 = 1) (rest : List Line) :
    Block.interrupts recognise .paragraph p (m.line k t ended) rest = pure true := by
  have hends : Host.paragraph.endsAtList p (m.line k t ended) (m.listMark t) = true := by
    rw [Host.endsAtList, Bool.or_eq_true, isOutside_line]
    exact h.imp And.left fun h => m.endsParagraph t h.2.2
  have hmark : listMarkAt? p (m.line k t ended) = some (m.listMark t) :=
    listMarkAt?_line (by omega) (by omega)
  rw [Block.interrupts, endsByMark, hmark, Option.map_some, Option.getD_some, hends, Bool.or_true]
  rfl

theorem underlined? (h : EndsText p rest) : underlined? recognise p rest = pure none := by
  cases h with
  | nil => rfl
  | blank hl => rw [Block.underlined?, if_pos hl]
  | @item m t k ended rest hk =>
    have hnone : (if (m.line k t ended).isOutside p then none
        else underline? (m.line k t ended).body) = none := by
      rw [Marker.body_line, m.underline?_body, ite_self]
    have hpos : ¬(m.line k t ended).indent < 0 := by
      rw [Marker.indent_line]
      omega
    rw [Block.underlined?, Marker.isEmpty_line, isCodeAt_line (by omega), hnone]
    dsimp only
    rw [if_neg hpos, interrupts hk]
    rfl

theorem paragraphLines (h : EndsText p rest) :
    paragraphLines recognise .paragraph p rest = pure 0 := by
  cases h with
  | nil => rfl
  | blank hl => rw [Block.paragraphLines, if_pos hl]
  | @item m t k ended rest hk =>
    have hnot : ((m.line k t ended).isCodeAt p || decide ((m.line k t ended).indent < 0)) =
        false := by
      rw [isCodeAt_line (by omega), Marker.indent_line, Bool.false_or, decide_eq_false_iff_not]
      omega
    rw [Block.paragraphLines, Marker.isEmpty_line, hnot, interrupts hk]
    rfl

end EndsText

/-! ## The content of an item -/

section

variable {p : Place} {m : Marker} {t : Phrase} {k : Nat} {ended : Bool}

def inside (p : Place) (m : Marker) (k : Nat) : Place := ⟨m.column k, p.indent⟩

def firstLine (m : Marker) (t : Phrase) (k : Nat) (ended : Bool) : Line :=
  ⟨List.replicate k ' ' ++ m.text ++ List.replicate m.gap ' ', t.text, m.column k, 0, ended⟩

theorem itemStart_line : itemStart p (m.line k t ended) (m.listMark t) =
    (firstLine m t k ended, inside p m k) := by
  have hstops : Stops isSpaceOrTab t.text := t.isPhrase.stops isPlain_of_isSpaceOrTab
  have htake := takeWhile_run (isSpaceOrTab_of_mem (n := m.gap)) hstops
  have hdrop := dropWhile_run (isSpaceOrTab_of_mem (n := m.gap)) hstops
  have hne : t.text.isEmpty = false := by simpa using t.isPhrase.ne_nil
  have hwidth : (k : Int) + m.text.length + m.gap - ((k : Int) + m.text.length) = m.gap := by
    omega
  have hgap : ¬(4 : Int) < m.gap := by
    have := m.le_four
    omega
  have hcolumn : (m.column k : Int) = (k : Int) + m.text.length + m.gap := by
    simp [Marker.column]
  simp only [itemStart, Marker.listMark, Marker.line_eq, htake, hdrop, columnAfterAll_spaces, hne,
    Bool.false_or, decide_eq_true_eq, hwidth, if_neg hgap, firstLine, inside, hcolumn]

theorem paragraphText_firstLine :
    Line.paragraphText (m.column k) [firstLine m t k ended] = t.text := by
  have htab : '\t' ∉ List.replicate k ' ' ++ m.text ++ List.replicate m.gap ' ' := by
    simp only [List.mem_append, not_or]
    refine ⟨⟨fun hc => ?_, fun hc => ?_⟩, fun hc => ?_⟩
    · exact absurd (List.eq_of_mem_replicate hc) (by decide)
    · rcases m.isMarker.mem hc with h | h <;> exact absurd h (by decide)
    · exact absurd (List.eq_of_mem_replicate hc) (by decide)
  have hlength : ((m.column k : Nat) : Int) =
      0 + (List.replicate k ' ' ++ m.text ++ List.replicate m.gap ' ').length := by
    simp only [Marker.column, List.length_append, List.length_replicate]
    omega
  have hcut : Line.cut (m.column k) (firstLine m t k ended) = t.text := by
    rw [Line.cut, firstLine, hlength]
    exact Line.cutFrom_lead 0 htab (Nat.le_refl _) 0
  have htrim := t.isPhrase.trim_spaces 0
  rw [Line.paragraphText, Line.textOf, hcut]
  simpa using htrim

/-- The text of an item is read first, and after it whatever stands below it. -/
theorem readItem_line (level : Nat) {rest : List Line} (hends : EndsText (inside p m k) rest)
    {r : Reading} (hrest : readBlocks recognise (reader recognise (level + 1))
      (reader recognise level) (inside p m k) ((rest.head?.map Line.isEmpty).getD false) true rest =
      pure r) :
    readItem (reader recognise (level + 2)) p (m.listMark t) (m.line k t ended) rest =
      pure ⟨.paragraph t.text :: r.blocks, 1 + r.used, r.tight⟩ := by
  have hne : (firstLine m t k ended).isEmpty = false := by
    simpa [Line.isEmpty, firstLine] using t.isPhrase.ne_nil
  have hout : (firstLine m t k ended).isOutside (inside p m k) = false := by
    simp [Line.isOutside, firstLine, inside]
  have hcode : (firstLine m t k ended).isCodeAt (inside p m k) = false := by
    simp [Line.isCodeAt, firstLine, inside]
  have htext : readBlock recognise (reader recognise (level + 1)) (reader recognise level)
      (inside p m k) (firstLine m t k ended) rest = pure (.paragraph t.text, 0) := by
    rw [readBlock_phrase (l := firstLine m t k ended) t.isPhrase hcode hends.underlined?
      hends.paragraphLines]
    exact congrArg (fun s => pure (paragraph s, 0)) paragraphText_firstLine
  have hflag : (((firstLine m t k ended :: rest)[0]?.map Line.isEmpty).getD false ||
      ((firstLine m t k ended :: rest)[0 + 1]?.map Line.isEmpty).getD false) =
      (rest.head?.map Line.isEmpty).getD false := by
    cases rest <;> simp [hne]
  rw [readItem, itemStart_line]
  dsimp only
  rw [hne, Bool.false_and, if_neg (by simp), reader, readBlocks, hne, hout, if_neg (by simp),
    if_neg (by simp), htext, Probed.pure_bind]
  dsimp only
  rw [Bool.false_or, hflag, List.drop_zero, Bool.not_false, hrest]
  rfl

end

/-! ## One item after another -/

theorem readItems_end {p : Place} {m : ListMark} {l : Line} {rest : List Line} {item : Reading}
    (hitem : readItem nested p m l rest = pure item)
    (hend : ∀ l' rest', rest.drop (item.used - 1) = l' :: rest' →
      nextMark? recognise p m l' rest' = pure none) :
    readItems recognise nested p m l rest =
      pure ⟨[item.blocks], item.tight, 1 + (item.used - 1)⟩ := by
  rw [readItems, hitem, Probed.pure_bind]
  dsimp only
  split
  · rfl
  · next l' rest' h =>
    rw [hend l' rest' h]
    rfl

theorem readItems_step {p : Place} {m m' : ListMark} {l l' : Line} {rest rest' : List Line}
    {item : Reading} {following : Items} (hitem : readItem nested p m l rest = pure item)
    (hrest : rest.drop (item.used - 1) = l' :: rest')
    (hnext : nextMark? recognise p m l' rest' = pure (some m'))
    (hfollowing : readItems recognise nested p m' l' rest' = pure following)
    (hblank : (rest[item.used - 1 - 1]?.map Line.isEmpty).getD false = false) :
    readItems recognise nested p m l rest = pure ⟨item.blocks :: following.items,
      item.tight && following.tight, 1 + (item.used - 1) + following.used⟩ := by
  rw [readItems, hitem, Probed.pure_bind]
  dsimp only
  split
  · next h =>
    rw [hrest] at h
    cases h
  · next l'' rest'' h =>
    rw [hrest] at h
    obtain ⟨rfl, rfl⟩ := List.cons.inj h
    rw [hnext, Probed.pure_bind]
    dsimp only
    rw [hfollowing, hblank]
    simp [Probed.pure_bind]

end Block

end DocPress.Markdown
