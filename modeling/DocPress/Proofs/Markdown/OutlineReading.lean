import DocPress.Proofs.Markdown.Outline

/-!
# Reading outlines

However an outline is written, it is read as its blocks, if its lists are at most nine deep.
-/

set_option autoImplicit false

namespace DocPress.Markdown

namespace Block

open Directive

variable {φ : Type} {recognise : Recogniser φ} {quoted nested : Reader φ}

/-! ## Items and lists -/

/-- Nothing follows, or an item whose column and mark are as described. -/
inductive NextItem (q : Nat → Marker → Prop) : List Line → Prop
  | nil : NextItem q []
  | item {m : Marker} {t : Phrase} {k : Nat} {ended : Bool} {rest : List Line} :
      q k m → NextItem q (m.line k t ended :: rest)

theorem NextItem.mono {q q' : Nat → Marker → Prop} {rest : List Line} (h : NextItem q rest)
    (hsub : ∀ k m, q k m → q' k m) : NextItem q' rest := by
  cases h with
  | nil => exact .nil
  | item hk => exact .item (hsub _ _ hk)

def IsBefore (p : Place) (k : Nat) (_ : Marker) : Prop := (k : Int) < p.indent

/-- An item that does not join a list at a place, whose items stand at a column. -/
def EndsList (p : Place) (k : Nat) (ordered : Bool) (j : Nat) (m : Marker) : Prop :=
  j ≤ k ∧ ((j : Int) < p.indent ∨ m.ordered = !ordered)

section

variable {p : Place} {blanks tail : List Line}

theorem readBlocks_blanks (hb : ∀ l ∈ blanks, l.isEmpty = true)
    (ht : NextItem (IsBefore p) tail) (loose tight : Bool) :
    readBlocks recognise quoted nested p loose tight (blanks ++ tail) =
      pure ⟨[], blanks.length, tight⟩ := by
  induction blanks with
  | nil =>
    cases ht with
    | nil => rw [List.nil_append, readBlocks]; rfl
    | item hk =>
      rw [List.nil_append, readBlocks, Marker.isEmpty_line, isOutside_line.2 hk]
      rfl
  | cons l blanks ih =>
    obtain ⟨hl, hb⟩ := List.forall_mem_cons.1 hb
    rw [List.cons_append, readBlocks, if_pos hl, ih hb]
    rfl

theorem endsText_below {m : Marker} {k j : Nat} {ordered : Bool} {below : Lists} {ls : List Line}
    (hp : (k : Int) ≤ p.indent + 3) (hj : m.column k ≤ j) (hj' : j ≤ m.column k + 3)
    (hbelow : below.Written j ordered ls) (hb : ∀ l ∈ blanks, l.isEmpty = true)
    (ht : NextItem (fun j _ => j ≤ k) tail) :
    EndsText (inside p m k) (ls ++ (blanks ++ tail)) := by
  cases hbelow with
  | none =>
    cases blanks with
    | nil =>
      cases ht with
      | nil => exact .nil
      | @item _ _ j' _ _ hle =>
        refine .item (.inl ⟨?_, ?_⟩)
        · have := m.one_le
          simp only [inside, Marker.column]
          omega
        · simp only [inside]
          omega
    | cons l blanks => exact .blank (hb l List.mem_cons_self)
  | list hstart hitems _ =>
    obtain ⟨t, ended, more, rfl⟩ := hitems.exists_cons
    refine .item (.inr ⟨?_, ?_, ?_⟩)
    · simpa [inside] using hj
    · simp only [inside]
      omega
    · rw [hstart, startOf]
      split <;> rfl

/-- Lists below an item are read after its text; nothing between them is blank. -/
theorem head?_below {k : Nat} {ordered : Bool} {below : Lists} {ls rest : List Line}
    (h : below.Written k ordered ls) (hne : below ≠ .none) :
    ((ls ++ rest).head?.map Line.isEmpty).getD false = false := by
  obtain ⟨m, t, ended, more, rfl, -⟩ := h.exists_cons hne
  simp

theorem le_inside {m : Marker} {k j : Nat} (h : m.column k ≤ j) : (inside p m k).indent ≤ j := by
  simpa [inside] using h

theorem inside_le {m : Marker} {k j : Nat} (h : j ≤ m.column k + 3) :
    (j : Int) ≤ (inside p m k).indent + 3 := by
  simp only [inside]
  omega

/-- The text of an item and the lists below it are read up to what follows the item. -/
theorem readItem_written {level k j : Nat} {m : Marker} (t : Phrase) {ordered : Bool} (ended : Bool)
    {below : Lists} {ls : List Line} (hp : (k : Int) ≤ p.indent + 3) (hj : m.column k ≤ j)
    (hj' : j ≤ m.column k + 3) (hbelow : below.Written j ordered ls)
    (hb : ∀ l ∈ blanks, l.isEmpty = true) (ht : NextItem (fun i _ => i ≤ k) tail)
    (hread : NextItem (IsBefore (inside p m k)) tail → ∀ (quoted : Reader φ) (loose : Bool),
      (below ≠ .none → loose = false) → readBlocks recognise quoted (reader recognise (2 * level))
        (inside p m k) loose true (ls ++ (blanks ++ tail)) =
          pure ⟨below.blocks ordered, ls.length + blanks.length, true⟩) :
    readItem (reader recognise (2 * (level + 1))) p (m.listMark t) (m.line k t ended)
        (ls ++ (blanks ++ tail)) =
      pure ⟨.paragraph t.text :: below.blocks ordered, 1 + (ls.length + blanks.length), true⟩ := by
  have hbefore : NextItem (IsBefore (inside p m k)) tail := ht.mono fun i _ hi => by
    have := m.one_le
    simp only [IsBefore, inside, Marker.column]
    omega
  exact readItem_line (2 * level) (endsText_below hp hj hj' hbelow hb ht)
    (hread hbefore _ _ (head?_below hbelow))

theorem drop_read {ls blanks : List Line} (tail : List Line) {n : Nat}
    (h : n = ls.length + blanks.length) : (ls ++ (blanks ++ tail)).drop n = tail := by
  rw [h, ← List.append_assoc]
  exact List.drop_left' List.length_append

theorem nextMark?_tail {k : Nat} {m : Marker} {t : Phrase} {l : Line} {rest : List Line}
    (hp : (k : Int) ≤ p.indent + 3) (h : NextItem (EndsList p k m.ordered) (l :: rest)) :
    nextMark? recognise p (m.listMark t) l rest = pure none := by
  cases h with
  | @item m' t' j ended _ hj =>
    obtain ⟨hle, hj⟩ := hj
    by_cases hin : p.indent ≤ j
    · have hkind : m'.ordered = !m.ordered := hj.resolve_left (by omega)
      have hjoins : m.joins m' = false := by
        rw [Marker.joins, hkind]
        cases m.ordered <;> rfl
      rw [nextMark?_line (by omega) hin, hjoins]
      rfl
    · exact nextMark?_outside (isOutside_line.2 (by omega)) _ _

theorem readBlock_list {k : Nat} {m : Marker} {t : Phrase} {ended : Bool} {rest : List Line}
    {items : Items} (hp : p.indent ≤ k) (hp' : (k : Int) ≤ p.indent + 3)
    (h : readItems recognise nested p (m.listMark t) (m.line k t ended) rest = pure items) :
    readBlock recognise quoted nested p (m.line k t ended) rest =
      pure (.list m.number items.tight items.items, items.used - 1) := by
  have hquote : ((m.body t).head? == some '>') = false :=
    beq_false_of_ne (m.body_head t (by decide))
  rw [readBlock, tableAt?_line]
  dsimp only
  rw [isCodeAt_line (by omega), Marker.body_line, m.fence?_body]
  dsimp only
  rw [hquote, m.isRule_body, listMarkAt?_line (by omega) (.inl hp)]
  dsimp only
  rw [h]
  rfl

theorem readBlocks_list {k : Nat} {m : Marker} {t : Phrase} {ended : Bool} {rest : List Line}
    {items : Items} (hp : p.indent ≤ k) (hp' : (k : Int) ≤ p.indent + 3)
    (h : readItems recognise nested p (m.listMark t) (m.line k t ended) rest = pure items)
    (loose tight : Bool) :
    let empty (i : Nat) : Bool := ((m.line k t ended :: rest)[i]?.map Line.isEmpty).getD false
    readBlocks recognise quoted nested p loose tight (m.line k t ended :: rest) = (do
      let r ← readBlocks recognise quoted nested p
        (loose || empty (items.used - 1) || empty (items.used - 1 + 1)) (!loose)
        (rest.drop (items.used - 1))
      pure ⟨.list m.number items.tight items.items :: r.blocks, 1 + (items.used - 1) + r.used,
        r.tight⟩) := by
  have hout : (m.line k t ended).isOutside p = false := by
    rw [Bool.eq_false_iff, Ne, isOutside_line]
    omega
  dsimp only
  rw [readBlocks, Marker.isEmpty_line, hout, if_neg (by simp), if_neg (by simp),
    readBlock_list hp hp' h]
  rfl

theorem isEmpty_getElem? {ls : List Line} (h : ∀ l ∈ ls, l.isEmpty = false) {i : Nat}
    (hi : i < ls.length) (rest : List Line) :
    ((ls ++ rest)[i]?.map Line.isEmpty).getD false = false := by
  rw [List.getElem?_append_left hi, List.getElem?_eq_getElem hi]
  exact h _ (List.getElem_mem hi)

mutual

/-- The items of a list are read up to the next line that belongs to none of them, the blank lines
before it included. -/
theorem readItems_written : ∀ (items : Entries) {level k : Nat} {p : Place} {m : Marker}
    {ls blanks tail : List Line}, items.Written k m ls → items.depth ≤ level → p.indent ≤ k →
    (k : Int) ≤ p.indent + 3 → (∀ l ∈ blanks, l.isEmpty = true) →
    NextItem (EndsList p k m.ordered) tail → ∃ t ended more, ls = m.line k t ended :: more ∧
      readItems recognise (reader recognise (2 * level)) p (m.listMark t) (m.line k t ended)
        (more ++ (blanks ++ tail)) = pure ⟨items.blocks, true, ls.length + blanks.length⟩
  | .last t ordered below, level, k, p, m, _, blanks, tail, hw, hd, hp, hp', hb, ht => by
    obtain @⟨_, j, _, _, _, ended, _, ls, hj, hj', hbelow⟩ := hw
    obtain ⟨e, rfl⟩ := Nat.exists_eq_add_of_le' (Nat.le_trans (Nat.succ_pos _) hd)
    have hitem := readItem_written t ended hp' hj hj' hbelow hb
      (ht.mono fun _ _ hi => hi.1) fun hbefore => readBlocks_written below hbelow
        (Nat.le_of_succ_le_succ hd) (le_inside hj) (inside_le hj') hb hbefore
    refine ⟨t, ended, ls, rfl, (readItems_end hitem fun l' rest' hrest => ?_).trans ?_⟩
    · rw [drop_read tail (Nat.add_sub_cancel_left ..)] at hrest
      exact nextMark?_tail hp' (hrest ▸ ht)
    · simp only [Entries.blocks, List.length_cons]
      congr 2
      omega
  | .more t ordered below others, level, k, p, m, _, blanks, tail, hw, hd, hp, hp', hb, ht => by
    obtain _ | @⟨_, j, _, m', _, _, ended, _, _, ls, more, hj, hj', hbelow, hjoins, hothers⟩ := hw
    obtain ⟨hdepth, hdepth'⟩ := Nat.max_le.1 hd
    obtain ⟨e, rfl⟩ := Nat.exists_eq_add_of_le' (Nat.le_trans (Nat.succ_pos _) hdepth)
    have hordered : m.ordered = m'.ordered := by
      rw [Marker.joins, Bool.and_eq_true] at hjoins
      exact eq_of_beq hjoins.1
    obtain ⟨t', ended', more', rfl, hfollowing⟩ :=
      readItems_written others hothers hdepth' hp hp' hb (hordered ▸ ht)
    have hnext : NextItem (fun i _ => i ≤ k)
        (m'.line k t' ended' :: (more' ++ (blanks ++ tail))) := .item (Nat.le_refl k)
    have hitem := readItem_written t ended hp' hj hj' hbelow
      (List.forall_mem_nil _) hnext fun hbefore => readBlocks_written below hbelow
        (Nat.le_of_succ_le_succ hdepth) (le_inside hj) (inside_le hj') (List.forall_mem_nil _)
        hbefore
    refine ⟨t, ended, _, rfl, ?_⟩
    rw [List.append_assoc]
    refine
      (readItems_step hitem (drop_read _ (Nat.add_sub_cancel_left ..)) ?_ hfollowing ?_).trans ?_
    · rw [nextMark?_line (by omega) hp, hjoins]
      rfl
    · have hshown := isEmpty_getElem?
        (List.forall_mem_append.2 ⟨hbelow.isEmpty, hothers.isEmpty⟩)
        (i := 1 + (ls.length + ([] : List Line).length) - 1 - 1)
        (by simp only [List.length_cons, List.length_append, List.length_nil]; omega)
        (blanks ++ tail)
      rwa [List.append_assoc] at hshown
    · simp only [Entries.blocks, List.length_cons, List.length_append, List.length_nil]
      congr 2
      omega

theorem readBlocks_written : ∀ (lists : Lists) {level k : Nat} {p : Place} {ordered : Bool}
    {ls blanks tail : List Line}, lists.Written k ordered ls → lists.depth ≤ level →
    p.indent ≤ k → (k : Int) ≤ p.indent + 3 → (∀ l ∈ blanks, l.isEmpty = true) →
    NextItem (IsBefore p) tail → ∀ (quoted : Reader φ) (loose : Bool),
    (lists ≠ .none → loose = false) →
      readBlocks recognise quoted (reader recognise (2 * level)) p loose true
        (ls ++ (blanks ++ tail)) = pure ⟨lists.blocks ordered, ls.length + blanks.length, true⟩
  | .none, level, k, p, ordered, _, blanks, tail, hw, hd, hp, hp', hb, ht, quoted, loose, hl => by
    cases hw
    rw [List.nil_append, readBlocks_blanks hb ht]
    simp [Lists.blocks]
  | .list items others, level, k, p, ordered, _, blanks, tail, hw, hd, hp, hp', hb, ht, quoted,
      loose, hl => by
    obtain _ | @⟨_, _, m, _, _, ls, more, hstart, hitems, hothers⟩ := hw
    obtain ⟨hdepth, hdepth'⟩ := Nat.max_le.1 hd
    obtain rfl : loose = false := hl nofun
    rw [Lists.blocks, ← hstart]
    by_cases hnone : others = .none
    · subst hnone
      cases hothers
      obtain ⟨t, ended, rest, rfl, hread⟩ := readItems_written items hitems hdepth hp hp' hb
        (ht.mono fun j _ hj => ⟨by simp only [IsBefore] at hj; omega, .inl hj⟩)
      rw [List.append_nil, List.cons_append, readBlocks_list hp hp' hread]
      dsimp only
      rw [drop_read tail (by simp only [List.length_cons]; omega), ← List.nil_append tail,
        readBlocks_blanks (List.forall_mem_nil _) ht, Probed.pure_bind]
      simp only [Lists.blocks, List.length_cons, List.length_nil, Bool.not_false]
      congr 2
      omega
    · obtain ⟨m', t', ended', rest', hmore, hstart'⟩ := hothers.exists_cons hnone
      have hnext : NextItem (EndsList p k m.ordered) (more ++ (blanks ++ tail)) := by
        rw [hmore]
        refine .item ⟨Nat.le_refl k, .inr ?_⟩
        rw [Marker.ordered, Marker.ordered, hstart, hstart']
        cases ordered <;> rfl
      obtain ⟨t, ended, rest, rfl, hread⟩ :=
        readItems_written items hitems hdepth hp hp' (List.forall_mem_nil _) hnext
      have hfollowing := readBlocks_written others hothers hdepth' hp hp' hb ht quoted false
        fun _ => rfl
      have hshape : m.line k t ended :: rest ++ more ++ (blanks ++ tail) =
          m.line k t ended :: (rest ++ ([] ++ (more ++ (blanks ++ tail)))) := by simp
      have hshown : ∀ i < (m.line k t ended :: rest ++ more).length, ((m.line k t ended :: (rest ++
          ([] ++ (more ++ (blanks ++ tail)))))[i]?.map Line.isEmpty).getD false = false :=
        fun i hi => hshape ▸ isEmpty_getElem?
          (List.forall_mem_append.2 ⟨hitems.isEmpty, hothers.isEmpty⟩) hi (blanks ++ tail)
      rw [hshape, readBlocks_list hp hp' hread]
      dsimp only
      rw [hshown _ (by simp only [List.length_cons, List.length_append, List.length_nil]; omega),
        hshown _ (by simp [hmore]),
        drop_read _ (by simp only [List.length_cons]; omega), Bool.false_or, Bool.false_or,
        Bool.not_false, hfollowing, Probed.pure_bind]
      simp only [List.length_cons, List.length_nil, List.length_append]
      congr 2
      omega

end

end

/-! ## Documents -/

theorem ordered_of_startOf {m : Marker} {ordered : Bool} (h : m.number = startOf ordered) :
    m.ordered = ordered := by
  rw [Marker.ordered, h]
  cases ordered <;> rfl

theorem nextItem_of_spread {k : Nat} {ordered : Bool} {lists : Lists} {ls : List Line}
    (h : lists.Spread k (!ordered) ls) : NextItem (EndsList .top k ordered) ls := by
  cases h with
  | none => exact .nil
  | list hstart hitems _ _ =>
    obtain ⟨t, ended, more, rfl⟩ := hitems.exists_cons
    exact .item ⟨Nat.le_refl k, .inr (ordered_of_startOf hstart)⟩

theorem reads_spread {level k : Nat} (hk : k ≤ 3) {ordered : Bool} {lists : Lists} {ls : List Line}
    (h : lists.Spread k ordered ls) (hd : lists.depth ≤ level) :
    Reads recognise quoted (reader recognise (2 * level)) ls (lists.blocks ordered) := by
  induction h with
  | none => exact reads_nil
  | @list ordered m items others ls blanks more hstart hitems hb hothers ih =>
    obtain ⟨hdepth, hdepth'⟩ := Nat.max_le.1 hd
    have hp : Place.top.indent ≤ k := Int.natCast_nonneg k
    have hp' : (k : Int) ≤ Place.top.indent + 3 := by
      simp only [Place.top]
      omega
    obtain ⟨t, ended, rest, rfl, hread⟩ := readItems_written items hitems hdepth hp hp' hb
      (nextItem_of_spread (ordered_of_startOf hstart ▸ hothers))
    have hout : (m.line k t ended).isOutside .top = false := by
      rw [Bool.eq_false_iff, Ne, isOutside_line]
      omega
    rw [Lists.blocks, ← hstart, List.cons_append]
    refine .block (Marker.isEmpty_line ..) hout (readBlock_list hp hp' hread) ?_
    rw [drop_read more (by simp only [List.length_cons]; omega)]
    exact ih hdepth'

theorem reads_written {level : Nat} {o : Outline} {ls : List Line} (h : o.Written ls)
    (hd : o.lists.depth ≤ level) :
    Reads recognise quoted (reader recognise (2 * level)) ls o.blocks := by
  induction h with
  | blank hl _ ih => exact (ih hd).blank hl
  | @paragraph t ts ordered ended lists k ls hk hrest _ ih =>
    have hline := Line.ofText_spaces (t.isPhrase.stops isPlain_of_isSpaceOrTab) k ended
    refine .block ?_ ?_ (readBlock_phrase_top hk ended hrest) (ih hd)
    · rw [hline]
      simpa [Line.isEmpty] using t.isPhrase.ne_nil
    · rw [hline, Line.isOutside, decide_eq_false_iff_not]
      simp only [Place.top]
      omega
  | lists hk hlists => exact reads_spread hk hlists hd

/-- An outline whose lists are at most nine deep is read as its blocks, however it is written. -/
theorem ofLines_written {o : Outline} {ls : List Line} (h : o.Written ls)
    (hd : o.lists.depth ≤ 9) : ofLines recognise ls = pure o.blocks := by
  have hreads : Reads recognise (reader recognise 19) (reader recognise (2 * 9)) ls o.blocks :=
    reads_written h hd
  obtain ⟨r, hr, hblocks⟩ := hreads false true
  rw [ofLines, maxLevel, reader, hr, ← hblocks]
  rfl

end Block

end DocPress.Markdown
