import DocPress.Proofs.Compilation.Code
import DocPress.Proofs.Compilation.OutlinePrinting

/-!
# Printed outlines

The lines that an outline is printed as are one of the ways to write it: with hyphens, with numbers
in order and a dot behind them, and with three columns for each list around an item. Only lists
below an item whose number has more than one digit would stand too far out.
-/

set_option autoImplicit false

namespace DocPress.Markdown

open Text Element Compilation

/-! ## What is printed is written -/

/-- Whether the number of the next item has at most nine digits, and only one if there are lists
below the item. -/
def HasRoom (f : ListFrame) (below : Lists) : Prop :=
  f.numbered = true → f.count + 1 < 1000000000 ∧ (f.count + 1 < 10 ∨ below = .none)

mutual

def Entries.Fits (f : ListFrame) : Entries → Prop
  | .last _ ordered below => HasRoom f below ∧ below.Fits ordered
  | .more _ ordered below others => HasRoom f below ∧ below.Fits ordered ∧ others.Fits f.next.2

def Lists.Fits (ordered : Bool) : Lists → Prop
  | .none => True
  | .list items others => items.Fits ⟨ordered, 0⟩ ∧ others.Fits !ordered

end

structure Marker.Marks (m : Marker) (f : ListFrame) : Prop where
  ordered : m.ordered = f.numbered
  mark : m.mark = if f.numbered then '.' else '-'
  text : m.text = f.next.1
  gap : m.gap = 1

theorem exists_marks (f : ListFrame) (h : f.numbered = true → f.count + 1 < 1000000000) :
    ∃ m : Marker, m.Marks f ∧ (f.count = 0 → m.number = startOf f.numbered) := by
  obtain ⟨numbered, count⟩ := f
  cases numbered with
  | false =>
    exact ⟨⟨none, '-', ['-'], 1, .bullet (by simp), Nat.le_refl 1, by decide⟩,
      ⟨rfl, rfl, rfl, rfl⟩, fun _ => rfl⟩
  | true =>
    have hlength : (Nat.toDigits 10 (count + 1)).length ≤ maxListDigits :=
      (Nat.length_toDigits_le_iff (by decide) (by decide)).2 (h rfl)
    have hdigits : ∀ c ∈ Nat.toDigits 10 (count + 1), c.isDigit = true := fun c hc =>
      Nat.isDigit_of_mem_toDigits (by decide) (by decide) hc
    refine ⟨⟨_, '.', _, 1, .number Nat.toDigits_ne_nil hdigits hlength (by simp), Nat.le_refl 1,
      by decide⟩, ⟨rfl, rfl, rfl, rfl⟩, ?_⟩
    rintro rfl
    rfl

theorem Entries.Fits.first {items : Entries} {f : ListFrame} (h : items.Fits f) :
    f.numbered = true → f.count + 1 < 1000000000 := by
  cases items with
  | last => exact fun hf => (h.1 hf).1
  | more => exact fun hf => (h.1 hf).1

theorem numbered_next (f : ListFrame) : f.next.2.numbered = f.numbered := by
  rw [ListFrame.next]
  split <;> rfl

theorem length_next_le {f : ListFrame} (h : f.numbered = true → f.count + 1 < 10) :
    f.next.1.length ≤ 2 := by
  rw [ListFrame.next]
  split
  · next hf =>
    have hdigits := (Nat.length_toDigits_le_iff (b := 10) (k := 1) (by decide) (by decide)).2 (h hf)
    simp only [List.length_append, List.length_singleton]
    omega
  · simp

namespace Marker.Marks

variable {m m' : Marker} {f : ListFrame}

theorem line_eq (h : m.Marks f) (depth : Nat) (t : Phrase) :
    endedLine (itemLine depth f t) = m.line (3 * depth) t true := by
  rw [Marker.line, Marker.body, h.text, h.gap]
  rfl

theorem joins (h : m.Marks f) (h' : m'.Marks f.next.2) : m.joins m' = true := by
  rw [Marker.joins, h.ordered, h'.ordered, h.mark, h'.mark, numbered_next]
  simp

/-- Lists below an item are printed at a column of its content, if it has room for its number. -/
theorem exists_column (h : m.Marks f) {below : Lists} (hroom : HasRoom f below) (depth : Nat) :
    ∃ j, m.column (3 * depth) ≤ j ∧ j ≤ m.column (3 * depth) + 3 ∧
      (below = .none ∨ j = 3 * (depth + 1)) := by
  by_cases hnone : below = .none
  · exact ⟨_, Nat.le_refl _, Nat.le_add_right _ _, .inl hnone⟩
  · have hshort := length_next_le fun hf => (hroom hf).2.resolve_right hnone
    have hpos : 0 < f.next.1.length := List.length_pos_iff.2 (next_ne_nil f)
    refine ⟨3 * (depth + 1), ?_, ?_, .inr rfl⟩ <;>
    · rw [Marker.column, h.text, h.gap]
      omega

end Marker.Marks

mutual

theorem written_entries : ∀ (items : Entries) {depth : Nat} {f : ListFrame} {m : Marker},
    items.Fits f → m.Marks f →
      items.Written (3 * depth) m ((items.lines depth f).map endedLine)
  | .last t ordered below, depth, f, m, hfits, hm => by
    obtain ⟨hroom, hbelow⟩ := hfits
    obtain ⟨j, hj, hj', hcolumn⟩ := hm.exists_column hroom depth
    rw [Entries.lines, List.map_cons, hm.line_eq]
    refine .last hj hj' ?_
    rcases hcolumn with rfl | rfl
    · exact .none
    · exact written_lists below hbelow
  | .more t ordered below others, depth, f, m, hfits, hm => by
    obtain ⟨hroom, hbelow, hothers⟩ := hfits
    obtain ⟨j, hj, hj', hcolumn⟩ := hm.exists_column hroom depth
    obtain ⟨m', hm', -⟩ := exists_marks f.next.2 hothers.first
    rw [Entries.lines, List.map_cons, List.map_append, hm.line_eq]
    refine .more hj hj' ?_ (hm.joins hm') (written_entries others hothers hm')
    rcases hcolumn with rfl | rfl
    · exact .none
    · exact written_lists below hbelow

theorem written_lists : ∀ (lists : Lists) {depth : Nat} {ordered : Bool}, lists.Fits ordered →
    lists.Written (3 * depth) ordered ((lists.lines depth ordered).map endedLine)
  | .none, _, _, _ => .none
  | .list items others, depth, ordered, hfits => by
    obtain ⟨m, hm, hstart⟩ := exists_marks ⟨ordered, 0⟩ hfits.1.first
    rw [Lists.lines, List.map_append]
    exact .list (hstart rfl) (written_entries items hfits.1 hm) (written_lists others hfits.2)

end

theorem Lists.Written.spread {lists : Lists} {k : Nat} {ordered : Bool} {ls : List Line}
    (h : lists.Written k ordered ls) : lists.Spread k ordered ls := by
  cases lists with
  | none =>
    cases h
    exact .none
  | list items others =>
    cases h with
    | list hstart hitems hothers =>
      exact .list hstart hitems (List.forall_mem_nil _) hothers.spread

theorem written_outline {o : Outline} (h : o.lists.Fits o.ordered) :
    o.Written (o.lines.map endedLine) := by
  obtain ⟨ts, ordered, lists⟩ := o
  induction ts with
  | nil => exact .lists (k := 3 * 0) (Nat.zero_le 3) (written_lists lists h).spread
  | cons t ts ih =>
    have hblank : Block.EndsThere (endedLine [] :: (Outline.lines ⟨ts, ordered, lists⟩).map
        endedLine) := fun l hl => by
      obtain rfl := Option.some.inj hl
      rfl
    rw [Outline.lines, Outline.linesBefore]
    split
    · next hlast =>
      rw [Bool.and_eq_true, List.isEmpty_iff, List.isEmpty_iff] at hlast
      obtain ⟨rfl, hnil⟩ := hlast
      have hrest := ih h
      rw [Outline.lines, Outline.linesBefore, hnil] at hrest
      exact .paragraph (k := 0) (Nat.zero_le 3) (by simp [Block.EndsThere]) hrest
    · exact .paragraph (k := 0) (Nat.zero_le 3) hblank (.blank rfl (ih h))

/-! ## What is printed is read -/

theorem mem_itemLine (depth : Nat) (f : ListFrame) (t : Phrase) :
    ∀ c ∈ itemLine depth f t, isPlain c = true ∨ c ∈ [' ', '-', '.'] := by
  refine List.forall_mem_append.2 ⟨fun c hc => ?_, List.forall_mem_append.2 ⟨fun c hc => ?_,
    List.forall_mem_cons.2 ⟨by simp, fun c hc => ?_⟩⟩⟩
  · simp [List.eq_of_mem_replicate hc]
  · exact (mem_next f c hc).imp_right fun h => by simpa using .inr h
  · exact (t.isPhrase.mem c hc).imp_right fun h => by simp [h]

theorem mem_outline_lines (o : Outline) :
    ∀ l ∈ o.lines, ∀ c ∈ l, isPlain c = true ∨ c ∈ [' ', '-', '.'] := by
  obtain ⟨ts, ordered, lists⟩ := o
  have htext : ∀ t : Phrase, ∀ c ∈ t.text, isPlain c = true ∨ c ∈ [' ', '-', '.'] :=
    fun t c hc => (t.isPhrase.mem c hc).imp_right fun h => by simp [h]
  induction ts with
  | nil =>
    intro l hl
    obtain ⟨d, f, t, rfl⟩ := mem_lists_lines lists 0 ordered l hl
    exact mem_itemLine d f t
  | cons t ts ih =>
    rw [Outline.lines, Outline.linesBefore]
    split
    · exact List.forall_mem_cons.2 ⟨htext t, List.forall_mem_nil _⟩
    · exact List.forall_mem_cons.2 ⟨htext t, List.forall_mem_cons.2 ⟨List.forall_mem_nil _, ih⟩⟩

theorem lines_feedLines {ls : List (List Char)} (h : ∀ l ∈ ls, '\n' ∉ l) :
    Line.lines (feedLines ls) = ls.map endedLine := by
  induction ls with
  | nil => rfl
  | cons l ls ih =>
    obtain ⟨hl, hls⟩ := List.forall_mem_cons.1 h
    have hcons : feedLines (l :: ls) = l ++ '\n' :: feedLines ls := by simp [feedLines]
    rw [hcons, Line.lines_append, splitLines_of_no_feed hl, ih hls]
    rfl

theorem plainSource_outline (o : Outline) : Document.plainSource o.text = o.text := by
  have hsource : ∀ c ∈ o.text, Document.IsSource c := by
    have hmark : ∀ c : Char, isPlain c = true ∨ c ∈ [' ', '-', '.'] → Document.IsSource c := by
      rintro c (hc | hc)
      · exact ⟨ne_of_isPlain hc rfl, ne_of_isPlain hc rfl⟩
      · simp only [List.mem_cons, List.not_mem_nil, or_false] at hc
        rcases hc with rfl | rfl | rfl <;> decide
    rw [Outline.text]
    split
    · simp [Document.IsSource]
    · intro c hc
      obtain ⟨l, hl, hc⟩ := List.mem_flatMap.1 hc
      rcases List.mem_append.1 hc with hc | hc
      · exact hmark c (mem_outline_lines o l hl c hc)
      · obtain rfl := List.mem_singleton.1 hc
        decide
  have happend := Document.plainSource_append hsource []
  simpa [Document.plainSource, unifyNewlines] using happend

end DocPress.Markdown
