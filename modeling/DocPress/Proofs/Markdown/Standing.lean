import DocPress.Proofs.Markdown.Plain

/-!
# A directive on a line of its own

A line that is a directive from end to end starts no other block. Yet it may be drawn into a
heading: before the line is taken for a directive the reader looks ahead, over the lines that a
paragraph would go on with, for one that underlines them. If there is none, the line is a block,
and the blocks after it are what they are without it.
-/

set_option autoImplicit false

namespace DocPress.Markdown

open Text Directive

/-! ## The end of a directive -/

theorem isPrefix_of_not_mem {p a b : List Char} {c : Char} (hc : c ∉ p) (h : p <+: a ++ c :: b) :
    p <+: a := by
  refine List.prefix_of_prefix_length_le h (List.prefix_append a _) ?_
  by_contra hlong
  have hbehind : a ++ [c] <+: p :=
    List.prefix_of_prefix_length_le ⟨b, by simp⟩ h (by simp; omega)
  exact hc (hbehind.subset (by simp))

/-- A character that a text does not have divides the places where it stands. -/
theorem isInfix_or_of_not_mem {p a b : List Char} {c : Char} (hc : c ∉ p)
    (h : p <:+: a ++ c :: b) : p <:+: a ∨ p <:+: b := by
  induction a with
  | nil =>
    obtain h | h := List.infix_cons_iff.1 h
    · exact Or.inl (isPrefix_of_not_mem (a := []) hc h).isInfix
    · exact Or.inr h
  | cons d a ih =>
    obtain h | h := List.infix_cons_iff.1 h
    · exact Or.inl (isPrefix_of_not_mem (a := d :: a) hc h).isInfix
    · exact (ih h).imp_left fun ha => ha.trans (List.suffix_cons d a).isInfix

namespace Html

/-- The first place where a text stands does not depend on what follows. -/
theorem exists_afterFirst?_append {p s : List Char} (h : p <:+: s) (t : List Char) :
    ∃ r, afterFirst? p (s ++ t) = some (r ++ t) := by
  induction s with
  | nil =>
    obtain rfl := List.eq_nil_of_infix_nil h
    cases t with
    | nil => exact ⟨[], rfl⟩
    | cons c t => exact ⟨[], rfl⟩
  | cons c s ih =>
    rw [List.cons_append, afterFirst?]
    split
    · rename_i hp
      have hp : p <+: c :: s := List.prefix_of_prefix_length_le (List.isPrefixOf_iff_prefix.1 hp)
        (List.prefix_append (c :: s) t) h.length_le
      obtain ⟨r, hr⟩ := hp
      refine ⟨r, ?_⟩
      rw [← List.cons_append, ← hr, List.append_assoc, List.drop_left]
    · rename_i hp
      obtain h | h := List.infix_cons_iff.1 h
      · exact absurd (List.isPrefixOf_iff_prefix.2 (h.trans (List.prefix_append (c :: s) t))) hp
      · exact ih h

theorem afterFirst?_end {s : List Char} (h : ¬['%', '}'] <:+: s) (t : List Char) :
    afterFirst? ['%', '}'] (s ++ '%' :: '}' :: t) = some t := by
  induction s with
  | nil => rfl
  | cons c s ih =>
    have hfirst : ¬['%', '}'].isPrefixOf (c :: (s ++ '%' :: '}' :: t)) = true := by
      rw [List.isPrefixOf_iff_prefix, List.cons_prefix_cons]
      rintro ⟨rfl, hnext⟩
      cases s with
      | nil => exact absurd (List.cons_prefix_cons.1 hnext).1 (by decide)
      | cons d s =>
        obtain ⟨rfl, -⟩ := List.cons_prefix_cons.1 hnext
        exact h ⟨[], s, rfl⟩
    rw [List.cons_append, afterFirst?, if_neg hfirst]
    exact ih fun hs => h (hs.trans (List.suffix_cons c s).isInfix)

/-- A text is cut where a closing delimiter first stands. -/
theorem exists_first_end {s : List Char} (h : ['%', '}'] <:+: s) :
    ∃ a b, s = a ++ '%' :: '}' :: b ∧ ¬['%', '}'] <:+: a := by
  induction s with
  | nil => cases List.eq_nil_of_infix_nil h
  | cons c s ih =>
    by_cases hfirst : ['%', '}'] <+: c :: s
    · obtain ⟨b, hb⟩ := hfirst
      exact ⟨[], b, hb.symm, by decide⟩
    · obtain ⟨a, b, rfl, ha⟩ := ih ((List.infix_cons_iff.1 h).resolve_left hfirst)
      refine ⟨c :: a, b, rfl, fun hx => ?_⟩
      obtain hx | hx := List.infix_cons_iff.1 hx
      · exact hfirst (hx.trans (List.prefix_append (c :: a) _))
      · exact ha hx

end Html

namespace Block

variable {φ : Type} {recognise : Recogniser φ} {quoted nested : Reader φ}

/-! ## Lines under a heading -/

/-- Lines that a paragraph goes on with, up to one that underlines it. Lines four columns in and
lines that can only continue a paragraph belong to it whatever they hold. -/
inductive Underlined (recognise : Recogniser φ) (p : Place) : List Line → Prop
  | here {l : Line} {rest : List Line} : l.isEmpty = false → l.isCodeAt p = false →
      l.isOutside p = false → (underline? l.body).isSome = true → Underlined recognise p (l :: rest)
  | after {l : Line} {rest : List Line} : l.isEmpty = false →
      (l.isCodeAt p = true ∨ l.indent < 0 ∨
        (interrupts recognise .paragraph p l rest).value = false) →
      Underlined recognise p rest → Underlined recognise p (l :: rest)

theorem underlined?_cons (p : Place) (l : Line) (rest : List Line) :
    (underlined? recognise p (l :: rest)).value.isSome = true ↔ l.isEmpty = false ∧
      ((l.isCodeAt p = false ∧ l.isOutside p = false ∧ (underline? l.body).isSome = true) ∨
        (l.isCodeAt p = true ∨ l.indent < 0 ∨
            (interrupts recognise .paragraph p l rest).value = false) ∧
          (underlined? recognise p rest).value.isSome = true) := by
  rw [underlined?]
  dsimp only
  cases l.isEmpty with
  | true => simp
  | false =>
    cases l.isCodeAt p with
    | true => simp
    | false =>
      cases hline : (if l.isOutside p then none else underline? l.body) with
      | some level =>
        have hin : l.isOutside p = false ∧ (underline? l.body).isSome = true := by
          cases hout : l.isOutside p <;> simp_all
        simp [hin]
      | none =>
        have hin : ¬(l.isOutside p = false ∧ (underline? l.body).isSome = true) := by
          rintro ⟨hout, hsome⟩
          simp_all
        by_cases hlazy : l.indent < 0
        · simp [hlazy, hin]
        · cases hstart : (interrupts recognise .paragraph p l rest).value <;>
            simp [hlazy, hin, hstart]

theorem underlined_iff (p : Place) (lines : List Line) :
    Underlined recognise p lines ↔ (underlined? recognise p lines).value.isSome = true := by
  induction lines with
  | nil => exact ⟨nofun, nofun⟩
  | cons l rest ih =>
    rw [underlined?_cons, ← ih]
    constructor
    · rintro (⟨hl, hcode, hin, hline⟩ | ⟨hl, hgoes, hrest⟩)
      · exact ⟨hl, Or.inl ⟨hcode, hin, hline⟩⟩
      · exact ⟨hl, Or.inr ⟨hgoes, hrest⟩⟩
    · rintro ⟨hl, ⟨hcode, hin, hline⟩ | ⟨hgoes, hrest⟩⟩
      · exact .here hl hcode hin hline
      · exact .after hl hgoes hrest

/-! ## Lines that are directives -/

structure IsStanding (recognise : Recogniser φ) (d : Directive) (l : Line) : Prop where
  brace : ∃ r, l.body = '{' :: r
  indent : l.indent = 0
  directive : directive? recognise .top l = pure (some d)

variable {d : Directive} {l : Line} {rest : List Line}

/-- A text that ends where a directive in it ends first. -/
theorem isStanding_ofText {s : List Char} (hend : ¬['%', '}'] <:+: '{' :: '%' :: s)
    (hd : recognise ('{' :: '%' :: (s ++ ['%', '}'])) = pure (some d)) (hcall : d.isCall = false)
    (ended : Bool) :
    IsStanding recognise d (.ofText ('{' :: '%' :: (s ++ ['%', '}'])) ended) := by
  have hline : Line.ofText ('{' :: '%' :: (s ++ ['%', '}'])) ended =
      ⟨[], '{' :: '%' :: (s ++ ['%', '}']), 0, 0, ended⟩ := rfl
  have hstrip : stripRight ('{' :: '%' :: (s ++ ['%', '}'])) = '{' :: '%' :: (s ++ ['%', '}']) :=
    stripRight_of_stops (by simp [show isBlank '}' = false by decide])
  have hfirst := Html.afterFirst?_end hend []
  refine ⟨⟨_, by rw [hline]⟩, by rw [hline], ?_⟩
  rw [hline, directive?]
  dsimp only
  rw [hstrip, hd]
  simp only [List.cons_append] at hfirst
  rw [hfirst, if_neg (by simp [Line.isCodeAt, Place.top])]
  exact congrArg (Probed.mk []) (by simp [hcall])

theorem IsStanding.readBlock (h : IsStanding recognise d l) (htable : tableAt? .top l rest = none) :
    readBlock recognise quoted nested .top l rest = (do
      match ← underlined? recognise .top rest with
      | some (level, n) =>
        pure (.heading level (Line.paragraphText 0 (l :: rest.take n)), n + 1)
      | none => pure (.directive d, 0)) := by
  obtain ⟨r, hbody⟩ := h.brace
  have hcode : l.isCodeAt .top = false := by
    rw [Line.isCodeAt, h.indent]
    decide
  have hmark : listMark? l.body = none := by
    rw [hbody]
    exact listMark?_eq_none (by decide) (by decide)
  rw [readBlock_of_text hbody (by decide) hmark hcode htable,
    readText_of_start hbody (by decide) (by decide), readRunning, h.directive]
  rfl

theorem IsStanding.isEmpty (h : IsStanding recognise d l) : l.isEmpty = false := by
  obtain ⟨r, hbody⟩ := h.brace
  rw [Line.isEmpty, hbody]
  rfl

theorem IsStanding.isOutside (h : IsStanding recognise d l) : l.isOutside .top = false := by
  rw [Line.isOutside, h.indent]
  decide

/-- The line is a block, and what follows is read as if it stood alone. -/
theorem IsStanding.ofLines_eq (h : IsStanding recognise d l) (htable : tableAt? .top l rest = none)
    (hnone : ¬Underlined recognise .top rest) :
    ofLines recognise (l :: rest) =
      ⟨(underlined? recognise .top rest).notes ++ (ofLines recognise rest).notes,
        .directive d :: (ofLines recognise rest).value⟩ := by
  rw [underlined_iff, Option.not_isSome_iff_eq_none] at hnone
  rw [ofLines_cons h.isEmpty h.isOutside, h.readBlock htable]
  simp only [Probed.bind_notes, Probed.bind_value, hnone, Probed.pure_notes, Probed.pure_value,
    List.append_nil, List.drop_zero]

theorem IsStanding.exists_heading (h : IsStanding recognise d l)
    (htable : tableAt? .top l rest = none) (hsome : Underlined recognise .top rest) :
    ∃ level text bs, (ofLines recognise (l :: rest)).value = .heading level text :: bs := by
  obtain ⟨⟨level, n⟩, hline⟩ := Option.isSome_iff_exists.1 ((underlined_iff .top rest).1 hsome)
  rw [ofLines_cons h.isEmpty h.isOutside, h.readBlock htable]
  simp only [Probed.bind_value, hline, Probed.pure_value]
  exact ⟨level, _, _, rfl⟩

end Block

end DocPress.Markdown
