import DocPress.Directive.Probed
import DocPress.Proofs.Directive.Lexer

/-!
# The first quote of a directive

Neither names nor numbers nor any mark of the grammar is a quote. So the first quote of a directive
opens a string, and the string is closed in the directive. A text in which it is not closed is no
directive.
-/

set_option autoImplicit false

namespace DocPress.Directive

open Text

variable {a b s t : List Char}

/-- The first quote, if there is one, opens a string that is closed. -/
def ClosesQuote (s : List Char) : Prop :=
  ∀ p y, s = p ++ '"' :: y → '"' ∉ p → (takeString? y).isSome = true

/-- What follows a string does not matter. -/
theorem isSome_takeString?_append (h : (takeString? s).isSome = true) (t : List Char) :
    (takeString? (s ++ t)).isSome = true := by
  obtain ⟨⟨inside, rest⟩, htake⟩ := Option.isSome_iff_exists.1 h
  rw [takeString?_append htake, List.append_assoc, List.cons_append,
    takeString?_of_isInside (isInside_of_takeString? htake)]
  rfl

theorem closesQuote_of_not_mem (h : '"' ∉ s) : ClosesQuote s := by
  rintro p y rfl
  simp at h

theorem closesQuote_string (h : IsInside s) (t : List Char) :
    ClosesQuote ('"' :: (s ++ '"' :: t)) := by
  intro p y hs hp
  cases p with
  | nil =>
    obtain rfl := (List.cons.inj hs).2
    rw [takeString?_of_isInside h]
    rfl
  | cons c p =>
    obtain ⟨rfl, -⟩ := List.cons.inj hs
    simp at hp

theorem ClosesQuote.behind (ha : '"' ∉ a) (h : ClosesQuote s) : ClosesQuote (a ++ s) := by
  intro p y hs hp
  obtain ⟨p, rfl, rfl⟩ | ⟨q, rfl, hy⟩ := List.append_eq_append_iff.1 hs
  · exact h p y rfl fun hmem => hp (List.mem_append_right a hmem)
  · cases q with
    | nil => exact h [] y hy.symm List.not_mem_nil
    | cons c q =>
      obtain ⟨rfl, -⟩ := List.cons.inj hy
      simp at ha

theorem ClosesQuote.append (h : ClosesQuote s) (ht : '"' ∉ t) : ClosesQuote (s ++ t) := by
  intro p y hs hp
  obtain ⟨p, rfl, rfl⟩ | ⟨q, rfl, hy⟩ := List.append_eq_append_iff.1 hs
  · simp at ht
  · cases q with
    | nil =>
      obtain rfl : '"' :: y = t := hy
      simp at ht
    | cons c q =>
      obtain ⟨rfl, rfl⟩ := List.cons.inj hy
      exact isSome_takeString?_append (h p q rfl hp) t

/-! ## Directives -/

theorem quote_not_mem_of_isBlankText (h : isBlankText s = true) : '"' ∉ s := fun hmem =>
  absurd (List.all_eq_true.1 h _ hmem) (by decide)

theorem IsName.quote_not_mem (h : IsName s) : '"' ∉ s := fun hmem =>
  absurd (h.isNameChar _ hmem) (by decide)

theorem NumberLiteral.IsDigits.quote_not_mem (h : NumberLiteral.IsDigits s) : '"' ∉ s :=
  fun hmem => absurd (h.2 _ hmem) (by decide)

/-- A literal is a string or has no quote. -/
theorem Literal.IsWritten.closesQuote {l : Literal} (h : l.IsWritten) (hs : ClosesQuote s) :
    ClosesQuote (l.text ++ s) := by
  cases l with
  | string inside =>
    rw [text, List.cons_append, List.append_assoc]
    exact closesQuote_string h s
  | number n =>
    obtain ⟨hw, hf⟩ := h
    have hfraction : '"' ∉ n.fractionText := by
      unfold NumberLiteral.fractionText
      cases hn : n.fraction with
      | none => exact List.not_mem_nil
      | some f => simpa using NumberLiteral.IsDigits.quote_not_mem (hf f hn)
    have hsign : '"' ∉ if n.negative then ['-'] else [] := by split <;> decide
    rw [text, NumberLiteral.text, List.append_assoc, List.append_assoc]
    exact ((hs.behind hfraction).behind (NumberLiteral.IsDigits.quote_not_mem hw)).behind hsign
  | yes | no | null => exact hs.behind (by decide)

theorem IsAttributes.closesQuote {as : List (List Char × Literal)} (h : IsAttributes as s) :
    ClosesQuote s := by
  induction h with
  | nil => exact closesQuote_of_not_mem List.not_mem_nil
  | cons ha hkey hb hc hl _ ih =>
    have hvalue := (hl.closesQuote ih).behind (quote_not_mem_of_isBlankText hc)
    have hsign := (hvalue.behind (a := ['=']) (by decide)).behind (quote_not_mem_of_isBlankText hb)
    exact (hsign.behind hkey.quote_not_mem).behind (quote_not_mem_of_isBlankText ha)

theorem IsArguments.closesQuote {ls : List Literal} (h : IsArguments ls s) : ClosesQuote s := by
  induction h with
  | last ha hl hb =>
    have hrest := closesQuote_of_not_mem (quote_not_mem_of_isBlankText hb)
    exact (hl.closesQuote hrest).behind (quote_not_mem_of_isBlankText ha)
  | trailing ha hl hb =>
    have hrest := (closesQuote_of_not_mem (quote_not_mem_of_isBlankText hb)).append (t := [','])
      (by decide)
    exact (hl.closesQuote hrest).behind (quote_not_mem_of_isBlankText ha)
  | cons ha hl hb _ ih =>
    have hrest := (ih.behind (a := [',']) (by decide)).behind (quote_not_mem_of_isBlankText hb)
    exact (hl.closesQuote hrest).behind (quote_not_mem_of_isBlankText ha)

theorem IsTag.closesQuote {name : List Char} {as : List (List Char × Literal)}
    (h : IsTag name as s) : ClosesQuote s := by
  cases h with
  | bare hn => exact closesQuote_of_not_mem hn.quote_not_mem
  | spaced hn ha _ has =>
    exact (has.closesQuote.behind (quote_not_mem_of_isBlankText ha)).behind hn.quote_not_mem

theorem IsForm.closesQuote {w : Form} (h : IsForm w s) : ClosesQuote s := by
  cases h with
  | closing ha hn =>
    have hname := closesQuote_of_not_mem hn.quote_not_mem
    exact (hname.behind (quote_not_mem_of_isBlankText ha)).behind (a := ['/']) (by decide)
  | emptyCall hn ha hs =>
    have hinside := closesQuote_of_not_mem (quote_not_mem_of_isBlankText hs)
    exact (((hinside.append (t := [')']) (by decide)).behind (a := ['(']) (by decide)).behind
      (quote_not_mem_of_isBlankText ha)).behind hn.quote_not_mem
  | call hn ha hs =>
    exact (((hs.closesQuote.append (t := [')']) (by decide)).behind (a := ['(']) (by decide)).behind
      (quote_not_mem_of_isBlankText ha)).behind hn.quote_not_mem
  | opening ht => exact ht.closesQuote
  | selfClosing ht ha =>
    refine ht.closesQuote.append fun hmem => ?_
    obtain hmem | hmem := List.mem_append.1 hmem
    · exact quote_not_mem_of_isBlankText ha hmem
    · exact absurd hmem (by decide)

/-- The first quote of a directive opens a string that is closed in it. -/
theorem closesQuote_of_lex {d : Directive} (h : lex s = .ok d) : ClosesQuote s := by
  obtain ⟨b, w, rfl, hw, -, -⟩ := lex_eq_ok_iff.1 h
  obtain ⟨a, ha, hleft⟩ := exists_stripLeft b
  obtain ⟨c, hc, hright⟩ := exists_stripRight (stripLeft b)
  have hbody : ClosesQuote b := by
    rw [hleft, hright]
    exact (hw.closesQuote.append (quote_not_mem_of_isBlankText hc)).behind
      (quote_not_mem_of_isBlankText ha)
  exact (hbody.append (t := ['%', '}']) (by decide)).behind (a := ['{', '%']) (by decide)

/-- A string that is cut short is not closed. -/
theorem takeString?_of_cut (h : IsInside (s ++ t)) : takeString? s = none := by
  cases htake : takeString? s with
  | none => rfl
  | some p =>
    have hwhole := takeString?_of_isInside h []
    have hcut := takeString?_of_isInside (isInside_of_takeString? htake) (p.2 ++ (t ++ ['"']))
    rw [takeString?_append htake, List.append_assoc, List.append_assoc, List.cons_append,
      hcut] at hwhole
    simp at hwhole

/-- A text in which the string at the first quote is not closed is no directive. -/
theorem probe_of_open (hs : '"' ∉ s) (ht : takeString? t = none) :
    (probe (s ++ '"' :: t)).value = none := by
  rw [probe]
  cases hlex : lex (s ++ '"' :: t) with
  | error e => rfl
  | ok d =>
    have hclosed := closesQuote_of_lex hlex s t rfl hs
    rw [ht] at hclosed
    cases hclosed

end DocPress.Directive
