import DocPress.Proofs.Directive.Parts

/-!
# Reading a directive and the grammar of directives

The slash, the parenthesis or the name that a text starts or ends with tells what
kind of directive it can be, so each branch of the reader stands for one kind. Main
statement: a text is read exactly if it is one of the grammar whose literals have
values, what is read is what its form says, and no text has two forms.
-/

set_option autoImplicit false

namespace DocPress.Directive

open Text

variable {a b s t name inside source body rest : List Char}

/-! ## The kinds of directive -/

theorem IsAttributes.endsToken {as : List (List Char × Literal)} (h : IsAttributes as s)
    (hne : s ≠ []) : EndsToken s := by
  induction h with
  | nil => exact absurd rfl hne
  | @cons a b c key s l as _ _ _ _ hl _ ih =>
    have hends : EndsToken (l.text ++ s) := by
      cases s with
      | nil =>
        rw [List.append_nil]
        exact hl.endsToken
      | cons d s => exact (ih (by simp)).append _
    have hvalue := ((hends.append c).append ['=']).append b
    exact (hvalue.append key).append a

theorem IsTag.endsToken_or {as : List (List Char × Literal)} (h : IsTag name as s) :
    EndsToken s ∨ (as = [] ∧ ∃ a, isBlankText a = true ∧ s = name ++ a) := by
  cases h with
  | bare hn => exact .inl hn.endsToken
  | @spaced a t _ hn ha _ ht =>
    cases t with
    | nil =>
      rw [List.append_nil]
      exact .inr ⟨looseAttributes_of_isAttributes ht |>.eq_nil rfl, a, ha, rfl⟩
    | cons c t => exact .inl (((ht.endsToken (by simp)).append a).append name)

theorem IsTag.isName {as : List (List Char × Literal)} (h : IsTag name as s) : IsName name := by
  cases h <;> assumption

/-- Neither a parenthesis nor a slash ends a tag. -/
theorem IsTag.unmarked {as : List (List Char × Literal)} (h : IsTag name as s) :
    Stops isClosingMark s.reverse := by
  obtain hends | ⟨-, a, ha, rfl⟩ := h.endsToken_or
  · exact hends.unmarked
  · rw [List.reverse_append]
    exact stops_blank_append (fun _ => isClosingMark_of_isBlank)
      (by rwa [isBlankText_reverse]) h.isName.endsToken.unmarked

theorem isTag_stripRight {as : List (List Char × Literal)} (h : IsTag name as s) :
    IsTag name as (stripRight s) := by
  obtain hends | ⟨rfl, a, ha, rfl⟩ := h.endsToken_or
  · rwa [stripRight_of_stops hends.trimmed]
  · rw [stripRight_append ha, stripRight_of_stops h.isName.endsToken.trimmed]
    exact .bare h.isName

theorem IsName.ne_slash (h : IsName name) (t r : List Char) : name ++ t ≠ '/' :: r := by
  cases name with
  | nil => exact h.elim
  | cons c n =>
    intro he
    obtain ⟨rfl, -⟩ := List.cons.inj he
    exact absurd h.1 (by decide)

theorem IsTag.ne_slash {as : List (List Char × Literal)} (h : IsTag name as s) (t r : List Char) :
    s ++ t ≠ '/' :: r := by
  cases h with
  | bare hn => exact hn.ne_slash t r
  | spaced hn =>
    rw [List.append_assoc]
    exact hn.ne_slash _ r

theorem isForm_slash_iff {w : Form} : IsForm w ('/' :: s) ↔
    ∃ a name, isBlankText a = true ∧ IsName name ∧ s = a ++ name ∧ w = .closing name := by
  constructor
  · generalize hbody : '/' :: s = body
    intro h
    cases h with
    | @closing a name ha hn => exact ⟨a, name, ha, hn, (List.cons.inj hbody).2, rfl⟩
    | emptyCall hn => exact absurd hbody.symm (hn.ne_slash _ _)
    | call hn => exact absurd hbody.symm (hn.ne_slash _ _)
    | opening ht => exact absurd hbody.symm (by simpa using ht.ne_slash [] s)
    | selfClosing ht => exact absurd hbody.symm (ht.ne_slash _ _)
  · rintro ⟨a, name, ha, hn, rfl, rfl⟩
    exact .closing ha hn

/-- A text of the shape of a call is no other directive. -/
theorem isForm_of_call? {w : Form} (h : call? body = some (name, inside)) :
    IsForm w body ↔ ∃ ls, ((isBlankText inside = true ∧ ls = []) ∨ IsArguments ls inside) ∧
      w = .call name ls := by
  obtain ⟨a, hn, ha, hbody⟩ := call?_eq_some_iff.1 h
  have hlast : body.reverse = ')' :: (name ++ (a ++ '(' :: inside)).reverse := by simp [hbody]
  constructor
  · intro hw
    cases hw with
    | closing => exact absurd hbody.symm (hn.ne_slash _ _)
    | @emptyCall n a₁ s hn₁ ha₁ hs =>
      obtain ⟨rfl, rfl⟩ := Prod.mk.inj (Option.some.inj (h.symm.trans (call?_of_isName hn₁ ha₁ s)))
      exact ⟨[], .inl ⟨hs, rfl⟩, rfl⟩
    | @call n a₁ s ls hn₁ ha₁ hs =>
      obtain ⟨rfl, rfl⟩ := Prod.mk.inj (Option.some.inj (h.symm.trans (call?_of_isName hn₁ ha₁ s)))
      exact ⟨ls, .inr hs, rfl⟩
    | opening ht =>
      have hmark := ht.unmarked
      rw [hlast, stops_cons] at hmark
      exact absurd hmark (by decide)
    | selfClosing => simp at hlast
  · rintro ⟨ls, ⟨hs, rfl⟩ | hs, rfl⟩
    · rw [hbody]
      exact .emptyCall hn ha hs
    · rw [hbody]
      exact .call hn ha hs

/-- A text that is neither closing nor of the shape of a call is a tag without content if a slash
ends it. -/
theorem isForm_of_selfClosing? {w : Form} (hslash : ∀ r, body ≠ '/' :: r)
    (hcall : call? body = none) (h : selfClosing? body = some b) :
    IsForm w body ↔ ∃ name as, IsTag name as b ∧ w = .selfClosing name as := by
  obtain ⟨t, hbody, hb⟩ := selfClosing?_eq_some_iff.1 h
  constructor
  · intro hw
    cases hw with
    | closing => exact absurd rfl (hslash _)
    | emptyCall hn ha => exact nomatch hcall.symm.trans (call?_of_isName hn ha _)
    | call hn ha => exact nomatch hcall.symm.trans (call?_of_isName hn ha _)
    | opening ht =>
      have hmark := ht.unmarked
      rw [hbody, List.reverse_append, List.reverse_singleton, List.singleton_append,
        stops_cons] at hmark
      exact absurd hmark (by decide)
    | selfClosing ht ha =>
      rw [← List.append_assoc] at hbody
      obtain rfl := List.append_cancel_right hbody
      rw [stripRight_append ha] at hb
      exact ⟨_, _, hb ▸ isTag_stripRight ht, rfl⟩
  · rintro ⟨name, as, ht, rfl⟩
    obtain ⟨a, ha, hta⟩ := exists_stripRight t
    rw [hbody, hta, ← hb, List.append_assoc]
    exact .selfClosing ht ha

theorem isForm_of_opening {w : Form} (hslash : ∀ r, body ≠ '/' :: r)
    (hcall : call? body = none) (h : selfClosing? body = none) :
    IsForm w body ↔ ∃ name as, IsTag name as body ∧ w = .opening name as := by
  constructor
  · intro hw
    cases hw with
    | closing => exact absurd rfl (hslash _)
    | emptyCall hn ha => exact nomatch hcall.symm.trans (call?_of_isName hn ha _)
    | call hn ha => exact nomatch hcall.symm.trans (call?_of_isName hn ha _)
    | opening ht => exact ⟨_, _, ht, rfl⟩
    | selfClosing ht ha =>
      rw [← List.append_assoc, selfClosing?_append] at h
      cases h
  · rintro ⟨name, as, ht, rfl⟩
    exact .opening ht

/-- No text has two forms. -/
theorem IsForm.unique {w w' : Form} (h : IsForm w s) (h' : IsForm w' s) : w = w' := by
  by_cases hslash : ∃ r, s = '/' :: r
  · obtain ⟨r, rfl⟩ := hslash
    obtain ⟨a, name, ha, hn, rfl, rfl⟩ := isForm_slash_iff.1 h
    obtain ⟨a', name', ha', hn', he, rfl⟩ := isForm_slash_iff.1 h'
    have hstrip := congrArg stripLeft he
    rw [stripLeft_append ha, stripLeft_append ha'] at hstrip
    have hstop : ∀ n : List Char, IsName n → stripLeft n = n := fun n hn =>
      stripLeft_of_stops (by simpa using hn.stops (fun _ => isBlank_of_isNameStart) [])
    rw [hstop _ hn, hstop _ hn'] at hstrip
    rw [hstrip]
  · rw [not_exists] at hslash
    cases hcall : call? s with
    | some p =>
      obtain ⟨name, inside⟩ := p
      obtain ⟨ls, hls, rfl⟩ := (isForm_of_call? hcall).1 h
      obtain ⟨ls', hls', rfl⟩ := (isForm_of_call? hcall).1 h'
      rcases hls with ⟨hb, rfl⟩ | hls <;> rcases hls' with ⟨hb', rfl⟩ | hls'
      · rfl
      · exact nomatch hb.symm.trans (isBlankText_of_isArguments hls')
      · exact nomatch hb'.symm.trans (isBlankText_of_isArguments hls)
      · rw [LooseArguments.unique (.inr hls) (.inr hls')]
    | none =>
      cases hself : selfClosing? s with
      | some b =>
        obtain ⟨name, as, ht, rfl⟩ := (isForm_of_selfClosing? hslash hcall hself).1 h
        obtain ⟨name', as', ht', rfl⟩ := (isForm_of_selfClosing? hslash hcall hself).1 h'
        obtain ⟨rfl, rfl⟩ := ht.unique ht'
        rfl
      | none =>
        obtain ⟨name, as, ht, rfl⟩ := (isForm_of_opening hslash hcall hself).1 h
        obtain ⟨name', as', ht', rfl⟩ := (isForm_of_opening hslash hcall hself).1 h'
        obtain ⟨rfl, rfl⟩ := ht.unique ht'
        rfl

/-! ## Directives -/

def ofBody (source : List Char) : List Char → Except Fault Directive
  | '/' :: r =>
    match takeName? (strip r) with
    | some (name, []) => .ok (.closing (String.ofList name))
    | _ => .error (.invalidClosing (String.ofList source))
  | body =>
    match call? body with
    | some (name, inside) =>
      if isBlankText inside then .ok (.call (String.ofList name) [])
      else (arguments source inside).map (.call (String.ofList name))
    | none =>
      match selfClosing? body with
      | some b => (tag source b).map fun p => .selfClosing p.1 p.2
      | none => (tag source body).map fun p => .opening p.1 p.2

theorem lex_eq (source : List Char) : lex source =
    match (body? source).map strip with
    | none => .error (.notDirective (String.ofList source))
    | some body => ofBody source body := by
  unfold lex
  split
  · rename_i h
    rw [h]
  · rename_i r h
    rw [h]
    rfl
  · rename_i body hslash h
    rw [h]
    dsimp only
    rw [ofBody.eq_2 _ _ hslash]
    cases call? body with
    | some p =>
      dsimp only
      cases arguments source p.2 <;> rfl
    | none =>
      cases selfClosing? body with
      | some b =>
        dsimp only
        cases tag source b <;> rfl
      | none =>
        dsimp only
        cases tag source body <;> rfl

theorem body?_eq_some_iff : body? source = some b ↔ source = '{' :: '%' :: (b ++ ['%', '}']) := by
  unfold body?
  constructor
  · intro h
    split at h
    · rename_i r
      split at h
      · rename_i b' hr
        obtain rfl := Option.some.inj h
        rw [← List.reverse_reverse r, hr]
        simp
      · cases h
    · cases h
  · rintro rfl
    simp

theorem isForm_closing_iff {w : Form} (htrim : Stops isBlank s.reverse) : IsForm w ('/' :: s) ↔
    ∃ name, takeName? (strip s) = some (name, []) ∧ w = .closing name := by
  rw [isForm_slash_iff]
  constructor
  · rintro ⟨a, name, ha, hn, rfl, rfl⟩
    refine ⟨name, takeName?_eq_some_iff.2 ⟨hn, stops_nil _, ?_⟩, rfl⟩
    have hstop : Stops isBlank name := by
      simpa using hn.stops (fun _ => isBlank_of_isNameStart) []
    rw [strip, stripLeft_append ha, stripLeft_of_stops hstop,
      stripRight_of_stops hn.endsToken.trimmed, List.append_nil]
  · rintro ⟨name, hname, rfl⟩
    obtain ⟨hn, -, hs⟩ := takeName?_eq_some_iff.1 hname
    obtain ⟨a, ha, hsa⟩ := exists_stripLeft s
    have hright : stripRight (stripLeft s) = stripLeft s :=
      stripRight_of_stops (stops_reverse_of_append (hsa ▸ htrim))
    rw [strip, hright, List.append_nil] at hs
    rw [hs] at hsa
    exact ⟨a, name, ha, hn, hsa, rfl⟩

theorem tag_map_eq_ok_iff {d : Directive} {make : String → Attributes → Directive}
    {form : List Char → List (List Char × Literal) → Form} (htrim : Stops isBlank body.reverse)
    (hliterals : ∀ name as, (form name as).literals = as.map Prod.snd)
    (hmake : ∀ name as,
      (form name as).directive = make (String.ofList name) (Form.attributes as)) :
    (tag source body).map (fun p => make p.1 p.2) = .ok d ↔
      ∃ w, (∃ name as, IsTag name as body ∧ w = form name as) ∧
        (∀ l ∈ w.literals, l.IsValid) ∧ d = w.directive := by
  simp only [map_eq_ok_iff, Prod.exists, tag_eq_ok_iff htrim]
  constructor
  · rintro ⟨_, _, ⟨name, as, ht, hvalid, rfl, rfl⟩, rfl⟩
    refine ⟨form name as, ⟨name, as, ht, rfl⟩, ?_, (hmake name as).symm⟩
    rw [hliterals]
    exact List.forall_mem_map.2 hvalid
  · rintro ⟨_, ⟨name, as, ht, rfl⟩, hvalid, rfl⟩
    rw [hliterals] at hvalid
    exact ⟨_, _, ⟨name, as, ht, List.forall_mem_map.1 hvalid, rfl, rfl⟩, (hmake name as).symm⟩

/-- The text between the delimiters is read exactly if it has a form of which all literals have
values, and what is read is what the form says. -/
theorem ofBody_eq_ok_iff {d : Directive} (htrim : Stops isBlank body.reverse) :
    ofBody source body = .ok d ↔
      ∃ w, IsForm w body ∧ (∀ l ∈ w.literals, l.IsValid) ∧ d = w.directive := by
  by_cases hslash : ∃ r, body = '/' :: r
  · obtain ⟨r, rfl⟩ := hslash
    have hr : Stops isBlank r.reverse := stops_reverse_of_append (a := ['/']) htrim
    simp only [isForm_closing_iff hr, ofBody]
    split
    · rename_i name hname
      rw [hname]
      constructor
      · intro h
        exact ⟨_, ⟨name, rfl, rfl⟩, by simp [Form.literals], (Except.ok.inj h).symm⟩
      · rintro ⟨_, ⟨name', he, rfl⟩, -, rfl⟩
        cases he
        rfl
    · rename_i hname
      simp only [reduceCtorEq, false_iff]
      rintro ⟨_, ⟨name, he, -⟩, -⟩
      exact hname name he
  · rw [not_exists] at hslash
    rw [ofBody.eq_2 _ _ hslash]
    cases hcall : call? body with
    | some p =>
      obtain ⟨name, inside⟩ := p
      simp only [isForm_of_call? hcall]
      cases hblank : isBlankText inside with
      | true =>
        rw [if_pos rfl]
        constructor
        · intro h
          exact ⟨_, ⟨[], .inl ⟨rfl, rfl⟩, rfl⟩, by simp [Form.literals], (Except.ok.inj h).symm⟩
        · rintro ⟨_, ⟨ls, ⟨-, rfl⟩ | hls, rfl⟩, -, rfl⟩
          · rfl
          · exact nomatch hblank.symm.trans (isBlankText_of_isArguments hls)
      | false =>
        have hne : inside ≠ [] := by
          rintro rfl
          cases hblank
        simp only [Bool.false_eq_true, if_false, false_and, false_or, map_eq_ok_iff,
          arguments_eq_ok_iff, looseArguments_of_ne_nil hne]
        constructor
        · rintro ⟨_, ⟨ls, hls, hvalid, rfl⟩, rfl⟩
          exact ⟨_, ⟨ls, hls, rfl⟩, hvalid, rfl⟩
        · rintro ⟨_, ⟨ls, hls, rfl⟩, hvalid, rfl⟩
          exact ⟨_, ⟨ls, hls, hvalid, rfl⟩, rfl⟩
    | none =>
      cases hself : selfClosing? body with
      | some b =>
        have hb : Stops isBlank b.reverse := by
          obtain ⟨t, -, rfl⟩ := selfClosing?_eq_some_iff.1 hself
          exact stops_stripRight t
        simp only [isForm_of_selfClosing? hslash hcall hself]
        exact tag_map_eq_ok_iff hb (fun _ _ => rfl) (fun _ _ => rfl)
      | none =>
        simp only [isForm_of_opening hslash hcall hself]
        exact tag_map_eq_ok_iff htrim (fun _ _ => rfl) (fun _ _ => rfl)

theorem lex_eq_ok_iff {d : Directive} : lex source = .ok d ↔ ∃ b w,
    source = '{' :: '%' :: (b ++ ['%', '}']) ∧ IsForm w (strip b) ∧
      (∀ l ∈ w.literals, l.IsValid) ∧ d = w.directive := by
  rw [lex_eq]
  cases hbody : body? source with
  | none =>
    simp only [Option.map_none, reduceCtorEq, false_iff]
    rintro ⟨b, w, hs, -⟩
    exact nomatch hbody.symm.trans (body?_eq_some_iff.2 hs)
  | some b =>
    simp only [Option.map_some, ofBody_eq_ok_iff (stops_strip_reverse b), ← body?_eq_some_iff]
    constructor
    · rintro ⟨w, hw⟩
      exact ⟨b, w, hbody, hw⟩
    · rintro ⟨b', w, hb', hw⟩
      obtain rfl := Option.some.inj (hbody.symm.trans hb')
      exact ⟨w, hw⟩

/-- A directive is read exactly from the texts of the grammar of which all literals have values,
wherever it starts; what is read is what its form says, and a text has one form at most. -/
theorem lexAt_eq_ok_iff_isForm (source : String) (start : Int) :
    (∀ t, lexAt source start = .ok t ↔ ∃ b w,
      source.toList = '{' :: '%' :: (b ++ ['%', '}']) ∧ IsForm w (strip b) ∧
        (∀ l ∈ w.literals, l.IsValid) ∧
          t = ⟨w.directive, start, start + source.length, source⟩) ∧
    ∀ b w w', IsForm w (strip b) → IsForm w' (strip b) → w = w' := by
  refine ⟨fun t => ?_, fun _ _ _ => IsForm.unique⟩
  rw [lexAt, map_eq_ok_iff]
  simp only [lex_eq_ok_iff]
  constructor
  · rintro ⟨_, ⟨b, w, hs, hw, hvalid, rfl⟩, rfl⟩
    exact ⟨b, w, hs, hw, hvalid, rfl⟩
  · rintro ⟨b, w, hs, hw, hvalid, rfl⟩
    exact ⟨_, ⟨b, w, hs, hw, hvalid, rfl⟩, rfl⟩

end DocPress.Directive
