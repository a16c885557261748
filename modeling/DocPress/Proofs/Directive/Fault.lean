import DocPress.Proofs.Directive.Lexer

/-!
# Faults that end the reading

A text that is no directive is told by a fault. The faults that nothing can be made
of come from literals only: somewhere in the text there is one that is written as
a literal is, and has no value.
-/

set_option autoImplicit false

namespace DocPress.Directive

open Text

variable {s t source body : List Char}

def HoldsFaulty (f : Fault) (s : List Char) : Prop :=
  ∃ l : Literal, l.IsWritten ∧ l.value = .error f ∧ l.text <:+: s

theorem HoldsFaulty.mono {f : Fault} (h : HoldsFaulty f s) (hs : s <:+: t) : HoldsFaulty f t := by
  obtain ⟨l, hl, hv, htext⟩ := h
  exact ⟨l, hl, hv, htext.trans hs⟩

theorem holdsFaulty_of_attributes (source s : List Char) (found : Attributes) {f : Fault}
    (h : attributes source s found = .error f) (hf : f.isMalformed = false) : HoldsFaulty f s := by
  rw [attributes_eq] at h
  split at h
  · cases h
  · cases hstep : attribute? s with
    | none =>
      rw [hstep] at h
      cases h
      cases hf
    | some p =>
      obtain ⟨⟨key, l⟩, rest⟩ := p
      have hshorter := length_of_attribute? hstep
      obtain ⟨a, b, c, -, -, -, -, hl, hs⟩ := exists_of_attribute? hstep
      rw [hstep] at h
      cases hv : l.value with
      | error e =>
        simp only [hv, Except.error.injEq] at h
        refine ⟨l, hl, h ▸ hv, a ++ key ++ b ++ '=' :: c, rest, by simp [hs]⟩
      | ok v =>
        simp only [hv] at h
        have hrest := holdsFaulty_of_attributes source rest _ h hf
        exact hrest.mono ⟨a ++ key ++ b ++ '=' :: c ++ l.text, [], by simp [hs]⟩
termination_by s.length

theorem holdsFaulty_of_arguments (source s : List Char) {f : Fault}
    (h : arguments source s = .error f) (hf : f.isMalformed = false) : HoldsFaulty f s := by
  rw [arguments_eq] at h
  split at h
  · cases h
  · split at h
    · cases h
      cases hf
    · rename_i l hstep
      obtain ⟨a, b, -, hl, -, hs⟩ := exists_of_argument? hstep
      cases hv : l.value with
      | error e =>
        simp only [hv, Except.map, Except.error.injEq] at h
        exact ⟨l, hl, h ▸ hv, a, b ++ [], by simp [hs]⟩
      | ok v => simp [hv, Except.map] at h
    · rename_i l rest hstep
      have hshorter : rest.length < s.length := Nat.lt_of_succ_lt (length_of_argument? hstep)
      obtain ⟨a, b, -, hl, -, hs⟩ := exists_of_argument? hstep
      cases hv : l.value with
      | error e =>
        simp only [hv, Except.error.injEq] at h
        exact ⟨l, hl, h ▸ hv, a, b ++ ',' :: rest, by simp [hs]⟩
      | ok v =>
        cases hrest : arguments source rest with
        | error e =>
          simp only [hv, hrest, Except.map, Except.error.injEq] at h
          have hfaulty := holdsFaulty_of_arguments source rest hrest (h ▸ hf)
          rw [← h]
          exact hfaulty.mono ⟨a ++ l.text ++ b ++ [','], [], by simp [hs]⟩
        | ok vs => simp [hv, hrest, Except.map] at h
    · cases h
      cases hf
termination_by s.length

theorem holdsFaulty_of_tag {f : Fault} (h : tag source body = .error f)
    (hf : f.isMalformed = false) : HoldsFaulty f body := by
  unfold tag at h
  split at h
  · cases h
    cases hf
  · rename_i name rest hname
    split at h
    · split at h
      · rename_i e he
        obtain rfl := Except.error.inj h
        exact (holdsFaulty_of_attributes _ _ _ he hf).mono ⟨name, [], by
          rw [takeName?_append hname, List.append_nil]⟩
      · cases h
    · cases h
      cases hf

theorem holdsFaulty_of_ofBody {f : Fault} (h : ofBody source body = .error f)
    (hf : f.isMalformed = false) : HoldsFaulty f body := by
  have hmap : ∀ {α : Type} {x : Except Fault α} {g : α → Directive}, x.map g = .error f →
      x = .error f := by
    rintro α (e | a) g hg
    · exact congrArg Except.error (Except.error.inj hg)
    · cases hg
  by_cases hslash : ∃ r, body = '/' :: r
  · obtain ⟨r, rfl⟩ := hslash
    rw [ofBody] at h
    split at h
    · cases h
    · cases h
      cases hf
  · rw [not_exists] at hslash
    rw [ofBody.eq_2 _ _ hslash] at h
    cases hcall : call? body with
    | some p =>
      obtain ⟨name, inside⟩ := p
      obtain ⟨a, -, -, hbody⟩ := call?_eq_some_iff.1 hcall
      simp only [hcall] at h
      split at h
      · cases h
      · exact (holdsFaulty_of_arguments _ _ (hmap h) hf).mono
          ⟨name ++ a ++ ['('], [')'], by simp [hbody]⟩
    | none =>
      cases hself : selfClosing? body with
      | some b =>
        obtain ⟨t, hbody, rfl⟩ := selfClosing?_eq_some_iff.1 hself
        obtain ⟨a, -, ht⟩ := exists_stripRight t
        simp only [hcall, hself] at h
        refine (holdsFaulty_of_tag (hmap h) hf).mono ⟨[], a ++ ['/'], ?_⟩
        rw [hbody, List.nil_append, ← List.append_assoc, ← ht]
      | none =>
        simp only [hcall, hself] at h
        exact holdsFaulty_of_tag (hmap h) hf

/-- A fault that ends the reading is that of a literal in the text. -/
theorem holdsFaulty_of_lex {f : Fault} (h : lex source = .error f) (hf : f.isMalformed = false) :
    HoldsFaulty f source := by
  rw [lex_eq] at h
  cases hbody : body? source with
  | none =>
    rw [hbody] at h
    cases h
    cases hf
  | some b =>
    rw [hbody] at h
    obtain ⟨a, -, hleft⟩ := exists_stripLeft b
    obtain ⟨c, -, hright⟩ := exists_stripRight (stripLeft b)
    have hb : b = a ++ strip b ++ c := by
      rw [strip, List.append_assoc, ← hright, ← hleft]
    refine (holdsFaulty_of_ofBody h hf).mono ⟨'{' :: '%' :: a, c ++ ['%', '}'], ?_⟩
    rw [body?_eq_some_iff.1 hbody]
    conv => rhs; rw [hb]
    simp

end DocPress.Directive
