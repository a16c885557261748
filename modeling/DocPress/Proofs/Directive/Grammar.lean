import DocPress.Directive.Lexer
import DocPress.Proofs.Directive.Literal

/-!
# The grammar of directives

What a directive is, told as a grammar over the text between its delimiters, and
what it says, told by its form: the names and literals in it with the white space
left out. Reading a directive succeeds exactly on the texts of the grammar whose
literals have values, and no text has two forms.
-/

set_option autoImplicit false

namespace DocPress.Directive

open Text

/-! ## Characters -/

/-- There are few blank characters, so each can be looked up. -/
theorem eq_false_of_isBlank {p : Char → Bool}
    (hall : ∀ r ∈ blankRanges, ∀ n ∈ List.range' r.1 (r.2 + 1 - r.1), p (Char.ofNat n) = false)
    {c : Char} (h : isBlank c = true) : p c = false := by
  obtain ⟨r, hr, hlow, hhigh⟩ := (Ranges.contains_iff _ c).1 h
  have hc := hall r hr c.toNat (List.mem_range'_1.2 (by omega))
  rwa [Char.ofNat_toNat] at hc

theorem isNameChar_of_isBlank {c : Char} (h : isBlank c = true) : isNameChar c = false :=
  eq_false_of_isBlank (by decide +kernel) h

theorem isNumberChar_of_isBlank {c : Char} (h : isBlank c = true) : isNumberChar c = false :=
  eq_false_of_isBlank (by decide +kernel) h

def isClosingMark (c : Char) : Bool := c == ')' || c == '/'

theorem isClosingMark_of_isBlank {c : Char} (h : isBlank c = true) : isClosingMark c = false :=
  eq_false_of_isBlank (by decide +kernel) h

theorem isBlank_of_isNameChar {c : Char} (h : isNameChar c = true) : isBlank c = false :=
  Bool.eq_false_iff.2 fun hb => Bool.eq_false_iff.1 (isNameChar_of_isBlank hb) h

theorem isBlank_of_isNumberChar {c : Char} (h : isNumberChar c = true) : isBlank c = false :=
  Bool.eq_false_iff.2 fun hb => Bool.eq_false_iff.1 (isNumberChar_of_isBlank hb) h

theorem isNameChar_of_isNameStart {c : Char} (h : isNameStart c = true) : isNameChar c = true := by
  simp only [isNameStart, Bool.or_eq_true, beq_iff_eq] at h
  rcases h with h | rfl
  · simp [isNameChar, isWord, Char.isAlphanum, h]
  · decide

theorem isBlank_of_isNameStart {c : Char} (h : isNameStart c = true) : isBlank c = false :=
  isBlank_of_isNameChar (isNameChar_of_isNameStart h)

theorem isNumberChar_of_isNameStart {c : Char} (h : isNameStart c = true) :
    isNumberChar c = false := by
  have hascii : c.toNat < 128 := by
    rw [isNameStart, Bool.or_eq_true, beq_iff_eq] at h
    rcases h with h | rfl
    · have hletter : (c.isUpper || c.isLower) = true := h
      have hval : c.toNat = c.val.toNat := rfl
      rcases (Bool.or_eq_true _ _).mp hletter with h | h
      · have hrange : c.val ≥ 'A'.val ∧ c.val ≤ 'Z'.val := of_decide_eq_true h
        have := UInt32.le_iff_toNat_le.1 hrange.2
        have h90 : ('Z' : Char).val.toNat = 90 := rfl
        omega
      · have hrange : (decide (c.val ≥ 'a'.val) && decide (c.val ≤ 'z'.val)) = true := h
        have := UInt32.le_iff_toNat_le.1 (of_decide_eq_true (Bool.and_eq_true_iff.1 hrange).2)
        have h122 : ('z' : Char).val.toNat = 122 := rfl
        omega
    · decide
  have hall : ∀ n < 128, isNameStart (Char.ofNat n) = true →
      isNumberChar (Char.ofNat n) = false := by decide +kernel
  have hc := hall c.toNat hascii
  rw [Char.ofNat_toNat] at hc
  exact hc h

/-! ## The grammar -/

/-- Any number of keys with their literals: white space, a name, an equals sign with white space
around it, and a literal. -/
inductive IsAttributes : List (List Char × Literal) → List Char → Prop
  | nil : IsAttributes [] []
  | cons {a b c key s : List Char} {l : Literal} {rest : List (List Char × Literal)} :
      isBlankText a = true → IsName key → isBlankText b = true → isBlankText c = true →
      l.IsWritten → IsAttributes rest s →
      IsAttributes ((key, l) :: rest) (a ++ (key ++ (b ++ '=' :: (c ++ (l.text ++ s)))))

/-- Literals with white space around them and commas between them. A comma may follow the last one
if nothing follows the comma. -/
inductive IsArguments : List Literal → List Char → Prop
  | last {a b : List Char} {l : Literal} :
      isBlankText a = true → l.IsWritten → isBlankText b = true →
      IsArguments [l] (a ++ (l.text ++ b))
  | trailing {a b : List Char} {l : Literal} :
      isBlankText a = true → l.IsWritten → isBlankText b = true →
      IsArguments [l] (a ++ (l.text ++ (b ++ [','])))
  | cons {a b s : List Char} {l : Literal} {rest : List Literal} :
      isBlankText a = true → l.IsWritten → isBlankText b = true → IsArguments rest s →
      IsArguments (l :: rest) (a ++ (l.text ++ (b ++ ',' :: s)))

/-- A name alone, or a name, at least one blank character and attributes. -/
inductive IsTag : List Char → List (List Char × Literal) → List Char → Prop
  | bare {name : List Char} : IsName name → IsTag name [] name
  | spaced {name a s : List Char} {as : List (List Char × Literal)} :
      IsName name → isBlankText a = true → a ≠ [] → IsAttributes as s →
      IsTag name as (name ++ (a ++ s))

/-- What is written in a directive, white space left out. -/
inductive Form where
  | closing (name : List Char)
  | call (name : List Char) (arguments : List Literal)
  | opening (name : List Char) (attributes : List (List Char × Literal))
  | selfClosing (name : List Char) (attributes : List (List Char × Literal))

inductive IsForm : Form → List Char → Prop
  | closing {a name : List Char} : isBlankText a = true → IsName name →
      IsForm (.closing name) ('/' :: (a ++ name))
  | emptyCall {name a s : List Char} : IsName name → isBlankText a = true →
      isBlankText s = true → IsForm (.call name []) (name ++ (a ++ '(' :: (s ++ [')'])))
  | call {name a s : List Char} {ls : List Literal} : IsName name → isBlankText a = true →
      IsArguments ls s → IsForm (.call name ls) (name ++ (a ++ '(' :: (s ++ [')'])))
  | opening {name s : List Char} {as : List (List Char × Literal)} : IsTag name as s →
      IsForm (.opening name as) s
  | selfClosing {name s a : List Char} {as : List (List Char × Literal)} : IsTag name as s →
      isBlankText a = true → IsForm (.selfClosing name as) (s ++ (a ++ ['/']))

namespace Form

def literals : Form → List Literal
  | .closing _ => []
  | .call _ ls => ls
  | .opening _ as | .selfClosing _ as => as.map Prod.snd

/-- The attributes with their values; a key written twice keeps its first place and its last
value. -/
def attributes (as : List (List Char × Literal)) : Attributes :=
  Ordered.overlay [] (as.map fun e => (String.ofList e.1, e.2.meaning))

def directive : Form → Directive
  | .closing name => .closing (String.ofList name)
  | .call name ls => .call (String.ofList name) (ls.map Literal.meaning)
  | .opening name as => .opening (String.ofList name) (attributes as)
  | .selfClosing name as => .selfClosing (String.ofList name) (attributes as)

end Form

/-! ## Where tokens start and end -/

def isTokenEnd (c : Char) : Bool := isNameChar c || isDecimalDigit c || c == '"'

def EndsToken (s : List Char) : Prop := ∃ t c, s = t ++ [c] ∧ isTokenEnd c = true

section

variable {a b s t name : List Char} {c : Char} {l : Literal} {p : Char → Bool}

theorem EndsToken.append (h : EndsToken b) (a : List Char) : EndsToken (a ++ b) := by
  obtain ⟨t, c, rfl, hc⟩ := h
  exact ⟨a ++ t, c, by simp, hc⟩

theorem EndsToken.stops (h : EndsToken s) (hp : ∀ c, p c = true → isTokenEnd c = false) :
    Stops p s.reverse := by
  obtain ⟨t, c, rfl, hc⟩ := h
  rw [List.reverse_append, List.reverse_singleton, List.singleton_append, stops_cons]
  exact Bool.eq_false_iff.2 fun h => Bool.eq_false_iff.1 (hp c h) hc

theorem isTokenEnd_of_isBlank (h : isBlank c = true) : isTokenEnd c = false :=
  eq_false_of_isBlank (by decide +kernel) h

theorem isTokenEnd_of_isClosingMark (h : isClosingMark c = true) : isTokenEnd c = false := by
  simp only [isClosingMark, Bool.or_eq_true, beq_iff_eq] at h
  rcases h with rfl | rfl <;> decide +kernel

theorem EndsToken.trimmed (h : EndsToken s) : Stops isBlank s.reverse :=
  h.stops fun _ => isTokenEnd_of_isBlank

theorem EndsToken.unmarked (h : EndsToken s) : Stops isClosingMark s.reverse :=
  h.stops fun _ => isTokenEnd_of_isClosingMark

theorem endsToken_of_forall (hs : s ≠ []) (h : ∀ c ∈ s, isTokenEnd c = true) : EndsToken s :=
  ⟨s.dropLast, s.getLast hs, (List.dropLast_concat_getLast hs).symm, h _ (List.getLast_mem hs)⟩

theorem IsName.isNameChar (h : IsName name) : ∀ c ∈ name, isNameChar c = true := by
  cases name with
  | nil => exact h.elim
  | cons c r => exact List.forall_mem_cons.2 ⟨isNameChar_of_isNameStart h.1, h.2⟩

theorem IsName.endsToken (h : IsName name) : EndsToken name := by
  have hne : name ≠ [] := by
    rintro rfl
    exact h
  exact endsToken_of_forall hne fun c hc => by simp [isTokenEnd, h.isNameChar c hc]

theorem IsName.stops (h : IsName name) (hp : ∀ c, isNameStart c = true → p c = false)
    (t : List Char) : Stops p (name ++ t) := by
  cases name with
  | nil => exact h.elim
  | cons c r => exact stops_cons.2 (hp c h.1)

theorem NumberLiteral.IsDigits.endsToken (h : NumberLiteral.IsDigits s) : EndsToken s :=
  endsToken_of_forall h.1 fun c hc => by simp [isTokenEnd, h.2 c hc]

theorem Literal.IsWritten.endsToken (h : l.IsWritten) : EndsToken l.text := by
  cases l with
  | string inside => exact ⟨'"' :: inside, '"', by simp [text], by decide +kernel⟩
  | number n =>
    obtain ⟨negative, whole, fraction⟩ := n
    obtain ⟨hw, hf⟩ := h
    apply EndsToken.append
    cases fraction with
    | none =>
      rw [NumberLiteral.fractionText, List.append_nil]
      exact NumberLiteral.IsDigits.endsToken hw
    | some f => exact ((NumberLiteral.IsDigits.endsToken (hf f rfl)).append ['.']).append whole
  | yes => exact ⟨['t', 'r', 'u'], 'e', rfl, by decide +kernel⟩
  | no => exact ⟨['f', 'a', 'l', 's'], 'e', rfl, by decide +kernel⟩
  | null => exact ⟨['n', 'u', 'l'], 'l', rfl, by decide +kernel⟩

theorem Literal.IsWritten.stops (h : l.IsWritten) (t : List Char) :
    Stops isBlank (l.text ++ t) := by
  cases l with
  | string inside => exact stops_cons.2 (by decide)
  | number n =>
    obtain ⟨negative, whole, fraction⟩ := n
    obtain ⟨⟨hne, hw⟩, -⟩ := h
    cases negative with
    | true => exact stops_cons.2 (by decide)
    | false =>
      obtain ⟨c, r, rfl⟩ := List.exists_cons_of_ne_nil hne
      apply stops_cons.2
      apply isBlank_of_isNumberChar
      simp [isNumberChar, hw c (List.mem_cons_self ..)]
  | yes | no | null => exact stops_cons.2 (by decide)

/-- White space puts nothing of a class without blank characters before a text. -/
theorem stops_blank_append (hp : ∀ c, isBlank c = true → p c = false) (ha : isBlankText a = true)
    (ht : Stops p t) : Stops p (a ++ t) := by
  cases a with
  | nil => exact ht
  | cons c a =>
    rw [isBlankText, List.all_cons, Bool.and_eq_true] at ha
    exact stops_cons.2 (hp c ha.1)

theorem stops_of_isBlankText (hp : ∀ c, isBlank c = true → p c = false)
    (ha : isBlankText a = true) : Stops p a := by
  have h := stops_blank_append hp ha (stops_nil p)
  rwa [List.append_nil] at h

end

/-! ## One attribute -/

def attribute? (s : List Char) : Option ((List Char × Literal) × List Char) :=
  match takeName? (stripLeft s) with
  | none => none
  | some (key, r) =>
    match stripLeft r with
    | '=' :: r => (takeLiteral? (stripLeft r)).map fun p => ((key, p.1), p.2)
    | _ => none

theorem attribute?_of_isWritten {a b c key rest : List Char} {l : Literal}
    (ha : isBlankText a = true) (hkey : IsName key) (hb : isBlankText b = true)
    (hc : isBlankText c = true) (hl : l.IsWritten) (hrest : Stops isNumberChar rest) :
    attribute? (a ++ (key ++ (b ++ '=' :: (c ++ (l.text ++ rest))))) = some ((key, l), rest) := by
  have hname : takeName? (key ++ (b ++ '=' :: (c ++ (l.text ++ rest)))) =
      some (key, b ++ '=' :: (c ++ (l.text ++ rest))) :=
    takeName?_eq_some_iff.2 ⟨hkey,
      stops_blank_append (fun _ => isNameChar_of_isBlank) hb (by rw [stops_cons]; decide +kernel),
      rfl⟩
  have hsign : stripLeft (b ++ '=' :: (c ++ (l.text ++ rest))) =
      '=' :: (c ++ (l.text ++ rest)) := by
    rw [stripLeft_append hb, stripLeft_of_stops (by rw [stops_cons]; decide)]
  have hliteral : stripLeft (c ++ (l.text ++ rest)) = l.text ++ rest := by
    rw [stripLeft_append hc, stripLeft_of_stops (hl.stops rest)]
  rw [attribute?, stripLeft_append ha,
    stripLeft_of_stops (hkey.stops (fun _ => isBlank_of_isNameStart) _), hname]
  simp only [hsign, hliteral, takeLiteral?_of_isWritten hl hrest, Option.map_some]

theorem exists_of_attribute? {s key rest : List Char} {l : Literal}
    (h : attribute? s = some ((key, l), rest)) : ∃ a b c, isBlankText a = true ∧ IsName key ∧
      isBlankText b = true ∧ isBlankText c = true ∧ l.IsWritten ∧
        s = a ++ (key ++ (b ++ '=' :: (c ++ (l.text ++ rest)))) := by
  unfold attribute? at h
  split at h
  · cases h
  · rename_i name r hname
    split at h
    · rename_i r' hsign
      obtain ⟨p, hp, he⟩ := Option.map_eq_some_iff.1 h
      obtain ⟨hk, rfl⟩ := Prod.mk.inj he
      obtain ⟨rfl, rfl⟩ := Prod.mk.inj hk
      obtain ⟨hkey, -, hs⟩ := takeName?_eq_some_iff.1 hname
      obtain ⟨hl, hr'⟩ := isWritten_of_takeLiteral? hp
      obtain ⟨a, ha, hsa⟩ := exists_stripLeft s
      obtain ⟨b, hb, hrb⟩ := exists_stripLeft r
      obtain ⟨c, hc, hrc⟩ := exists_stripLeft r'
      refine ⟨a, b, c, ha, hkey, hb, hc, hl, ?_⟩
      rw [← hr', ← hrc, ← hsign, ← hrb, ← hs]
      exact hsa
    · cases h

theorem attributes_eq (source s : List Char) (found : Attributes) :
    attributes source s found =
      if isBlankText s then .ok found
      else
        match attribute? s with
        | none => .error (.invalidAttribute (String.ofList source) (String.ofList (strip s)))
        | some ((key, l), rest) =>
          match l.value with
          | .error e => .error e
          | .ok v => attributes source rest (found.set (String.ofList key) v) := by
  rw [attributes]
  split
  · rfl
  · dsimp only
    split
    · rename_i hname
      simp only [attribute?, hname]
    · rename_i key r hname
      split
      · rename_i r' hsign
        split
        · rename_i hl
          simp only [attribute?, hname, hsign, hl, Option.map_none]
        · rename_i l rest hl
          cases hv : l.value <;> simp only [attribute?, hname, hsign, hl, hv, Option.map_some]
      · rename_i hsign
        simp only [attribute?, hname]

/-! ## All attributes -/

def LooseAttributes (as : List (List Char × Literal)) (s : List Char) : Prop :=
  ∃ t b, s = t ++ b ∧ isBlankText b = true ∧ IsAttributes as t

section

variable {as as' : List (List Char × Literal)} {a b s : List Char}

theorem looseAttributes_nil (h : isBlankText s = true) : LooseAttributes [] s :=
  ⟨[], s, rfl, h, .nil⟩

theorem looseAttributes_nil_iff : LooseAttributes [] s ↔ isBlankText s = true := by
  constructor
  · rintro ⟨t, b, rfl, hb, hnil⟩
    cases hnil
    exact hb
  · exact looseAttributes_nil

theorem looseAttributes_blank_append (ha : isBlankText a = true) (h : LooseAttributes as s) :
    LooseAttributes as (a ++ s) := by
  obtain ⟨t, b, rfl, hb, ht⟩ := h
  cases ht with
  | nil => exact looseAttributes_nil (isBlankText_append.2 ⟨ha, hb⟩)
  | @cons a₁ b₁ c₁ key t l as ha₁ hkey hb₁ hc hl ht =>
    refine ⟨_, b, ?_, hb, .cons (isBlankText_append.2 ⟨ha, ha₁⟩) hkey hb₁ hc hl ht⟩
    simp

theorem looseAttributes_of_isAttributes (h : IsAttributes as s) : LooseAttributes as s :=
  ⟨s, [], by simp, rfl, h⟩

/-- What follows a literal among attributes is no part of it. -/
theorem LooseAttributes.stops (h : LooseAttributes as s) : Stops isNumberChar s := by
  obtain ⟨t, b, rfl, hb, ht⟩ := h
  cases ht with
  | nil => exact stops_of_isBlankText (fun _ => isNumberChar_of_isBlank) hb
  | cons ha hkey =>
    rw [List.append_assoc, List.append_assoc]
    exact stops_blank_append (fun _ => isNumberChar_of_isBlank) ha
      (hkey.stops (fun _ => isNumberChar_of_isNameStart) _)

theorem looseAttributes_cons_iff {e : List Char × Literal} :
    LooseAttributes (e :: as) s ↔
      ∃ rest, attribute? s = some (e, rest) ∧ LooseAttributes as rest := by
  obtain ⟨key, l⟩ := e
  constructor
  · rintro ⟨t, b, rfl, hb, hcons⟩
    cases hcons with
    | @cons a₁ b₁ c₁ _ t₁ _ _ ha hkey hb₁ hc hl hrest =>
      have hloose : LooseAttributes as (t₁ ++ b) := ⟨t₁, b, rfl, hb, hrest⟩
      refine ⟨t₁ ++ b, ?_, hloose⟩
      have hstep := attribute?_of_isWritten ha hkey hb₁ hc hl hloose.stops
      simpa using hstep
  · rintro ⟨rest, hstep, t, b, rfl, hb, ht⟩
    obtain ⟨a₁, b₁, c₁, ha, hkey, hb₁, hc, hl, rfl⟩ := exists_of_attribute? hstep
    exact ⟨_, b, by simp, hb, .cons ha hkey hb₁ hc hl ht⟩

theorem isBlankText_of_attribute? {p : (List Char × Literal) × List Char}
    (h : attribute? s = some p) : isBlankText s = false := by
  obtain ⟨⟨key, l⟩, rest⟩ := p
  obtain ⟨a₁, b₁, c₁, -, hkey, -, -, -, rfl⟩ := exists_of_attribute? h
  rw [← Bool.not_eq_true, isBlankText_append, isBlankText_append]
  rintro ⟨-, hk, -⟩
  have hstops := hkey.stops (fun _ => isBlank_of_isNameStart) []
  rw [List.append_nil] at hstops
  rw [isBlankText_of_stops hstops] at hk
  exact (hk ▸ hkey : IsName [])

theorem LooseAttributes.eq_nil (h : LooseAttributes as s) (hb : isBlankText s = true) :
    as = [] := by
  cases as with
  | nil => rfl
  | cons e as =>
    obtain ⟨rest, hstep, -⟩ := looseAttributes_cons_iff.1 h
    rw [isBlankText_of_attribute? hstep] at hb
    cases hb

theorem LooseAttributes.exists_cons (h : LooseAttributes as s) (hb : isBlankText s = false) :
    ∃ e rest as', attribute? s = some (e, rest) ∧ LooseAttributes as' rest ∧ as = e :: as' := by
  cases as with
  | nil =>
    rw [looseAttributes_nil_iff, hb] at h
    cases h
  | cons e as =>
    obtain ⟨rest, hstep, hrest⟩ := looseAttributes_cons_iff.1 h
    exact ⟨e, rest, as, hstep, hrest, rfl⟩

theorem LooseAttributes.unique (h : LooseAttributes as s) (h' : LooseAttributes as' s) :
    as = as' := by
  induction as generalizing s as' with
  | nil => exact (h'.eq_nil (looseAttributes_nil_iff.1 h)).symm
  | cons e as ih =>
    obtain ⟨rest, hstep, hrest⟩ := looseAttributes_cons_iff.1 h
    obtain ⟨e', rest', as'', hstep', hrest', rfl⟩ :=
      h'.exists_cons (isBlankText_of_attribute? hstep)
    obtain ⟨rfl, rfl⟩ := Prod.mk.inj (Option.some.inj (hstep.symm.trans hstep'))
    rw [ih hrest hrest']

theorem length_of_attribute? {e : List Char × Literal} {rest : List Char}
    (h : attribute? s = some (e, rest)) : rest.length < s.length := by
  obtain ⟨key, l⟩ := e
  obtain ⟨a₁, b₁, c₁, -, -, -, -, -, rfl⟩ := exists_of_attribute? h
  simp only [List.length_append, List.length_cons]
  omega

end

theorem attributes_eq_ok_iff (source s : List Char) (found d : Attributes) :
    attributes source s found = .ok d ↔ ∃ as, LooseAttributes as s ∧
      (∀ e ∈ as, e.2.IsValid) ∧
        d = Ordered.overlay found (as.map fun e => (String.ofList e.1, e.2.meaning)) := by
  rw [attributes_eq]
  cases hblank : isBlankText s with
  | true =>
    rw [if_pos rfl]
    constructor
    · intro h
      exact ⟨[], looseAttributes_nil hblank, by simp, (Except.ok.inj h).symm⟩
    · rintro ⟨as, has, -, rfl⟩
      rw [has.eq_nil hblank]
      rfl
  | false =>
    rw [if_neg (by simp)]
    cases hstep : attribute? s with
    | none =>
      simp only [reduceCtorEq, false_iff]
      rintro ⟨as, has, -⟩
      obtain ⟨e, rest, as', hsome, -⟩ := has.exists_cons hblank
      exact nomatch hstep.symm.trans hsome
    | some p =>
      obtain ⟨⟨key, l⟩, rest⟩ := p
      have hshorter := length_of_attribute? hstep
      have hrest := attributes_eq_ok_iff source rest (found.set (String.ofList key) l.meaning) d
      by_cases hl : l.IsValid
      · simp only [value_of_isValid hl, hrest]
        constructor
        · rintro ⟨as, has, hvalid, rfl⟩
          exact ⟨(key, l) :: as, looseAttributes_cons_iff.2 ⟨rest, hstep, has⟩,
            List.forall_mem_cons.2 ⟨hl, hvalid⟩, rfl⟩
        · rintro ⟨as, has, hvalid, rfl⟩
          obtain ⟨e, rest', as', hsome, has', rfl⟩ := has.exists_cons hblank
          obtain ⟨rfl, rfl⟩ := Prod.mk.inj (Option.some.inj (hstep.symm.trans hsome))
          exact ⟨as', has', (List.forall_mem_cons.1 hvalid).2, rfl⟩
      · obtain ⟨f, hf, -⟩ := value_of_not_isValid hl
        simp only [hf, reduceCtorEq, false_iff]
        rintro ⟨as, has, hvalid, -⟩
        obtain ⟨e, rest', as', hsome, -, rfl⟩ := has.exists_cons hblank
        obtain ⟨rfl, rfl⟩ := Prod.mk.inj (Option.some.inj (hstep.symm.trans hsome))
        exact hl (List.forall_mem_cons.1 hvalid).1
termination_by s.length

end DocPress.Directive
