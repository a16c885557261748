import DocPress.Proofs.Directive.Grammar

/-!
# Reading the parts of a directive

Each part of the reader, on the text that its caller leaves it, finds what the
grammar has there: the arguments of a call, the parentheses of a call, the slash of
a tag without content, the name and the attributes of a tag.
-/

set_option autoImplicit false

namespace DocPress.Directive

open Text

variable {a b s t name inside source body rest : List Char}

/-! ## Arguments -/

theorem map_eq_ok_iff {ε α β : Type} {f : α → β} {x : Except ε α} {y : β} :
    x.map f = .ok y ↔ ∃ a, x = .ok a ∧ f a = y := by
  cases x <;> simp [Except.map]

def argument? (s : List Char) : Option (Literal × List Char) :=
  (takeLiteral? (stripLeft s)).map fun p => (p.1, stripLeft p.2)

theorem argument?_of_isWritten {l : Literal} (ha : isBlankText a = true) (hl : l.IsWritten)
    (hb : isBlankText b = true) (hr : Stops isBlank rest) (hn : Stops isNumberChar rest) :
    argument? (a ++ (l.text ++ (b ++ rest))) = some (l, rest) := by
  have hafter := stops_blank_append (fun _ => isNumberChar_of_isBlank) hb hn
  rw [argument?, stripLeft_append ha, stripLeft_of_stops (hl.stops _),
    takeLiteral?_of_isWritten hl hafter, Option.map_some, stripLeft_append hb,
    stripLeft_of_stops hr]

theorem exists_of_argument? {l : Literal} (h : argument? s = some (l, rest)) :
    ∃ a b, isBlankText a = true ∧ l.IsWritten ∧ isBlankText b = true ∧
      s = a ++ (l.text ++ (b ++ rest)) := by
  obtain ⟨p, hp, he⟩ := Option.map_eq_some_iff.1 h
  obtain ⟨rfl, rfl⟩ := Prod.mk.inj he
  obtain ⟨hl, hs⟩ := isWritten_of_takeLiteral? hp
  obtain ⟨a, ha, hsa⟩ := exists_stripLeft s
  obtain ⟨b, hb, hpb⟩ := exists_stripLeft p.2
  refine ⟨a, b, ha, hl, hb, ?_⟩
  rw [← hpb, ← hs]
  exact hsa

theorem arguments_eq (source s : List Char) :
    arguments source s =
      if s = [] then .ok []
      else
        match argument? s with
        | none => .error (.invalidArguments (String.ofList source))
        | some (l, []) => l.value.map ([·])
        | some (l, ',' :: rest) =>
          match l.value with
          | .error e => .error e
          | .ok v => (arguments source rest).map (v :: ·)
        | some _ => .error (.invalidArguments (String.ofList source)) := by
  rw [arguments]
  simp only [List.isEmpty_iff]
  split
  · rfl
  · split
    · rename_i hl
      simp only [argument?, hl, Option.map_none]
    · rename_i l r hl
      split
      · rename_i hr
        simp only [argument?, hl, hr, Option.map_some]
        cases l.value <;> rfl
      · rename_i rest hr
        simp only [argument?, hl, hr, Option.map_some]
        cases l.value with
        | error e => rfl
        | ok v => cases arguments source rest <;> rfl
      · rename_i hnil hcomma
        simp only [argument?, hl, Option.map_some]
        split
        · rename_i he
          cases he
        · rename_i he
          exact (hnil (Prod.mk.inj (Option.some.inj he)).2).elim
        · rename_i he
          exact (hcomma _ (Prod.mk.inj (Option.some.inj he)).2).elim
        · rfl

def LooseArguments (ls : List Literal) (s : List Char) : Prop :=
  (ls = [] ∧ s = []) ∨ IsArguments ls s

theorem isArguments_iff {ls : List Literal} : IsArguments ls s ↔ ∃ l r, argument? s = some (l, r) ∧
    ((r = [] ∧ ls = [l]) ∨
      ∃ rest ls', r = ',' :: rest ∧ LooseArguments ls' rest ∧ ls = l :: ls') := by
  constructor
  · intro h
    have hcomma : ∀ rest, Stops isBlank (',' :: rest) ∧ Stops isNumberChar (',' :: rest) :=
      fun _ => ⟨stops_cons.2 (by decide), stops_cons.2 (by decide)⟩
    cases h with
    | @last a b l ha hl hb =>
      refine ⟨l, [], ?_, .inl ⟨rfl, rfl⟩⟩
      have h := argument?_of_isWritten ha hl hb (stops_nil _) (stops_nil _)
      rwa [List.append_nil] at h
    | @trailing a b l ha hl hb =>
      exact ⟨l, [','], argument?_of_isWritten ha hl hb (hcomma []).1 (hcomma []).2,
        .inr ⟨[], [], rfl, .inl ⟨rfl, rfl⟩, rfl⟩⟩
    | @cons a b s l ls ha hl hb hs =>
      exact ⟨l, ',' :: s, argument?_of_isWritten ha hl hb (hcomma s).1 (hcomma s).2,
        .inr ⟨s, ls, rfl, .inr hs, rfl⟩⟩
  · rintro ⟨l, r, hstep, hr⟩
    obtain ⟨a, b, ha, hl, hb, rfl⟩ := exists_of_argument? hstep
    rcases hr with ⟨rfl, rfl⟩ | ⟨rest, ls', rfl, ⟨rfl, rfl⟩ | hrest, rfl⟩
    · rw [List.append_nil]
      exact .last ha hl hb
    · exact .trailing ha hl hb
    · exact .cons ha hl hb hrest

theorem isArguments_of_end {ls : List Literal} {l : Literal} (h : argument? s = some (l, [])) :
    IsArguments ls s ↔ ls = [l] := by
  rw [isArguments_iff, h]
  constructor
  · rintro ⟨k, r, he, ⟨-, rfl⟩ | ⟨_, _, rfl, -⟩⟩
    · rw [(Prod.mk.inj (Option.some.inj he)).1]
    · cases he
  · rintro rfl
    exact ⟨l, [], rfl, .inl ⟨rfl, rfl⟩⟩

theorem isArguments_of_comma {ls : List Literal} {l : Literal}
    (h : argument? s = some (l, ',' :: rest)) :
    IsArguments ls s ↔ ∃ ls', LooseArguments ls' rest ∧ ls = l :: ls' := by
  rw [isArguments_iff, h]
  constructor
  · rintro ⟨k, r, he, ⟨rfl, -⟩ | ⟨rest', ls', rfl, hls, rfl⟩⟩
    · cases he
    · cases he
      exact ⟨ls', hls, rfl⟩
  · rintro ⟨ls', hls, rfl⟩
    exact ⟨l, _, rfl, .inr ⟨rest, ls', rfl, hls, rfl⟩⟩

theorem argument?_eq_none (h : isBlankText s = true) : argument? s = none := by
  rw [argument?, (stripLeft_eq_nil_iff s).2 h]
  rfl

theorem isBlankText_of_isArguments {ls : List Literal} (h : IsArguments ls s) :
    isBlankText s = false := by
  obtain ⟨l, r, hstep, -⟩ := isArguments_iff.1 h
  rw [← Bool.not_eq_true]
  intro hb
  rw [argument?_eq_none hb] at hstep
  cases hstep

theorem looseArguments_nil {ls : List Literal} : LooseArguments ls [] ↔ ls = [] := by
  constructor
  · rintro (⟨h, -⟩ | h)
    · exact h
    · exact absurd (isBlankText_of_isArguments h) (by simp)
  · exact fun h => .inl ⟨h, rfl⟩

theorem looseArguments_of_ne_nil {ls : List Literal} (h : s ≠ []) :
    LooseArguments ls s ↔ IsArguments ls s :=
  or_iff_right fun hs => h hs.2

theorem length_of_argument? {l : Literal} (h : argument? s = some (l, rest)) :
    rest.length < s.length := by
  obtain ⟨p, hp, he⟩ := Option.map_eq_some_iff.1 h
  obtain ⟨rfl, rfl⟩ := Prod.mk.inj he
  have h1 := takeLiteral?_length hp
  have h2 := dropWhile_length_le isBlank s
  have h3 := dropWhile_length_le isBlank p.2
  simp only [stripLeft] at h1 ⊢
  omega

theorem LooseArguments.unique {ls ls' : List Literal} (h : LooseArguments ls s)
    (h' : LooseArguments ls' s) : ls = ls' := by
  induction ls generalizing s ls' with
  | nil =>
    rcases h with ⟨-, rfl⟩ | h
    · exact (looseArguments_nil.1 h').symm
    · obtain ⟨l, r, -, ⟨-, hnil⟩ | ⟨_, _, -, -, hnil⟩⟩ := isArguments_iff.1 h <;> cases hnil
  | cons l ls ih =>
    have hs : s ≠ [] := by
      rintro rfl
      exact nomatch looseArguments_nil.1 h
    rw [looseArguments_of_ne_nil hs] at h h'
    obtain ⟨k, r, hstep, ⟨rfl, hls⟩ | ⟨rest, rs, rfl, hrest, hls⟩⟩ := isArguments_iff.1 h
    · rw [hls, (isArguments_of_end hstep).1 h']
    · obtain ⟨rfl, rfl⟩ := List.cons.inj hls
      obtain ⟨rs', hrest', rfl⟩ := (isArguments_of_comma hstep).1 h'
      rw [ih hrest hrest']

theorem arguments_eq_ok_iff (source s : List Char) (vs : List Value) :
    arguments source s = .ok vs ↔ ∃ ls, LooseArguments ls s ∧ (∀ l ∈ ls, l.IsValid) ∧
      vs = ls.map Literal.meaning := by
  rw [arguments_eq]
  split
  · rename_i hs
    subst hs
    simp [looseArguments_nil, eq_comm]
  · rename_i hne
    simp only [looseArguments_of_ne_nil hne]
    split
    · rename_i hstep
      simp [isArguments_iff, hstep]
    · rename_i l hstep
      simp only [isArguments_of_end hstep, map_eq_ok_iff, value_eq_ok_iff]
      constructor
      · rintro ⟨v, ⟨hl, rfl⟩, rfl⟩
        exact ⟨[l], rfl, List.forall_mem_singleton.2 hl, rfl⟩
      · rintro ⟨_, rfl, hvalid, rfl⟩
        exact ⟨_, ⟨List.forall_mem_singleton.1 hvalid, rfl⟩, rfl⟩
    · rename_i l rest hstep
      have hshorter : rest.length < s.length := Nat.lt_of_succ_lt (length_of_argument? hstep)
      have hrest := arguments_eq_ok_iff source rest
      simp only [isArguments_of_comma hstep]
      cases hl : l.value with
      | error e =>
        simp only [reduceCtorEq, false_iff]
        rintro ⟨_, ⟨ls, -, rfl⟩, hvalid, -⟩
        rw [value_of_isValid (List.forall_mem_cons.1 hvalid).1] at hl
        cases hl
      | ok v =>
        obtain ⟨hvalid, rfl⟩ := value_eq_ok_iff.1 hl
        constructor
        · intro h
          obtain ⟨ws, hws, rfl⟩ := map_eq_ok_iff.1 h
          obtain ⟨ls, hls, hvalids, rfl⟩ := (hrest ws).1 hws
          exact ⟨_, ⟨ls, hls, rfl⟩, List.forall_mem_cons.2 ⟨hvalid, hvalids⟩, rfl⟩
        · rintro ⟨_, ⟨ls, hls, rfl⟩, hvalids, rfl⟩
          rw [(hrest _).2 ⟨ls, hls, (List.forall_mem_cons.1 hvalids).2, rfl⟩]
          rfl
    · rename_i p hend hcomma hstep
      simp only [reduceCtorEq, false_iff, isArguments_iff]
      rintro ⟨ls, ⟨l, r, he, ⟨rfl, -⟩ | ⟨rest, _, rfl, -⟩⟩, -⟩
      · exact hend l (Option.some.inj (hstep.symm.trans he))
      · exact hcomma l rest (Option.some.inj (hstep.symm.trans he))
termination_by s.length

/-! ## Calls and tags -/

theorem call?_of_isName (hn : IsName name) (ha : isBlankText a = true) (inside : List Char) :
    call? (name ++ (a ++ '(' :: (inside ++ [')']))) = some (name, inside) := by
  have hname : takeName? (name ++ (a ++ '(' :: (inside ++ [')']))) =
      some (name, a ++ '(' :: (inside ++ [')'])) :=
    takeName?_eq_some_iff.2 ⟨hn, stops_blank_append (fun _ => isNameChar_of_isBlank) ha
      (stops_cons.2 (by decide +kernel)), rfl⟩
  have hopen : stripLeft (a ++ '(' :: (inside ++ [')'])) = '(' :: (inside ++ [')']) := by
    rw [stripLeft_append ha, stripLeft_of_stops (stops_cons.2 (by decide))]
  rw [call?, hname]
  simp [hopen]

theorem call?_eq_some_iff : call? body = some (name, inside) ↔
    ∃ a, IsName name ∧ isBlankText a = true ∧ body = name ++ (a ++ '(' :: (inside ++ [')'])) := by
  constructor
  · intro h
    unfold call? at h
    split at h
    · cases h
    · rename_i n rest hname
      obtain ⟨hn, -, rfl⟩ := takeName?_eq_some_iff.1 hname
      split at h
      · rename_i r hopen
        split at h
        · rename_i b hclose
          obtain ⟨rfl, rfl⟩ := Prod.mk.inj (Option.some.inj h)
          obtain ⟨a, ha, hrest⟩ := exists_stripLeft rest
          refine ⟨a, hn, ha, ?_⟩
          rw [hrest, hopen, ← List.reverse_reverse r, hclose, List.reverse_cons]
        · cases h
      · cases h
  · rintro ⟨a, hn, ha, rfl⟩
    exact call?_of_isName hn ha inside

theorem selfClosing?_append (t : List Char) : selfClosing? (t ++ ['/']) = some (stripRight t) := by
  simp [selfClosing?]

theorem selfClosing?_eq_some_iff : selfClosing? body = some b ↔
    ∃ t, body = t ++ ['/'] ∧ b = stripRight t := by
  unfold selfClosing?
  constructor
  · intro h
    split at h
    · rename_i r hr
      refine ⟨r.reverse, ?_, (Option.some.inj h).symm⟩
      rw [← List.reverse_reverse body, hr, List.reverse_cons]
    · cases h
  · rintro ⟨t, rfl, rfl⟩
    exact selfClosing?_append t

/-- The characters after the name of a tag are attributes, of which white space comes first. -/
theorem takeName?_of_isTag {as : List (List Char × Literal)} (h : IsTag name as s) :
    ∃ rest, takeName? s = some (name, rest) ∧ (rest.head?.map isBlank).getD true = true ∧
      LooseAttributes as rest := by
  cases h with
  | bare hn =>
    refine ⟨[], takeName?_eq_some_iff.2 ⟨hn, stops_nil _, ?_⟩, rfl, looseAttributes_nil rfl⟩
    rw [List.append_nil]
  | @spaced a t _ hn ha hne ht =>
    obtain ⟨c, r, rfl⟩ := List.exists_cons_of_ne_nil hne
    have hc : isBlank c = true := List.all_eq_true.1 ha c (List.mem_cons_self ..)
    refine ⟨c :: r ++ t, takeName?_eq_some_iff.2 ⟨hn, stops_cons.2 (isNameChar_of_isBlank hc), rfl⟩,
      hc, ?_⟩
    exact looseAttributes_blank_append ha (looseAttributes_of_isAttributes ht)

theorem IsTag.unique {name' : List Char} {as as' : List (List Char × Literal)}
    (h : IsTag name as s) (h' : IsTag name' as' s) : name = name' ∧ as = as' := by
  obtain ⟨rest, hname, -, has⟩ := takeName?_of_isTag h
  obtain ⟨rest', hname', -, has'⟩ := takeName?_of_isTag h'
  obtain ⟨rfl, rfl⟩ := Prod.mk.inj (Option.some.inj (hname.symm.trans hname'))
  exact ⟨rfl, has.unique has'⟩

/-- A name and attributes in a text that white space does not end are a tag. -/
theorem isTag_of_looseAttributes {as : List (List Char × Literal)} (hn : IsName name)
    (hblank : (rest.head?.map isBlank).getD true = true) (has : LooseAttributes as rest)
    (htrim : Stops isBlank (name ++ rest).reverse) : IsTag name as (name ++ rest) := by
  obtain ⟨t, b, rfl, hb, ht⟩ := has
  have hnil : b = [] := by
    have hstop := stops_reverse_of_append (stops_reverse_of_append htrim)
    rwa [← isBlankText_reverse, isBlankText_of_stops hstop, List.reverse_eq_nil_iff] at hb
  subst hnil
  rw [List.append_nil] at hblank ⊢
  cases ht with
  | nil =>
    rw [List.append_nil]
    exact .bare hn
  | @cons a b c key s l as ha hkey hb hc hl hs =>
    have hne : a ≠ [] := by
      rintro rfl
      have hstop := hkey.stops (fun _ => isBlank_of_isNameStart) (b ++ '=' :: (c ++ (l.text ++ s)))
      cases hd : key ++ (b ++ '=' :: (c ++ (l.text ++ s))) with
      | nil => simp at hd
      | cons d r =>
        rw [hd, stops_cons] at hstop
        simp [hd, hstop] at hblank
    exact .spaced hn ha hne (.cons (a := []) rfl hkey hb hc hl hs)

theorem tag_eq_ok_iff {n : String} {d : Attributes} (htrim : Stops isBlank body.reverse) :
    tag source body = .ok (n, d) ↔ ∃ name as, IsTag name as body ∧ (∀ e ∈ as, e.2.IsValid) ∧
      n = String.ofList name ∧ d = Form.attributes as := by
  constructor
  · intro h
    unfold tag at h
    split at h
    · cases h
    · rename_i name rest hname
      split at h
      · rename_i hblank
        split at h
        · cases h
        · rename_i found hfound
          obtain ⟨rfl, rfl⟩ := Prod.mk.inj (Except.ok.inj h)
          obtain ⟨hn, -, rfl⟩ := takeName?_eq_some_iff.1 hname
          obtain ⟨as, has, hvalid, hd⟩ := (attributes_eq_ok_iff _ _ _ _).1 hfound
          exact ⟨name, as, isTag_of_looseAttributes hn hblank has htrim, hvalid, rfl, hd⟩
      · cases h
  · rintro ⟨name, as, htag, hvalid, rfl, rfl⟩
    obtain ⟨rest, hname, hblank, has⟩ := takeName?_of_isTag htag
    have hattrs : attributes source rest [] = .ok (Form.attributes as) :=
      (attributes_eq_ok_iff _ _ _ _).2 ⟨as, has, hvalid, rfl⟩
    rw [tag, hname]
    simp [hblank, hattrs]

end DocPress.Directive
