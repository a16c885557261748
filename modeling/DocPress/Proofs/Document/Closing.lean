import DocPress.Document.Reading
import DocPress.Proofs.Document.Flattening
import Mathlib.Data.List.Forall2

/-!
# What a closing mark closes

In a stream whose containers are properly nested every closing mark has its opening mark, but
the builder looks for an open container of the kind alone. What is open is told here by the
tokens that opened it. Between the two marks of a container only tags are added to what is
open, and whatever is closed is taken off from the top. So a closing mark closes its own
container as long as that is open. If a directive has closed it before, the mark closes the
nearest container of the kind around it, and nothing only if there is none.
-/

set_option autoImplicit false

namespace DocPress.Document

namespace Token

def isLoose : Token → Bool
  | .opening _ | .closing _ | .inline _ => false
  | .hidden | .directive _ | .leaf _ | .unsupported _ => true

def isInline : Token → Bool
  | .inline _ => true
  | _ => false

def opensContainer (kind : NodeKind) : Token → Bool
  | .opening c => c.kind == kind
  | _ => false

def opensTag (name : String) : Token → Bool
  | .directive (.opening s _) => s == name
  | _ => false

def opensSomeTag : Token → Bool
  | .directive (.opening _ _) => true
  | _ => false

end Token

/-- A stream in which containers are opened and closed in pairs, properly nested, with anything
else between them. -/
inductive IsNested : List Token → Prop
  | nil : IsNested []
  | loose {t : Token} {ts : List Token} : t.isLoose = true → IsNested ts → IsNested (t :: ts)
  | block (c : Container) {inner ts : List Token} : IsNested inner → IsNested ts →
      IsNested (.opening c :: (inner ++ .closing c.kind :: ts))

theorem isInline_of_isLoose {t : Token} (h : t.isLoose = true) : t.isInline = false := by
  cases t <;> first | rfl | cases h

theorem IsNested.isInline_eq_false {ts : List Token} (h : IsNested ts) :
    ∀ t ∈ ts, t.isInline = false := by
  induction h with
  | nil => nofun
  | loose ht _ ih => exact List.forall_mem_cons.2 ⟨isInline_of_isLoose ht, ih⟩
  | block c _ _ ihinner ihts =>
    exact List.forall_mem_cons.2 ⟨rfl,
      List.forall_mem_append.2 ⟨ihinner, List.forall_mem_cons.2 ⟨rfl, ihts⟩⟩⟩

/-- An open node: the place of the token that opened it, and that token. -/
abbrev Opened := Nat × Token

namespace Builder

/-- What is open after a token at a place, by the number of nodes that are open then. -/
def openedAfter (opened : List Opened) (place : Nat) (t : Token) (height : Nat) : List Opened :=
  if opened.length < height then (place, t) :: opened
  else opened.drop (opened.length - height)

def openedFrom (source : String) (b : Builder) (opened : List Opened) (place : Nat) :
    List Token → List Opened
  | [] => opened
  | t :: ts =>
    let after := (feed source b t).1
    openedFrom source after (openedAfter opened place t after.frames.length) (place + 1) ts

def openMarks (source : String) (ts : List Token) : List Opened := openedFrom source .start [] 0 ts

inductive Opens : Token → Frame → Prop
  | container (c : Container) (children : List Node) :
      Opens (.opening c) ⟨c.kind, none, c.attributes, children⟩
  | tag (name : String) (attributes : Attributes) (children : List Node) :
      Opens (.directive (.opening name attributes)) ⟨.tag, some name, attributes, children⟩

def Matches (opened : List Opened) (b : Builder) : Prop :=
  List.Forall₂ (fun o f => Opens o.2 f) opened b.frames

/-! ## One token -/

section

variable {source : String} {opened : List Opened} {b : Builder}

theorem Opens.append {t : Token} {f : Frame} (h : Opens t f) (n : Node) :
    Opens t { f with children := n :: f.children } := by
  cases h with
  | container c children => exact .container c (n :: children)
  | tag name attributes children => exact .tag name attributes (n :: children)

theorem Matches.append (h : Matches opened b) (n : Node) : Matches opened (b.append n) := by
  obtain ⟨frames, roots⟩ := b
  cases h with
  | nil => exact .nil
  | cons hf hfs => exact .cons (hf.append n) hfs

theorem Matches.pop (h : Matches opened b) : Matches opened.tail b.pop := by
  obtain ⟨frames, roots⟩ := b
  cases h with
  | nil => exact .nil
  | @cons o f opened fs _ hfs =>
    have hrest : Matches opened ⟨fs, roots⟩ := hfs
    exact hrest.append f.node

theorem Matches.popMany (h : Matches opened b) (k : Nat) :
    Matches (opened.drop k) (popMany k b) := by
  induction k generalizing opened b with
  | zero => exact h
  | succ k ih =>
    rw [← List.drop_tail]
    exact ih h.pop

def closed (p : Token → Bool) (opened : List Opened) : Nat :=
  match opened.findIdx? (fun o => p o.2) with
  | none => 0
  | some i => i + 1

theorem findIdx?_eq {p : Token → Bool} {q : Frame → Bool}
    (hpq : ∀ t f, Opens t f → p t = q f) (h : Matches opened b) :
    opened.findIdx? (fun o => p o.2) = b.frames.findIdx? q := by
  obtain ⟨frames, roots⟩ := b
  change List.Forall₂ _ opened frames at h
  induction h with
  | nil => rfl
  | cons hf _ ih => rw [List.findIdx?_cons, List.findIdx?_cons, hpq _ _ hf, ih]

theorem opensContainer_eq (kind : NodeKind) {t : Token} {f : Frame} (h : Opens t f) :
    t.opensContainer kind = f.isContainer kind := by
  cases h <;> simp [Token.opensContainer, Frame.isContainer]

theorem opensTag_eq (name : String) {t : Token} {f : Frame} (h : Opens t f) :
    t.opensTag name = f.isTagNamed name := by
  cases h with
  | container c children => simp [Token.opensTag, Frame.isTagNamed]
  | tag s attributes children => simp [Token.opensTag, Frame.isTagNamed]

theorem closeContainer_eq (kind : NodeKind) (h : Matches opened b) :
    (closeContainer source kind b).1 =
      popMany (closed (Token.opensContainer kind) opened) b := by
  rw [closeContainer, closed, findIdx?_eq (fun _ _ => opensContainer_eq kind) h]
  cases b.frames.findIdx? (·.isContainer kind) <;> rfl

theorem closeTag_eq (name : String) (h : Matches opened b) :
    (closeTag source name b).1 = popMany (closed (Token.opensTag name) opened) b := by
  rw [closeTag, closed, findIdx?_eq (fun _ _ => opensTag_eq name) h]
  cases b.frames.findIdx? (·.isTagNamed name) <;> rfl

/-- What is open after a token: it opens a node, or closes up to the nearest one it means. -/
def stepped (opened : List Opened) (place : Nat) : Token → List Opened
  | .opening c => (place, .opening c) :: opened
  | .directive (.opening name attributes) =>
    (place, .directive (.opening name attributes)) :: opened
  | .closing kind => opened.drop (closed (Token.opensContainer kind) opened)
  | .directive (.closing name) => opened.drop (closed (Token.opensTag name) opened)
  | _ => opened

theorem matches_feed {t : Token} (h : Matches opened b) (ht : t.isInline = false) (place : Nat) :
    Matches (stepped opened place t) (feed source b t).1 := by
  cases t with
  | opening c => exact .cons (.container c []) h
  | closing kind =>
    rw [feed, closeContainer_eq kind h]
    exact h.popMany _
  | hidden | unsupported name => exact h
  | leaf l => exact h.append l.node
  | inline children => cases ht
  | directive d =>
    cases d with
    | opening name attributes => exact .cons (.tag name attributes []) h
    | closing name =>
      rw [feed, feedDirective, closeTag_eq name h]
      exact h.popMany _
    | selfClosing name attributes | call name arguments => exact h.append _

theorem openedAfter_cons (opened : List Opened) (place : Nat) (t : Token) :
    openedAfter opened place t (opened.length + 1) = (place, t) :: opened := by
  rw [openedAfter, if_pos (by omega)]

theorem openedAfter_drop (opened : List Opened) (place : Nat) (t : Token) (k : Nat) :
    openedAfter opened place t (opened.drop k).length = opened.drop k := by
  rw [openedAfter, if_neg (by simp), List.length_drop]
  by_cases hk : k ≤ opened.length
  · congr 1
    omega
  · rw [List.drop_eq_nil_of_le (by omega), List.drop_eq_nil_of_le (by omega)]

theorem openedAfter_feed {t : Token} (h : Matches opened b) (ht : t.isInline = false)
    (place : Nat) :
    openedAfter opened place t (feed source b t).1.frames.length = stepped opened place t := by
  have hsame : openedAfter opened place t opened.length = opened :=
    openedAfter_drop opened place t 0
  rw [← (matches_feed h ht place).length_eq]
  cases t with
  | opening c => exact openedAfter_cons opened place _
  | closing kind => exact openedAfter_drop opened place _ _
  | hidden | unsupported name | leaf l => exact hsame
  | inline children => cases ht
  | directive d =>
    cases d with
    | opening name attributes => exact openedAfter_cons opened place _
    | closing name => exact openedAfter_drop opened place _ _
    | selfClosing name attributes | call name arguments => exact hsame

/-! ## A stream -/

theorem openedFrom_cons {t : Token} (h : Matches opened b) (ht : t.isInline = false)
    (place : Nat) (ts : List Token) :
    openedFrom source b opened place (t :: ts) =
      openedFrom source (feed source b t).1 (stepped opened place t) (place + 1) ts := by
  rw [openedFrom, openedAfter_feed h ht]

theorem openedFrom_append (place : Nat) (ts us : List Token) :
    openedFrom source b opened place (ts ++ us) =
      openedFrom source (feedAll source b ts).1 (openedFrom source b opened place ts)
        (place + ts.length) us := by
  induction ts generalizing opened b place with
  | nil => rfl
  | cons t ts ih =>
    rw [List.cons_append, openedFrom, ih, openedFrom, feedAll, List.length_cons, Nat.add_assoc,
      Nat.add_comm 1]

theorem matches_openedFrom {ts : List Token} (h : Matches opened b)
    (hts : ∀ t ∈ ts, t.isInline = false) (place : Nat) :
    Matches (openedFrom source b opened place ts) (feedAll source b ts).1 := by
  induction ts generalizing opened b place with
  | nil => exact h
  | cons t ts ih =>
    rw [List.forall_mem_cons] at hts
    rw [openedFrom_cons h hts.1]
    exact ih (matches_feed h hts.1 place) hts.2 (place + 1)

theorem place_lt_of_mem_openedFrom {ts : List Token} {place : Nat}
    (h : ∀ o ∈ opened, o.1 < place) :
    ∀ o ∈ openedFrom source b opened place ts, o.1 < place + ts.length := by
  induction ts generalizing opened b place with
  | nil => exact h
  | cons t ts ih =>
    have hafter : ∀ height, ∀ o ∈ openedAfter opened place t height, o.1 < place + 1 := by
      intro height o ho
      rw [openedAfter] at ho
      split at ho
      · rcases List.mem_cons.1 ho with rfl | ho
        · exact Nat.lt_succ_self place
        · exact Nat.lt_succ_of_lt (h o ho)
      · exact Nat.lt_succ_of_lt (h o (List.mem_of_mem_drop ho))
    intro o ho
    have hlt := ih (hafter _) o ho
    rw [List.length_cons]
    omega

theorem matches_openMarks {ts : List Token} (hts : ∀ t ∈ ts, t.isInline = false) :
    Matches (openMarks source ts) (feedAll source .start ts).1 := by
  have hstart : Matches [] start := .nil
  exact matches_openedFrom hstart hts 0

theorem openMarks_append (source : String) (ts us : List Token) :
    openMarks source (ts ++ us) =
      openedFrom source (feedAll source .start ts).1 (openMarks source ts) ts.length us := by
  rw [openMarks, openedFrom_append, Nat.zero_add]
  rfl

theorem place_lt_of_mem_openMarks {ts : List Token} :
    ∀ o ∈ openMarks source ts, o.1 < ts.length := by
  have hstart : ∀ o ∈ ([] : List Opened), o.1 < 0 := nofun
  intro o ho
  have hlt := place_lt_of_mem_openedFrom hstart o ho
  rwa [Nat.zero_add] at hlt

/-! ## A nested stream -/

/-- Only tags have been opened since a place, over what is left of what was open there. -/
def Over (place : Nat) (before after : List Opened) : Prop :=
  ∃ tags k, after = tags ++ before.drop k ∧
    ∀ o ∈ tags, place ≤ o.1 ∧ o.2.opensSomeTag = true

theorem Over.refl (place : Nat) (before : List Opened) : Over place before before :=
  ⟨[], 0, rfl, nofun⟩

theorem Over.trans {place later : Nat} {first second third : List Opened} (hp : place ≤ later)
    (h : Over place first second) (h' : Over later second third) : Over place first third := by
  obtain ⟨tags, k, rfl, htags⟩ := h
  obtain ⟨more, m, rfl, hmore⟩ := h'
  refine ⟨more ++ tags.drop m, k + (m - tags.length), ?_, fun o ho => ?_⟩
  · rw [List.drop_append, List.drop_drop, List.append_assoc]
  · rcases List.mem_append.1 ho with ho | ho
    · exact ⟨Nat.le_trans hp (hmore o ho).1, (hmore o ho).2⟩
    · exact htags o (List.mem_of_mem_drop ho)

theorem Over.drop (place : Nat) (before : List Opened) (k : Nat) :
    Over place before (before.drop k) :=
  ⟨[], k, rfl, nofun⟩

theorem Over.of_isLoose {t : Token} (ht : t.isLoose = true) (opened : List Opened) (place : Nat) :
    Over place opened (stepped opened place t) := by
  cases t with
  | hidden | leaf l | unsupported name => exact .refl place opened
  | opening c | closing kind | inline children => cases ht
  | directive d =>
    cases d with
    | opening name attributes =>
      exact ⟨[(place, .directive (.opening name attributes))], 0, rfl, by simp [Token.opensSomeTag]⟩
    | closing name => exact .drop place opened _
    | selfClosing name attributes | call name arguments => exact .refl place opened

theorem opensContainer_of_opensSomeTag {t : Token} (h : t.opensSomeTag = true) (kind : NodeKind) :
    t.opensContainer kind = false := by
  cases t with
  | directive d => rfl
  | _ => cases h

/-- A container whose opening is below tags alone is closed with them. -/
theorem drop_closed_own {tags below : List Opened} (htags : ∀ o ∈ tags, o.2.opensSomeTag = true)
    (place : Nat) (c : Container) :
    (tags ++ (place, Token.opening c) :: below).drop
      (closed (Token.opensContainer c.kind) (tags ++ (place, .opening c) :: below)) = below := by
  have hfound : (tags ++ (place, Token.opening c) :: below).findIdx?
      (fun o => o.2.opensContainer c.kind) = some tags.length := by
    have hnone : tags.findIdx? (fun o => o.2.opensContainer c.kind) = none := by
      rw [List.findIdx?_eq_none_iff]
      exact fun o ho => opensContainer_of_opensSomeTag (htags o ho) c.kind
    rw [List.findIdx?_append, hnone, List.findIdx?_cons]
    simp [Token.opensContainer]
  rw [closed, hfound]
  simp [List.drop_append]

theorem Over.closing {place : Nat} {c : Container} {below inside : List Opened}
    (h : Over (place + 1) ((place, .opening c) :: below) inside) (last : Nat) :
    Over place below (stepped inside last (.closing c.kind)) := by
  obtain ⟨tags, k, rfl, htags⟩ := h
  cases k with
  | zero =>
    have htagged : ∀ o ∈ tags, o.2.opensSomeTag = true := fun o ho => (htags o ho).2
    rw [List.drop_zero, stepped, drop_closed_own htagged]
    exact .refl place below
  | succ k =>
    have hinside : Over place below (tags ++ below.drop k) :=
      ⟨tags, k, rfl, fun o ho => ⟨Nat.le_of_succ_le (htags o ho).1, (htags o ho).2⟩⟩
    exact hinside.trans (Nat.le_refl place) (.drop place _ _)

/-- A nested stream closes what was open, from the top, and opens nothing but tags that stay. -/
theorem over_of_isNested {ts : List Token} (hts : IsNested ts) (h : Matches opened b)
    (place : Nat) : Over place opened (openedFrom source b opened place ts) := by
  induction hts generalizing opened b place with
  | nil => exact .refl place opened
  | @loose t ts ht _ ih =>
    rw [openedFrom_cons h (isInline_of_isLoose ht)]
    exact (Over.of_isLoose ht opened place).trans (Nat.le_succ place)
      (ih (matches_feed h (isInline_of_isLoose ht) place) (place + 1))
  | @block c inner ts hinner _ ihinner ihts =>
    have hopened : Matches (stepped opened place (.opening c)) (feed source b (.opening c)).1 :=
      matches_feed h rfl place
    have hinside : Matches
        (openedFrom source (feed source b (.opening c)).1 _ (place + 1) inner) _ :=
      matches_openedFrom hopened hinner.isInline_eq_false (place + 1)
    rw [openedFrom_cons h rfl, openedFrom_append, openedFrom_cons hinside rfl]
    exact ((ihinner hopened (place + 1)).closing _).trans (by omega)
      (ihts (matches_feed hinside rfl _) _)

/-- What a closing mark of a kind closes, by what is open before and after it: its own container,
that no other container stands on; if that is not open, the nearest container of the kind, one
that was opened before; and nothing if there is none. -/
inductive Closes (kind : NodeKind) (own : Opened) : List Opened → List Opened → Prop
  | own {tags below : List Opened} : (∀ o ∈ tags, o.2.opensSomeTag = true) →
      Closes kind own (tags ++ own :: below) below
  | other {nearer : List Opened} {o : Opened} {below : List Opened} :
      own ∉ nearer ++ o :: below → (∀ x ∈ nearer, x.2.opensContainer kind = false) →
      o.2.opensContainer kind = true → o.1 < own.1 → Closes kind own (nearer ++ o :: below) below
  | nothing {before : List Opened} : own ∉ before →
      (∀ x ∈ before, x.2.opensContainer kind = false) → Closes kind own before before

theorem closes_of_not_mem {kind : NodeKind} {own : Opened} {before : List Opened}
    (hown : own ∉ before)
    (hearlier : ∀ o ∈ before, o.2.opensContainer kind = true → o.1 < own.1) (last : Nat) :
    Closes kind own before (stepped before last (.closing kind)) := by
  rw [stepped, closed]
  cases hfound : before.findIdx? (fun o => o.2.opensContainer kind) with
  | none =>
    rw [List.findIdx?_eq_none_iff] at hfound
    exact .nothing hown hfound
  | some i =>
    rw [List.findIdx?_eq_some_iff_getElem] at hfound
    obtain ⟨hi, hkind, hbefore⟩ := hfound
    have hsplit : before = before.take i ++ before[i] :: before.drop (i + 1) := by simp
    have hnearer : ∀ x ∈ before.take i, x.2.opensContainer kind = false := by
      intro x hx
      obtain ⟨j, hj, rfl⟩ := List.mem_take_iff_getElem.1 hx
      simpa using hbefore j (by omega)
    rw [hsplit] at hown
    have hcloses := Closes.other hown hnearer hkind (hearlier _ (List.getElem_mem hi) hkind)
    rwa [← hsplit] at hcloses

theorem closes_of_over {place : Nat} {c : Container} {below inside : List Opened}
    (h : Over (place + 1) ((place, .opening c) :: below) inside) (hbelow : ∀ o ∈ below, o.1 < place)
    (last : Nat) :
    Closes c.kind (place, .opening c) inside (stepped inside last (.closing c.kind)) := by
  obtain ⟨tags, k, rfl, htags⟩ := h
  cases k with
  | zero =>
    have htagged : ∀ o ∈ tags, o.2.opensSomeTag = true := fun o ho => (htags o ho).2
    rw [List.drop_zero, stepped, drop_closed_own htagged]
    exact .own htagged
  | succ k =>
    rw [List.drop_succ_cons]
    apply closes_of_not_mem
    · intro hmem
      rcases List.mem_append.1 hmem with hmem | hmem
      · exact absurd (htags _ hmem).2 (by simp [Token.opensSomeTag])
      · exact absurd (hbelow _ (List.mem_of_mem_drop hmem)) (Nat.lt_irrefl place)
    · intro o ho hkind
      rcases List.mem_append.1 ho with ho | ho
      · rw [opensContainer_of_opensSomeTag (htags o ho).2] at hkind
        cases hkind
      · exact hbelow o (List.mem_of_mem_drop ho)

end

end Builder

/-! ## The mark that a closing mark belongs to -/

/-- In a nested stream a closing mark belongs to the opening mark before it of the same kind that
a nested stream lies between. -/
theorem IsNested.exists_opening {ts : List Token} (h : IsNested ts) :
    ∀ {l r : List Token} {kind : NodeKind}, ts = l ++ .closing kind :: r →
      ∃ pre c inner, l = pre ++ .opening c :: inner ∧ c.kind = kind ∧ IsNested inner := by
  induction h with
  | nil =>
    intro l r kind hl
    simp at hl
  | @loose t ts ht _ ih =>
    intro l r kind hl
    cases l with
    | nil =>
      obtain ⟨rfl, -⟩ := List.cons.inj hl
      cases ht
    | cons u l =>
      rw [List.cons_append] at hl
      obtain ⟨rfl, hrest⟩ := List.cons.inj hl
      obtain ⟨pre, c, inner, rfl, hkind, hinner⟩ := ih hrest
      exact ⟨t :: pre, c, inner, rfl, hkind, hinner⟩
  | @block c inner ts hinner _ ihinner ihts =>
    intro l r kind hl
    cases l with
    | nil => simp at hl
    | cons u l =>
      rw [List.cons_append] at hl
      obtain ⟨rfl, hrest⟩ := List.cons.inj hl
      -- the mark is that of the block, or lies behind it or inside it
      rcases List.append_eq_append_iff.1 hrest with ⟨between, rfl, hmid⟩ | ⟨between, rfl, hmid⟩
      · cases between with
        | nil =>
          obtain ⟨hkind, -⟩ := List.cons.inj hmid
          exact ⟨[], c, inner, by simp, by simpa using hkind, hinner⟩
        | cons v between =>
          obtain ⟨rfl, hlast⟩ := List.cons.inj hmid
          obtain ⟨pre, d, within, rfl, hkind, hwithin⟩ := ihts hlast
          exact ⟨.opening c :: (inner ++ .closing c.kind :: pre), d, within, by simp, hkind,
            hwithin⟩
      · cases between with
        | nil =>
          obtain ⟨hkind, -⟩ := List.cons.inj hmid
          exact ⟨[], c, l, rfl, by simpa using hkind.symm, by simpa using hinner⟩
        | cons v between =>
          obtain ⟨rfl, hlast⟩ := List.cons.inj hmid
          obtain ⟨pre, d, within, rfl, hkind, hwithin⟩ := ihinner rfl
          exact ⟨.opening c :: pre, d, within, rfl, hkind, hwithin⟩

/-- Where containers are nested, what is told to be open are the frames on the stack, and a
closing mark closes its own container or, where that is not open any more, the nearest one of
the kind that was opened before it. -/
theorem closes_of_isNested (source : String) (ts : List Token)
    (h : IsNested (Token.splicedAll ts)) :
    Builder.feedAll source .start ts = Builder.feedAll source .start (Token.splicedAll ts) ∧
      (∀ l r, Token.splicedAll ts = l ++ r →
        Builder.Matches (Builder.openMarks source l) (Builder.feedAll source .start l).1) ∧
      ∀ l kind r, Token.splicedAll ts = l ++ .closing kind :: r →
        ∃ pre c inner, l = pre ++ .opening c :: inner ∧ c.kind = kind ∧ IsNested inner ∧
          Builder.Closes kind (pre.length, .opening c) (Builder.openMarks source l)
            (Builder.openMarks source (l ++ [.closing kind])) := by
  have hmatches : ∀ l r, Token.splicedAll ts = l ++ r →
      Builder.Matches (Builder.openMarks source l) (Builder.feedAll source .start l).1 := by
    intro l r hl
    have hflat := h.isInline_eq_false
    rw [hl, List.forall_mem_append] at hflat
    exact Builder.matches_openMarks hflat.1
  refine ⟨(Builder.feedAll_splicedAll .start ts).symm, hmatches, fun l kind r hl => ?_⟩
  obtain ⟨pre, c, inner, rfl, rfl, hinner⟩ := h.exists_opening hl
  refine ⟨pre, c, inner, rfl, rfl, hinner, ?_⟩
  have hpre := hmatches pre _ (hl.trans (List.append_assoc pre _ _))
  have hinside := hmatches _ _ hl
  rw [Builder.openMarks_append source (pre ++ _), Builder.openedFrom_cons hinside rfl]
  rw [Builder.openMarks_append, Builder.openedFrom_cons hpre rfl]
  exact Builder.closes_of_over
    (Builder.over_of_isNested hinner (Builder.matches_feed hpre rfl _) _)
    Builder.place_lt_of_mem_openMarks _

def crossedSource : String := "> \x7b% a %\x7d\n>\n> > x\n> >\n> > \x7b% /a %\x7d\n>\n> tail\n"

def crossedInner : List Token :=
  [.opening .paragraph, .leaf (.text "x"), .closing .paragraph, .directive (.closing "a")]

def crossedRest : List Token :=
  [.opening .paragraph, .leaf (.text "tail"), .closing .paragraph, .closing .blockquote]

def crossedBefore : List Token := [.opening .blockquote, .directive (.opening "a" [])]

def crossedTokens : List Token :=
  crossedBefore ++ .opening .blockquote :: (crossedInner ++ .closing .blockquote :: crossedRest)

theorem isNested_crossedInner : IsNested crossedInner :=
  .block .paragraph (.loose rfl .nil) (.loose rfl .nil)

theorem isNested_crossedTokens : IsNested crossedTokens := by
  have hwithin : IsNested (.directive (.opening "a" []) :: .opening .blockquote ::
      (crossedInner ++ .closing .blockquote :: crossedRest.take 3)) :=
    .loose rfl (.block .blockquote isNested_crossedInner (.block .paragraph (.loose rfl .nil) .nil))
  exact .block .blockquote hwithin .nil

/-- The end of the inner quote finds the outer one. -/
theorem closes_of_crossedTokens :
    IsNested (Token.splicedAll crossedTokens) ∧
      ∃ pre c inner, crossedBefore ++ .opening .blockquote :: crossedInner =
          pre ++ .opening c :: inner ∧ c.kind = .blockquote ∧ IsNested inner ∧
        Builder.Closes .blockquote (pre.length, .opening c) [(0, .opening .blockquote)] [] := by
  have hnested : IsNested (Token.splicedAll crossedTokens) := isNested_crossedTokens
  obtain ⟨-, -, hcloses⟩ := closes_of_isNested "a.mdoc" crossedTokens hnested
  exact ⟨hnested,
    hcloses (crossedBefore ++ .opening .blockquote :: crossedInner) .blockquote crossedRest rfl⟩

/-- A closing mark need not close its own container, with what stands on it, or nothing. -/
theorem not_closes_own :
    ¬ ∀ (source : String) (pre inner r : List Token) (c : Container), IsNested inner →
      IsNested (pre ++ .opening c :: (inner ++ .closing c.kind :: r)) →
        (∃ above, Builder.openMarks source (pre ++ .opening c :: inner) =
          above ++ (pre.length, .opening c) ::
            Builder.openMarks source (pre ++ .opening c :: (inner ++ [.closing c.kind]))) ∨
        (pre.length, .opening c) ∉ Builder.openMarks source (pre ++ .opening c :: inner) ∧
          Builder.openMarks source (pre ++ .opening c :: (inner ++ [.closing c.kind])) =
            Builder.openMarks source (pre ++ .opening c :: inner) := by
  intro hall
  have hcrossed := hall "a.mdoc" crossedBefore crossedInner crossedRest .blockquote
    isNested_crossedInner isNested_crossedTokens
  rcases hcrossed with ⟨above, habove⟩ | ⟨-, hsame⟩
  · change [(0, Token.opening .blockquote)] = above ++ [(2, .opening .blockquote)] at habove
    cases above <;> simp at habove
  · change [] = [(0, Token.opening .blockquote)] at hsame
    cases hsame

-- what follows the inner quote does not get into the outer one
example : ((read "a.mdoc" crossedSource).result.map fun n => n.children.map (·.kind)).toOption =
    some [NodeKind.blockquote, .paragraph] := by decide +kernel

end DocPress.Document
