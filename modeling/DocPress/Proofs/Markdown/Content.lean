import DocPress.Markdown.Block

/-!
# What blocks hold

What a block holds is cut out of the lines it is read from: code consists of their characters,
of spaces for the columns of a tab that is cut in two, and of line feeds. Every row of a table
has as many cells as its header, which has one at least. Both is so however deep a block lies in
quotations and items.
-/

set_option autoImplicit false

namespace DocPress.Markdown

open Text

theorem mem_of_mem_takeWhile {p : Char → Bool} {s : List Char} {c : Char}
    (h : c ∈ s.takeWhile p) : c ∈ s := (List.takeWhile_prefix p).subset h

theorem mem_of_mem_dropWhile {p : Char → Bool} {s : List Char} {c : Char}
    (h : c ∈ s.dropWhile p) : c ∈ s := (List.dropWhile_suffix p).subset h

/-! ## Lines -/

def Line.IsOf (q : Char → Prop) (l : Line) : Prop := (∀ c ∈ l.lead, q c) ∧ ∀ c ∈ l.body, q c

namespace Line

variable {q : Char → Prop}

theorem isOf_ofText {s : List Char} (h : ∀ c ∈ s, q c) (ended : Bool) : (ofText s ended).IsOf q :=
  ⟨fun c hc => h c (mem_of_mem_takeWhile hc), fun c hc => h c (mem_of_mem_dropWhile hc)⟩

theorem isOf_ofSource {read s : List Char} (hread : ∀ c ∈ read, q c) (hs : ∀ c ∈ s, q c) :
    ∀ l ∈ ofSource read s, l.IsOf q := by
  have htext : ∀ ended, (ofText read.reverse ended).IsOf q :=
    fun ended => isOf_ofText (fun c hc => hread c (List.mem_reverse.1 hc)) ended
  fun_induction ofSource read s with
  | case1 => nofun
  | case2 => simpa using htext false
  | case3 read r ih =>
    rw [List.forall_mem_cons] at hs ⊢
    exact ⟨htext true, ih nofun hs.2 (fun _ => isOf_ofText nofun _)⟩
  | case4 read c r _ ih =>
    rw [List.forall_mem_cons] at hs
    have hcons : ∀ d ∈ c :: read, q d := List.forall_mem_cons.2 ⟨hs.1, hread⟩
    exact ih hcons hs.2
      fun ended => isOf_ofText (fun d hd => hcons d (List.mem_reverse.1 hd)) ended

theorem isOf_lines {s : List Char} (h : ∀ c ∈ s, q c) : ∀ l ∈ lines s, l.IsOf q :=
  isOf_ofSource nofun h

theorem mem_cutFrom {base marked : Nat} {limit column : Int} {s : List Char} {c : Char}
    (h : c ∈ cutFrom base limit marked column s) : c = ' ' ∨ c ∈ s := by
  fun_induction cutFrom base limit marked column s with
  | case1 => exact .inl (List.eq_of_mem_replicate h)
  | case2 =>
    rcases List.mem_append.1 h with h | h
    · exact .inl (List.eq_of_mem_replicate h)
    · exact .inr h
  | case3 _ _ _ _ _ _ ih => exact (ih h).imp_right (List.mem_cons_of_mem _)
  | case4 _ _ _ _ _ _ _ ih => exact (ih h).imp_right (List.mem_cons_of_mem _)
  | case5 => exact .inr h

theorem isOf_cut (hspace : q ' ') {l : Line} (h : l.IsOf q) (limit : Int) :
    ∀ c ∈ l.cut limit, q c := by
  intro c hc
  rcases mem_cutFrom hc with rfl | hc
  · exact hspace
  · exact (List.mem_append.1 hc).elim (h.1 c) (h.2 c)

theorem forall_mem_textOf (hspace : q ' ') (hfeed : q '\n') {ls : List Line}
    (h : ∀ l ∈ ls, l.IsOf q) (limit : Int) (keep : Bool) : ∀ c ∈ textOf limit keep ls, q c := by
  have hend : ∀ b : Bool, ∀ c ∈ (if b then ['\n'] else []), q c := by
    intro b c hc
    split at hc
    · rwa [List.mem_singleton.1 hc]
    · cases hc
  fun_induction textOf limit keep ls with
  | case1 => nofun
  | case2 l =>
    exact List.forall_mem_append.2 ⟨isOf_cut hspace (h l (by simp)) limit, hend _⟩
  | case3 l ls _ ih =>
    rw [List.forall_mem_cons] at h
    exact List.forall_mem_append.2
      ⟨List.forall_mem_append.2 ⟨isOf_cut hspace h.1 limit, hend _⟩, ih h.2⟩

end Line

namespace Block

/-! ## Blocks in blocks -/

mutual

/-- A block and the blocks in it, each before those in it. -/
def parts : Block → List Block
  | .quote blocks => .quote blocks :: partsIn blocks
  | .list start tight items => .list start tight items :: partsInItems items
  | b => [b]

def partsIn : List Block → List Block
  | [] => []
  | b :: bs => b.parts ++ partsIn bs

def partsInItems : List (List Block) → List Block
  | [] => []
  | i :: is => partsIn i ++ partsInItems is

end

def IsCut (q : Char → Prop) : Block → Prop
  | .code content => ∀ c ∈ content, q c
  | .fence info content => (∀ c ∈ info, q c) ∧ ∀ c ∈ content, q c
  | .table header rows => header ≠ [] ∧ ∀ row ∈ rows, row ≠ []
  | _ => True

variable {φ : Type} {recognise : Directive.Recogniser φ} {quoted nested : Reader φ}
  {q : Char → Prop}

def AreCut (q : Char → Prop) (bs : List Block) : Prop := ∀ b ∈ partsIn bs, b.IsCut q

theorem areCut_nil : AreCut q [] := nofun

theorem areCut_cons {b : Block} {bs : List Block} :
    AreCut q (b :: bs) ↔ (∀ c ∈ b.parts, c.IsCut q) ∧ AreCut q bs := List.forall_mem_append

def Cuts (q : Char → Prop) (r : Reader φ) : Prop :=
  ∀ p lines, (∀ l ∈ lines, l.IsOf q) → AreCut q (r p lines).value.blocks

/-! ## Tables -/

theorem length_fit (n : Nat) (row : Table.Row) : (Table.fit n row).length = n := by
  simp [Table.fit]
  omega

theorem ne_nil_of_mem_tableRows (p : Place) {columns : Nat} (hcolumns : columns ≠ 0)
    (missing : Int) (lines : List Line) :
    ∀ row ∈ (tableRows recognise p columns missing lines).value, row ≠ [] := by
  induction lines generalizing missing with
  | nil => nofun
  | cons l rest ih =>
    unfold tableRows
    split
    · nofun
    · rw [Probed.bind_value]
      split
      · nofun
      split
      · nofun
      dsimp only
      split
      · nofun
      · refine List.forall_mem_cons.2 ⟨?_, ih _⟩
        rw [← List.length_pos_iff, length_fit]
        exact Nat.pos_of_ne_zero hcolumns

theorem ne_nil_of_tableAt? {p : Place} {l : Line} {rest : List Line} {header : Table.Row}
    (h : tableAt? p l rest = some header) : header ≠ [] := by
  unfold tableAt? at h
  split at h
  · cases h
  · split at h
    · cases h
    · unfold Table.header? at h
      split at h
      · cases h
      · split at h
        · dsimp only at h
          split at h
          · next hn =>
            obtain rfl := Option.some.inj h
            rw [← List.length_pos_iff, List.length_map, hn.1]
            exact Nat.pos_of_ne_zero hn.2
          · cases h
        · cases h

/-! ## Quotations and items -/

theorem isOf_unquote {l : Line} (h : l.IsOf q) : (unquote l).IsOf q := by
  have hrest : ∀ b : Bool, ∀ c ∈ (if b then (l.body.drop 1).drop 1 else l.body.drop 1), q c := by
    intro b c hc
    split at hc
    · exact h.2 c (List.mem_of_mem_drop (List.mem_of_mem_drop hc))
    · exact h.2 c (List.mem_of_mem_drop hc)
  exact ⟨fun c hc => hrest _ c (mem_of_mem_takeWhile hc),
    fun c hc => hrest _ c (mem_of_mem_dropWhile hc)⟩

theorem isOf_quotedLines (p : Place) (afterEmpty : Bool) {lines : List Line}
    (h : ∀ l ∈ lines, l.IsOf q) :
    ∀ l ∈ (quotedLines recognise p afterEmpty lines).value, l.IsOf q := by
  induction lines generalizing afterEmpty with
  | nil => nofun
  | cons l rest ih =>
    obtain ⟨hl, hrest⟩ := List.forall_mem_cons.1 h
    unfold quotedLines
    split
    · nofun
    split
    · exact List.forall_mem_cons.2 ⟨isOf_unquote hl, ih _ hrest⟩
    split
    · nofun
    rw [Probed.bind_value]
    split
    · nofun
    · exact List.forall_mem_cons.2 ⟨hl, ih _ hrest⟩

theorem mem_of_listMark? {body : List Char} {m : ListMark} (h : listMark? body = some m) :
    (∀ c ∈ m.text, c ∈ body) ∧ ∀ c ∈ m.rest, c ∈ body := by
  unfold listMark? at h
  split at h
  · cases h
  · next c r =>
    split at h
    · split at h
      · obtain rfl := Option.some.inj h
        exact ⟨by simp, fun x hx => List.mem_cons_of_mem _ hx⟩
      · cases h
    · dsimp only at h
      split at h
      · cases h
      · next d rest hrest =>
        split at h
        · obtain rfl := Option.some.inj h
          have hdrop : ∀ x ∈ d :: rest, x ∈ c :: r := fun x hx =>
            mem_of_mem_dropWhile (hrest ▸ hx)
          rw [List.forall_mem_cons] at hdrop
          refine ⟨fun x hx => ?_, hdrop.2⟩
          rcases List.mem_append.1 hx with hx | hx
          · exact mem_of_mem_takeWhile hx
          · rw [List.mem_singleton.1 hx]
            exact hdrop.1
        · cases h

theorem isOf_itemStart (p : Place) {l : Line} (h : l.IsOf q) {m : ListMark}
    (hm : listMark? l.body = some m) : (itemStart p l m).1.IsOf q := by
  obtain ⟨htext, hrest⟩ := mem_of_listMark? hm
  refine ⟨?_, fun c hc => h.2 c (hrest c (mem_of_mem_dropWhile hc))⟩
  intro c hc
  rcases List.mem_append.1 hc with hc | hc
  · exact (List.mem_append.1 hc).elim (h.1 c) fun hc => h.2 c (htext c hc)
  · exact h.2 c (hrest c (mem_of_mem_takeWhile hc))

theorem areCut_readItem (hn : Cuts q nested) (p : Place) {m : ListMark} {l : Line}
    {rest : List Line} (hm : listMark? l.body = some m) (hl : l.IsOf q)
    (hrest : ∀ l ∈ rest, l.IsOf q) : AreCut q (readItem nested p m l rest).value.blocks := by
  unfold readItem
  dsimp only
  split
  · exact areCut_nil
  · exact hn _ _ (List.forall_mem_cons.2 ⟨isOf_itemStart p hl hm, hrest⟩)

theorem listMark?_of_nextMark? {p : Place} {m m' : ListMark} {l : Line} {rest : List Line}
    (h : (nextMark? recognise p m l rest).value = some m') : listMark? l.body = some m' := by
  unfold nextMark? at h
  split at h
  · cases h
  · rw [Probed.bind_value] at h
    split at h
    · cases h
    · exact (Option.filter_eq_some_iff.1 h).1

theorem areCut_readItems (hn : Cuts q nested) (p : Place) {m : ListMark} {l : Line}
    {rest : List Line} (hm : listMark? l.body = some m) (hl : l.IsOf q)
    (hrest : ∀ l ∈ rest, l.IsOf q) :
    ∀ b ∈ partsInItems (readItems recognise nested p m l rest).value.items, b.IsCut q := by
  have hitem := areCut_readItem hn p hm hl hrest
  have hone : ∀ b ∈ partsInItems [(readItem nested p m l rest).value.blocks], b.IsCut q :=
    List.forall_mem_append.2 ⟨hitem, nofun⟩
  rw [readItems, Probed.bind_value]
  dsimp only
  split
  · exact hone
  · rename_i l' rest' hdrop
    have hshorter : rest'.length < rest.length := by
      have := congrArg List.length hdrop
      simp only [List.length_drop, List.length_cons] at this
      omega
    have hlater : ∀ l ∈ l' :: rest', l.IsOf q := fun l hmem =>
      hrest l (List.mem_of_mem_drop (hdrop ▸ hmem))
    rw [Probed.bind_value]
    split
    · exact hone
    · rename_i m' hmark
      exact List.forall_mem_append.2 ⟨hitem, areCut_readItems hn p (listMark?_of_nextMark? hmark)
        (List.forall_mem_cons.1 hlater).1 (List.forall_mem_cons.1 hlater).2⟩
termination_by rest.length

/-! ## Blocks -/

theorem isCut_readText (p : Place) (l : Line) (rest : List Line) :
    ∀ b ∈ (readText recognise p l rest).value.1.parts, b.IsCut q := by
  have hone : ∀ {b : Block}, b.IsCut q → b.parts = [b] → ∀ c ∈ b.parts, c.IsCut q := by
    intro b hb hparts
    rwa [hparts, List.forall_mem_singleton]
  unfold readText
  cases Html.blockKind? l.body with
  | some k => exact hone (b := .html _) trivial rfl
  | none =>
    cases heading? l.body with
    | some e => exact hone (b := .heading _ _) trivial rfl
    | none =>
      dsimp only
      rw [Probed.bind_value]
      cases (underlined? recognise p rest).value with
      | some e => exact hone (b := .heading _ _) trivial rfl
      | none =>
        dsimp only
        rw [Probed.bind_value]
        cases (directive? recognise p l).value with
        | some d => exact hone (b := .directive d) trivial rfl
        | none => exact hone (b := .paragraph _) trivial rfl

theorem isCut_readBlock (hspace : q ' ') (hfeed : q '\n') (hq : Cuts q quoted)
    (hn : Cuts q nested) (p : Place) {l : Line} {rest : List Line} (hl : l.IsOf q)
    (hrest : ∀ l ∈ rest, l.IsOf q) :
    ∀ b ∈ (readBlock recognise quoted nested p l rest).value.1.parts, b.IsCut q := by
  have htaken : ∀ n, ∀ l' ∈ l :: rest.take n, l'.IsOf q := fun n =>
    List.forall_mem_cons.2 ⟨hl, fun l' hl' => hrest l' (List.mem_of_mem_take hl')⟩
  unfold readBlock
  cases htable : tableAt? p l rest with
  | some header =>
    have hheader := ne_nil_of_tableAt? htable
    have hrows : ∀ row ∈ (tableRows recognise p header.length 0 (rest.drop 1)).value, row ≠ [] :=
      ne_nil_of_mem_tableRows p (Nat.pos_iff_ne_zero.1 (List.length_pos_iff.2 hheader)) 0 _
    exact List.forall_mem_singleton.2 ⟨hheader, hrows⟩
  | none =>
    dsimp only
    split
    · refine List.forall_mem_singleton.2 (List.forall_mem_append.2 ⟨?_, ?_⟩)
      · exact Line.forall_mem_textOf hspace hfeed (htaken _) _ _
      · exact List.forall_mem_singleton.2 hfeed
    cases hfence : fence? l.body with
    | some f =>
      have hinfo : ∀ c ∈ f.info, q c := by
        unfold fence? at hfence
        split at hfence
        · cases hfence
        · dsimp only at hfence
          split at hfence
          · obtain rfl := Option.some.inj hfence
            exact fun c hc => hl.2 c (by simpa [*] using mem_of_mem_dropWhile hc)
          · cases hfence
      exact List.forall_mem_singleton.2 ⟨hinfo, Line.forall_mem_textOf hspace hfeed
        (fun l' hl' => hrest l' (List.mem_of_mem_take hl')) _ _⟩
    | none =>
      dsimp only
      split
      · exact List.forall_mem_cons.2 ⟨trivial,
          hq _ _ (List.forall_mem_cons.2 ⟨isOf_unquote hl, isOf_quotedLines p _ hrest⟩)⟩
      split
      · exact List.forall_mem_singleton.2 trivial
      cases hmark : listMarkAt? p l with
      | some m =>
        have hm : listMark? l.body = some m := by
          unfold listMarkAt? at hmark
          split at hmark
          · cases hmark
          · exact hmark
        exact List.forall_mem_cons.2 ⟨trivial, areCut_readItems hn p hm hl hrest⟩
      | none =>
        dsimp only
        rw [Probed.bind_value]
        cases (definition? recognise p l rest).value with
        | some e => exact List.forall_mem_singleton.2 trivial
        | none => exact isCut_readText p l rest

theorem areCut_readBlocks (hspace : q ' ') (hfeed : q '\n') (hq : Cuts q quoted)
    (hn : Cuts q nested) (p : Place) (loose tight : Bool) {lines : List Line}
    (h : ∀ l ∈ lines, l.IsOf q) :
    AreCut q (readBlocks recognise quoted nested p loose tight lines).value.blocks := by
  rw [readBlocks.eq_def]
  cases lines with
  | nil => exact areCut_nil
  | cons l rest =>
    obtain ⟨hl, hrest⟩ := List.forall_mem_cons.1 h
    have hshorter : ∀ n, (rest.drop n).length < (l :: rest).length := fun n => by
      simp only [List.length_drop, List.length_cons]
      omega
    dsimp only
    split
    · exact areCut_readBlocks hspace hfeed hq hn p _ _ hrest
    split
    · exact areCut_nil
    · exact areCut_cons.2 ⟨isCut_readBlock hspace hfeed hq hn p hl hrest,
        areCut_readBlocks hspace hfeed hq hn p _ _ fun l hl => hrest l (List.mem_of_mem_drop hl)⟩
termination_by lines.length

theorem cuts_reader (hspace : q ' ') (hfeed : q '\n') : ∀ n, Cuts q (reader recognise n)
  | 0 => fun p lines _ => by
    have hnil : (passOver p lines).blocks = [] := by
      unfold passOver
      split
      · rfl
      · split <;> rfl
    show AreCut q (passOver p lines).blocks
    rw [hnil]
    exact areCut_nil
  | 1 => fun p _ h =>
    areCut_readBlocks hspace hfeed (cuts_reader hspace hfeed 0) (cuts_reader hspace hfeed 0) p
      false true h
  | n + 2 => fun p _ h =>
    areCut_readBlocks hspace hfeed (cuts_reader hspace hfeed (n + 1)) (cuts_reader hspace hfeed n)
      p false true h

theorem areCut_ofLines (r : Directive.Recogniser φ) (hspace : q ' ') (hfeed : q '\n')
    {lines : List Line} (h : ∀ l ∈ lines, l.IsOf q) : AreCut q (ofLines r lines).value :=
  cuts_reader hspace hfeed maxLevel Place.top lines h

end Block

end DocPress.Markdown
