import Mathlib.Data.List.Nodup
import DocPress.Discovery
import DocPress.Proofs.FileTree.Proper

/-!
# Which files are templates

A file below the templates directory is a template by its names alone: its own
suffix, the directories on the way and the ignored paths decide. An ignored path
stands for everything below it, so looking at the whole path is enough. The list
of templates is sorted and has each of them once.
-/

set_option autoImplicit false

namespace DocPress

@[simp] theorem Path.append_relative (p : Path) (names : List String) :
    p ++ ⟨.relative, names⟩ = ⟨p.anchor, p.parts ++ names⟩ := rfl

theorem Path.below?_eq_some_iff {p root : Path} {names : List String} :
    p.below? root = some names ↔ p = root ++ ⟨.relative, names⟩ := by
  obtain ⟨pa, pp⟩ := p
  obtain ⟨ra, rp⟩ := root
  simp only [below?, append_relative, Path.mk.injEq, List.isPrefixOf_iff_prefix]
  constructor
  · intro h
    split at h
    · rename_i hp
      obtain ⟨rfl, rest, rfl⟩ := hp
      simpa using h
    · cases h
  · rintro ⟨rfl, rfl⟩
    simp

namespace Path

theorem isWithin_iff {p root : Path} :
    p.isWithin root = true ↔ ∃ names, p = root ++ ⟨.relative, names⟩ := by
  simp only [isWithin, Option.isSome_iff_exists, below?_eq_some_iff]

theorem isWithin_append (root : Path) (names : List String) :
    (root ++ ⟨.relative, names⟩ : Path).isWithin root = true := isWithin_iff.2 ⟨names, rfl⟩

end Path

/-! ## The order of names -/

namespace Path

theorem namesLe_total (a b : List String) : (namesLe a b || namesLe b a) = true := by
  induction a generalizing b with
  | nil => simp [namesLe]
  | cons x a ih =>
    cases b with
    | nil => simp [namesLe]
    | cons y b =>
      by_cases h : x = y
      · subst h
        simpa [namesLe] using ih b
      · have hne : ¬y = x := fun e => h e.symm
        rw [namesLe, namesLe, if_neg h, if_neg hne, Bool.or_eq_true, decide_eq_true_iff,
          decide_eq_true_iff]
        rcases String.le_total x y with hle | hle
        · exact Or.inl (String.not_le.1 fun hge => h (String.le_antisymm hle hge))
        · exact Or.inr (String.not_le.1 fun hge => h (String.le_antisymm hge hle))

theorem namesLe_trans (a b c : List String) (hab : namesLe a b = true) (hbc : namesLe b c = true) :
    namesLe a c = true := by
  induction a generalizing b c with
  | nil => rfl
  | cons x a ih =>
    cases b with
    | nil => cases hab
    | cons y b =>
      cases c with
      | nil => cases hbc
      | cons z c =>
        rw [namesLe] at hab hbc ⊢
        by_cases hxy : x = y
        · subst hxy
          rw [if_pos rfl] at hab
          by_cases hxz : x = z
          · rw [if_pos hxz] at hbc ⊢
            exact ih b c hab hbc
          · rwa [if_neg hxz] at hbc ⊢
        · rw [if_neg hxy, decide_eq_true_iff] at hab
          by_cases hyz : y = z
          · subst hyz
            rw [if_neg hxy, decide_eq_true_iff]
            exact hab
          · rw [if_neg hyz, decide_eq_true_iff] at hbc
            have hlt := String.lt_trans hab hbc
            have hxz : x ≠ z := by
              rintro rfl
              exact String.lt_irrefl x hlt
            rw [if_neg hxz, decide_eq_true_iff]
            exact hlt

theorem namesLe_antisymm (a b : List String) (hab : namesLe a b = true)
    (hba : namesLe b a = true) : a = b := by
  induction a generalizing b with
  | nil =>
    cases b with
    | nil => rfl
    | cons y b => cases hba
  | cons x a ih =>
    cases b with
    | nil => cases hab
    | cons y b =>
      rw [namesLe] at hab hba
      by_cases h : x = y
      · subst h
        rw [if_pos rfl] at hab hba
        rw [ih b hab hba]
      · rw [if_neg h, decide_eq_true_iff] at hab
        rw [if_neg fun e => h e.symm, decide_eq_true_iff] at hba
        exact absurd (String.lt_trans hab hba) (String.lt_irrefl x)

end Path

namespace Discovery

theorem mem_sortNames {ns : List (List String)} {q : List String} :
    q ∈ sortNames ns ↔ q ∈ ns := (List.mergeSort_perm ns _).mem_iff

theorem nodup_sortNames {ns : List (List String)} (h : ns.Nodup) : (sortNames ns).Nodup :=
  (List.mergeSort_perm ns _).nodup_iff.2 h

theorem pairwise_sortNames (ns : List (List String)) :
    (sortNames ns).Pairwise fun a b => Path.namesLe a b = true :=
  List.pairwise_mergeSort Path.namesLe_trans Path.namesLe_total ns

/-- Lists of different names that have the same members are sorted alike. -/
theorem sortNames_congr {ns ms : List (List String)} (hn : ns.Nodup) (hm : ms.Nodup)
    (h : ∀ q, q ∈ ns ↔ q ∈ ms) : sortNames ns = sortNames ms := by
  have hp : (sortNames ns).Perm (sortNames ms) := by
    rw [List.perm_ext_iff_of_nodup (nodup_sortNames hn) (nodup_sortNames hm)]
    intro q
    rw [mem_sortNames, mem_sortNames]
    exact h q
  exact hp.eq_of_pairwise (fun a b _ _ => Path.namesLe_antisymm a b) (pairwise_sortNames ns)
    (pairwise_sortNames ms)

end Discovery

/-! ## Ignored paths -/

namespace Ignore

theorem covers_append {entry : String} {names rest : List String} (hn : names ≠ [])
    (h : covers entry (Path.toString ⟨.relative, names⟩) = true) :
    covers entry (Path.toString ⟨.relative, names ++ rest⟩) = true := by
  by_cases hr : rest = []
  · rw [hr, List.append_nil]
    exact h
  · have hstring : Path.toString ⟨.relative, names ++ rest⟩ =
        Path.toString ⟨.relative, names⟩ ++ "/" ++ "/".intercalate rest := by
      unfold Path.toString
      rw [if_neg (by simp [hn]), if_neg (by simp [hn]),
        String.intercalate_append_of_ne_nil hn hr]
      simp [Path.Anchor.text]
    rw [hstring]
    simp only [covers, Bool.and_eq_true, Bool.or_eq_true, beq_iff_eq, List.isPrefixOf_iff_prefix,
      String.toList_append] at h ⊢
    refine ⟨h.1, Or.inr ?_⟩
    rcases h.2 with he | hp
    · rw [he]
      exact ⟨("/".intercalate rest).toList, rfl⟩
    · exact (hp.trans (List.prefix_append ..)).trans (List.prefix_append ..)

/-- What stands below an ignored path is ignored. -/
theorem contains_append {ignore : Ignore} {names rest : List String} (hn : names ≠ [])
    (h : ignore.contains names = true) : ignore.contains (names ++ rest) = true := by
  unfold contains at h ⊢
  rw [List.any_eq_true] at h ⊢
  obtain ⟨entry, he, hc⟩ := h
  exact ⟨entry, he, covers_append hn hc⟩

end Ignore

namespace Discovery

variable {c : Config} {ignore : Ignore}

/-! ## Templates by their names -/

/-- Whether names below a directory lead to a template to be processed, if they lead to a file. -/
def IsTemplateAt (c : Config) (ignore : Ignore) (names rest : List String) : Prop :=
  Naming.isTemplate (rest.getLast?.getD "") = true ∧
    rest.dropLast.any (isExcludedDirectory c) = false ∧ ignore.contains (names ++ rest) = false

theorem not_isTemplateAt_nil (names : List String) : ¬IsTemplateAt c ignore names [] :=
  fun h => absurd h.1 (by decide)

theorem isTemplateAt_singleton (names : List String) (name : String) :
    IsTemplateAt c ignore names [name] ↔ isWanted ignore names name = true := by
  simp [IsTemplateAt, isWanted]

theorem isTemplateAt_cons (names : List String) (name : String) {rest : List String}
    (hr : rest ≠ []) : IsTemplateAt c ignore names (name :: rest) ↔
      isEntered c ignore names name = true ∧ IsTemplateAt c ignore (names ++ [name]) rest := by
  obtain ⟨next, more, rfl⟩ := List.exists_cons_of_ne_nil hr
  have hcover : ignore.contains (names ++ [name] ++ next :: more) = false →
      ignore.contains (names ++ [name]) = false := by
    intro h
    rw [← Bool.not_eq_true] at h ⊢
    exact fun hc => h (Ignore.contains_append (by simp) hc)
  simp only [IsTemplateAt, isEntered, List.getLast?_cons_cons, List.dropLast_cons_cons,
    List.any_cons, Bool.or_eq_false_iff, Bool.and_eq_true, Bool.not_eq_true',
    List.append_assoc, List.singleton_append] at hcover ⊢
  constructor
  · rintro ⟨ht, ⟨hx, hd⟩, hi⟩
    exact ⟨⟨hx, hcover hi⟩, ht, hd, hi⟩
  · rintro ⟨⟨hx, -⟩, ht, hd, hi⟩
    exact ⟨ht, ⟨hx, hd⟩, hi⟩

/-! ## The walk -/

theorem mem_filesIn {names : List String} {es : FileTree.Entries} {q : List String} :
    q ∈ filesIn c ignore names es ↔
      ∃ name b, (name, FileTree.file b) ∈ es ∧ isWanted ignore names name = true ∧
        q = names ++ [name] := by
  induction es with
  | nil => simp [filesIn]
  | cons e es ih =>
    obtain ⟨name, t⟩ := e
    cases t with
    | directory fs =>
      rw [filesIn, ih]
      simp
    | file b =>
      rw [filesIn]
      split
      · rename_i hw
        rw [List.mem_cons, ih]
        constructor
        · rintro (rfl | ⟨n, d, hm, hrest⟩)
          · exact ⟨name, b, List.mem_cons_self .., hw, rfl⟩
          · exact ⟨n, d, List.mem_cons_of_mem _ hm, hrest⟩
        · rintro ⟨n, d, hm, hn, rfl⟩
          rcases List.mem_cons.1 hm with he | hm
          · exact Or.inl (by rw [(Prod.mk.inj he).1])
          · exact Or.inr ⟨n, d, hm, hn, rfl⟩
      · rename_i hw
        rw [ih]
        constructor
        · rintro ⟨n, d, hm, hrest⟩
          exact ⟨n, d, List.mem_cons_of_mem _ hm, hrest⟩
        · rintro ⟨n, d, hm, hn, rfl⟩
          rcases List.mem_cons.1 hm with he | hm
          · exact absurd ((Prod.mk.inj he).1 ▸ hn) hw
          · exact ⟨n, d, hm, hn, rfl⟩

theorem mem_templatesBelow {names : List String} {es : FileTree.Entries} {q : List String} :
    q ∈ templatesBelow c ignore names es ↔
      ∃ name t, (name, t) ∈ es ∧ isEntered c ignore names name = true ∧
        q ∈ templatesIn c ignore (names ++ [name]) t := by
  induction es with
  | nil => simp [templatesBelow]
  | cons e es ih =>
    obtain ⟨name, t⟩ := e
    rw [templatesBelow, List.mem_append, ih]
    constructor
    · rintro (h | ⟨n, u, hm, hrest⟩)
      · split at h
        · rename_i he
          exact ⟨name, t, List.mem_cons_self .., he, h⟩
        · cases h
      · exact ⟨n, u, List.mem_cons_of_mem _ hm, hrest⟩
    · rintro ⟨n, u, hm, he, hq⟩
      rcases List.mem_cons.1 hm with heq | hm
      · obtain ⟨rfl, rfl⟩ := Prod.mk.inj heq
        rw [if_pos he]
        exact Or.inl hq
      · exact Or.inr ⟨n, u, hm, he, hq⟩

mutual

/-- Templates in a directory lie strictly below it. -/
theorem exists_of_mem_templatesIn (t : FileTree) {names q : List String}
    (h : q ∈ templatesIn c ignore names t) : ∃ name rest, q = names ++ name :: rest := by
  cases t with
  | file b => cases h
  | directory es =>
    rw [templatesIn, List.mem_append] at h
    rcases h with h | h
    · obtain ⟨name, b, -, -, rfl⟩ := mem_filesIn.1 h
      exact ⟨name, [], rfl⟩
    · exact exists_of_mem_templatesBelow es h

theorem exists_of_mem_templatesBelow (es : FileTree.Entries) {names q : List String}
    (h : q ∈ templatesBelow c ignore names es) : ∃ name rest, q = names ++ name :: rest := by
  cases es with
  | nil => cases h
  | cons e es =>
    obtain ⟨name, t⟩ := e
    rw [templatesBelow, List.mem_append] at h
    rcases h with h | h
    · split at h
      · obtain ⟨next, rest, rfl⟩ := exists_of_mem_templatesIn t h
        exact ⟨name, next :: rest, by simp⟩
      · cases h
    · exact exists_of_mem_templatesBelow es h

end

/-- The walk from a directory finds a file below it exactly if its names make it a template. -/
theorem mem_templatesIn {t : FileTree} (ht : t.isProper = true) (names rest : List String) :
    names ++ rest ∈ templatesIn c ignore names t ↔
      IsTemplateAt c ignore names rest ∧ ∃ b, t.at? rest = some (.file b) := by
  induction rest generalizing names t with
  | nil =>
    constructor
    · intro h
      obtain ⟨name, rest, hq⟩ := exists_of_mem_templatesIn t h
      exact absurd (List.append_cancel_left hq) (by simp)
    · exact fun h => absurd h.1 (not_isTemplateAt_nil names)
  | cons name rest ih =>
    cases t with
    | file b => simp [templatesIn]
    | directory es =>
      obtain ⟨hnodup, hes⟩ := FileTree.isProper_directory.1 ht
      rw [templatesIn, List.mem_append, mem_filesIn, mem_templatesBelow,
        FileTree.at?_directory_cons]
      constructor
      · rintro (⟨n, b, hm, hw, hq⟩ | ⟨n, u, hm, he, hq⟩)
        · obtain ⟨rfl, rfl⟩ := List.cons.inj (List.append_cancel_left hq)
          rw [FileTree.lookup_of_mem hnodup hm]
          exact ⟨(isTemplateAt_singleton names _).2 hw, b, rfl⟩
        · obtain ⟨next, more, heq⟩ := exists_of_mem_templatesIn u hq
          rw [List.append_assoc, List.singleton_append] at heq
          obtain ⟨rfl, rfl⟩ := List.cons.inj (List.append_cancel_left heq)
          have hq' : names ++ [name] ++ next :: more ∈
              templatesIn c ignore (names ++ [name]) u := by simpa using hq
          obtain ⟨hat, hfile⟩ := (ih (hes _ hm).2 _).1 hq'
          rw [FileTree.lookup_of_mem hnodup hm]
          exact ⟨(isTemplateAt_cons names name (by simp)).2 ⟨he, hat⟩, hfile⟩
      · rintro ⟨hat, b, hb⟩
        obtain ⟨u, hu, hb⟩ := Option.bind_eq_some_iff.1 hb
        have hm := FileTree.mem_of_lookup hu
        cases rest with
        | nil =>
          have hu := FileTree.at?_eq_file.1 hb
          rw [FileTree.find?_nil] at hu
          obtain rfl := Option.some.inj hu
          exact Or.inl ⟨name, b, hm, (isTemplateAt_singleton names name).1 hat, rfl⟩
        | cons next more =>
          obtain ⟨he, hat⟩ := (isTemplateAt_cons names name (by simp)).1 hat
          have hq := (ih (hes _ hm).2 (names ++ [name])).2 ⟨hat, b, hb⟩
          exact Or.inr ⟨name, u, hm, he, by simpa using hq⟩

/-! ## Each template once -/

theorem nodup_filesIn {names : List String} {es : FileTree.Entries}
    (h : (es.map Prod.fst).Nodup) : (filesIn c ignore names es).Nodup := by
  induction es with
  | nil => simp [filesIn]
  | cons e es ih =>
    obtain ⟨name, t⟩ := e
    rw [List.map_cons, List.nodup_cons] at h
    cases t with
    | directory fs => exact ih h.2
    | file b =>
      rw [filesIn]
      split
      · rw [List.nodup_cons]
        refine ⟨fun hm => ?_, ih h.2⟩
        obtain ⟨n, d, hd, -, hq⟩ := mem_filesIn.1 hm
        obtain ⟨rfl, -⟩ := List.cons.inj (List.append_cancel_left hq)
        exact h.1 (List.mem_map.2 ⟨_, hd, rfl⟩)
      · exact ih h.2

mutual

theorem nodup_templatesIn (t : FileTree) (ht : t.isProper = true) (names : List String) :
    (templatesIn c ignore names t).Nodup := by
  cases t with
  | file b => exact List.nodup_nil
  | directory es =>
    obtain ⟨hn, hes⟩ := FileTree.isProper_directory.1 ht
    rw [templatesIn, List.nodup_append]
    refine ⟨nodup_filesIn hn, nodup_templatesBelow es hn hes names, ?_⟩
    -- A template of the directory itself is one name long, one from below is longer.
    rintro q hq r hq' rfl
    obtain ⟨name, b, -, -, rfl⟩ := mem_filesIn.1 hq
    obtain ⟨n, u, -, -, hu⟩ := mem_templatesBelow.1 hq'
    obtain ⟨next, rest, heq⟩ := exists_of_mem_templatesIn u hu
    have hl := congrArg List.length heq
    simp only [List.length_append, List.length_cons, List.length_nil] at hl
    omega

theorem nodup_templatesBelow (es : FileTree.Entries) (hn : (es.map Prod.fst).Nodup)
    (hes : ∀ e ∈ es, Path.isEntryName e.1 = true ∧ e.2.isProper = true) (names : List String) :
    (templatesBelow c ignore names es).Nodup := by
  cases es with
  | nil => exact List.nodup_nil
  | cons e es =>
    obtain ⟨name, t⟩ := e
    rw [List.map_cons, List.nodup_cons] at hn
    rw [List.forall_mem_cons] at hes
    rw [templatesBelow, List.nodup_append]
    refine ⟨?_, nodup_templatesBelow es hn.2 hes.2 names, ?_⟩
    · split
      · exact nodup_templatesIn t hes.1.2 _
      · exact List.nodup_nil
    · rintro q hq r hq' rfl
      split at hq
      · obtain ⟨m, u, hm, -, hu⟩ := mem_templatesBelow.1 hq'
        obtain ⟨next, rest, rfl⟩ := exists_of_mem_templatesIn t hq
        obtain ⟨next', rest', heq⟩ := exists_of_mem_templatesIn u hu
        rw [List.append_assoc, List.append_assoc, List.singleton_append,
          List.singleton_append] at heq
        obtain ⟨rfl, -⟩ := List.cons.inj (List.append_cancel_left heq)
        exact hn.1 (List.mem_map.2 ⟨_, hm, rfl⟩)
      · cases hq

end

/-! ## The list of templates -/

def IsTemplate (c : Config) (p : Path) : Prop :=
  ∃ names, p = c.templates ++ ⟨.relative, names⟩ ∧
    IsTemplateAt c (Ignore.ofEntries c.ignored) [] names

theorem mem_templates {files : FileTree} (hf : files.isProper = true) (hc : c.templates.IsReal)
    {p : Path} :
    p ∈ templates files c ↔ IsTemplate c p ∧ ∃ b, files.at? p.parts = some (.file b) := by
  unfold templates
  split
  · rename_i names t ha
    obtain ⟨-, ht⟩ := (FileTree.access_eq_entry_iff hc names).1 ha
    have hproper := (FileTree.isProper_of_find? hf ht).1
    have hat : ∀ rest, files.at? (c.templates.parts ++ rest) = t.at? rest := by
      intro rest
      rw [FileTree.at?, FileTree.find?_append, ht]
      rfl
    rw [List.mem_map]
    constructor
    · rintro ⟨rest, hm, rfl⟩
      obtain ⟨hat', hb⟩ := (mem_templatesIn hproper [] rest).1 (mem_sortNames.1 hm)
      exact ⟨⟨rest, rfl, hat'⟩, by simpa only [Path.append_relative, hat] using hb⟩
    · rintro ⟨⟨rest, rfl, hat'⟩, hb⟩
      simp only [Path.append_relative, hat] at hb
      exact ⟨rest, mem_sortNames.2 ((mem_templatesIn hproper [] rest).2 ⟨hat', hb⟩), rfl⟩
  · rename_i ha
    have hnone : files.at? c.templates.parts = none := by
      rw [FileTree.at?_eq_none, Option.eq_none_iff_forall_ne_some]
      intro t ht
      exact ha _ t ((FileTree.access_eq_entry_iff hc _).2 ⟨rfl, ht⟩)
    apply iff_of_false (by simp)
    rintro ⟨⟨rest, rfl, hat⟩, b, hb⟩
    have hne : rest ≠ [] := fun e => not_isTemplateAt_nil [] (e ▸ hat)
    rw [Path.append_relative, FileTree.at?_append_of_not_directory hne (by simp [hnone])] at hb
    cases hb

theorem templates_eq_map {files : FileTree} (hf : files.isProper = true) (hc : c.templates.IsReal) :
    ∃ ns : List (List String), ns.Nodup ∧
      templates files c = (sortNames ns).map fun names => c.templates ++ ⟨.relative, names⟩ := by
  unfold templates
  split
  · rename_i names t ha
    obtain ⟨-, ht⟩ := (FileTree.access_eq_entry_iff hc names).1 ha
    exact ⟨_, nodup_templatesIn t (FileTree.isProper_of_find? hf ht).1 [], rfl⟩
  · exact ⟨[], List.nodup_nil, by simp [sortNames]⟩

theorem append_relative_injective (p : Path) :
    Function.Injective fun names => p ++ (⟨.relative, names⟩ : Path) :=
  fun _ _ he => List.append_cancel_left (Path.mk.inj he).2

theorem nodup_templates {files : FileTree} (hf : files.isProper = true)
    (hc : c.templates.IsReal) : (templates files c).Nodup := by
  obtain ⟨ns, hn, he⟩ := templates_eq_map hf hc
  rw [he]
  exact (nodup_sortNames hn).map (append_relative_injective c.templates)

/-- Trees that hold files at the same template paths have the same list of templates. -/
theorem templates_congr {files other : FileTree} (hf : files.isProper = true)
    (ho : other.isProper = true) (hc : c.templates.IsReal)
    (h : ∀ p, p ∈ templates files c ↔ p ∈ templates other c) :
    templates files c = templates other c := by
  obtain ⟨ns, hn, hns⟩ := templates_eq_map hf hc
  obtain ⟨ms, hm, hms⟩ := templates_eq_map ho hc
  simp only [hns, hms, List.mem_map, mem_sortNames] at h ⊢
  rw [sortNames_congr hn hm]
  intro q
  have hinj := append_relative_injective c.templates
  constructor
  · intro hq
    obtain ⟨r, hr, he⟩ := (h _).1 ⟨q, hq, rfl⟩
    exact hinj he ▸ hr
  · intro hq
    obtain ⟨r, hr, he⟩ := (h _).2 ⟨q, hq, rfl⟩
    exact hinj he ▸ hr

/-! ## Generated files -/

def IsGenerated (c : Config) (p : Path) : Prop :=
  ∃ names, p = c.output ++ ⟨.relative, names⟩ ∧ Naming.isOutput (names.getLast?.getD "") = true

instance (c : Config) (p : Path) : Decidable (IsGenerated c p) :=
  decidable_of_iff
    ((p.below? c.output).any fun names => Naming.isOutput (names.getLast?.getD "")) <| by
      simp only [Option.any_eq_true, Path.below?_eq_some_iff, IsGenerated]

theorem mem_generated {files : FileTree} (hf : files.isProper = true) (hc : c.output.IsReal)
    {p : Path} : p ∈ generated files c.output ↔
      IsGenerated c p ∧ ∃ b, files.at? p.parts = some (.file b) := by
  unfold generated
  split
  · rename_i names es ha
    obtain ⟨-, ht⟩ := (FileTree.access_eq_entry_iff hc names).1 ha
    have hproper := (FileTree.isProper_of_find? hf ht).1
    have hat : ∀ rest, files.at? (c.output.parts ++ rest) = (FileTree.directory es).at? rest := by
      intro rest
      rw [FileTree.at?, FileTree.find?_append, ht]
      rfl
    simp only [List.mem_map, mem_sortNames, List.mem_filterMap]
    constructor
    · rintro ⟨rest, ⟨⟨r, b⟩, hm, hr⟩, rfl⟩
      split at hr
      · rename_i ho
        obtain rfl := Option.some.inj hr
        exact ⟨⟨r, rfl, ho⟩, b, by
          rw [Path.append_relative, hat]
          exact (FileTree.mem_files_iff hproper).1 hm⟩
      · cases hr
    · rintro ⟨⟨rest, rfl, ho⟩, b, hb⟩
      rw [Path.append_relative, hat] at hb
      exact ⟨rest, ⟨(rest, b), (FileTree.mem_files_iff hproper).2 hb, by rw [if_pos ho]⟩, rfl⟩
  · rename_i ha
    have hnone : files.at? c.output.parts ≠ some .directory := by
      intro hd
      obtain ⟨es, he⟩ := FileTree.access_of_directory hc hd
      exact ha _ es he
    apply iff_of_false (by simp)
    rintro ⟨⟨rest, rfl, ho⟩, b, hb⟩
    have hne : rest ≠ [] := by
      rintro rfl
      exact absurd ho (by decide)
    rw [Path.append_relative, FileTree.at?_append_of_not_directory hne hnone] at hb
    cases hb

/-- The generated files are in the order of their paths, and each is there once. -/
theorem pairwise_generated {files : FileTree} (hf : files.isProper = true)
    (hc : c.output.IsReal) :
    (generated files c.output).Pairwise fun p q => Path.le p q = true ∧ p ≠ q := by
  unfold generated
  split
  · rename_i names es ha
    obtain ⟨-, ht⟩ := (FileTree.access_eq_entry_iff hc names).1 ha
    have hnodup := FileTree.nodup_files _ (FileTree.isProper_of_find? hf ht).1
    rw [List.pairwise_map]
    refine List.Pairwise.and ?_ ?_
    · refine (pairwise_sortNames _).imp fun {a b} hle => ?_
      rw [Path.append_relative, Path.append_relative, Path.le, Path.sortKey, Path.sortKey, hc.1]
      have hbelow : ∀ l : List String, Path.namesLe (l ++ a) (l ++ b) = Path.namesLe a b := by
        intro l
        induction l with
        | nil => rfl
        | cons x l ih => rw [List.cons_append, List.cons_append, Path.namesLe, if_pos rfl, ih]
      exact (hbelow (Path.Anchor.text .root :: c.output.parts)).trans hle
    · have hnames : ((FileTree.files (.directory es)).filterMap fun f =>
          if Naming.isOutput (f.1.getLast?.getD "") then some f.1 else none).Nodup := by
        rw [List.Nodup, List.pairwise_filterMap]
        rw [List.Nodup, List.pairwise_map] at hnodup
        refine hnodup.imp fun {f g} hne q hq r hr he => ?_
        split at hq
        · split at hr
          · exact hne ((Option.some.inj hq).trans (he.trans (Option.some.inj hr).symm))
          · cases hr
        · cases hq
      exact (nodup_sortNames hnames).imp fun hne he => hne (append_relative_injective c.output he)
  · exact List.Pairwise.nil

end Discovery

end DocPress
