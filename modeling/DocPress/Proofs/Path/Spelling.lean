import DocPress.Proofs.Naming

/-!
# Paths as texts

A path over names that entries can have is written with slashes between them, and
reading that text gives the path back. Whether it ends in some suffix is told by
its last name alone.
-/

set_option autoImplicit false

namespace DocPress

namespace Path

theorem splitOn_eq (sep : Char) (s : List Char) : splitOn sep s = s.splitOn sep := by
  induction s with
  | nil => rfl
  | cons c s ih =>
    rw [splitOn, ih, List.splitOn_cons_eq_if_modifyHead]
    by_cases hc : c = sep
    · simp [hc]
    · simp only [if_neg hc, beq_iff_eq]
      cases hs : s.splitOn sep with
      | nil => exact absurd hs (List.splitOn_ne_nil sep s)
      | cons p ps => rfl

theorem isEntryName_iff {name : String} : isEntryName name = true ↔
    name ≠ "" ∧ name ≠ "." ∧ name ≠ ".." ∧ '/' ∉ name.toList ∧ '\x00' ∉ name.toList := by
  simp only [isEntryName, Bool.and_eq_true, bne_iff_ne, List.all_eq_true, ne_eq]
  constructor
  · rintro ⟨⟨⟨h1, h2⟩, h3⟩, h4⟩
    exact ⟨h1, h2, h3, fun hm => (h4 _ hm).1 rfl, fun hm => (h4 _ hm).2 rfl⟩
  · rintro ⟨h1, h2, h3, h4, h5⟩
    exact ⟨⟨⟨h1, h2⟩, h3⟩, fun c hc => ⟨fun e => h4 (e ▸ hc), fun e => h5 (e ▸ hc)⟩⟩

theorem isName_of_isEntryName {name : String} (h : isEntryName name = true) :
    isName name.toList = true := by
  obtain ⟨hempty, hdot, -⟩ := isEntryName_iff.1 h
  simp only [isName, Bool.and_eq_true, bne_iff_ne, ne_eq]
  refine ⟨fun e => hempty (String.toList_eq_nil_iff.1 e), fun e => hdot ?_⟩
  rw [← String.ofList_toList (s := name), e]

theorem names_intercalate {ns : List String} (h : ∀ name ∈ ns, isEntryName name = true) :
    names ("/".intercalate ns).toList = ns := by
  by_cases hne : ns = []
  · subst hne
    decide
  · have hslash : ∀ p ∈ ns.map String.toList, '/' ∉ p := by
      intro p hp
      obtain ⟨name, hm, rfl⟩ := List.mem_map.1 hp
      exact (isEntryName_iff.1 (h name hm)).2.2.2.1
    have hkeep : (ns.map String.toList).filter isName = ns.map String.toList := by
      rw [List.filter_eq_self]
      intro p hp
      obtain ⟨name, hm, rfl⟩ := List.mem_map.1 hp
      exact isName_of_isEntryName (h name hm)
    rw [names, String.toList_intercalate, splitOn_eq,
      show ("/" : String).toList = ['/'] by decide,
      List.splitOn_intercalate '/' hslash (by simpa using hne), hkeep, List.map_map]
    simp [Function.comp_def]

theorem toList_toString {p : Path} (ha : p.anchor = .root) :
    p.toString.toList = '/' :: ("/".intercalate p.parts).toList := by
  rw [Path.toString, if_neg (by simp [ha]), ha, String.toList_append]
  rfl

/-- A path that is not relative is written with a slash before its names, or with two. -/
theorem exists_toList_toString {p : Path} (ha : p.anchor ≠ .relative) :
    ∃ front, p.toString.toList = front ++ '/' :: ("/".intercalate p.parts).toList := by
  rw [Path.toString, if_neg (by simp [ha]), String.toList_append]
  cases h : p.anchor with
  | relative => exact absurd h ha
  | root => exact ⟨[], rfl⟩
  | doubleRoot => exact ⟨['/'], rfl⟩

theorem ofString_of_slash {s : String} {r : List Char} (hs : s.toList = '/' :: r)
    (hr : r.head? ≠ some '/') : ofString s = ⟨.root, names r⟩ := by
  unfold ofString
  split
  · rename_i heq
    obtain rfl := (List.cons.inj (hs.symm.trans heq)).2
    exact absurd rfl hr
  · rename_i heq
    obtain rfl := (List.cons.inj (hs.symm.trans heq)).2
    exact absurd rfl hr
  · rename_i heq
    rw [(List.cons.inj (hs.symm.trans heq)).2]
  · rename_i hno
    exact absurd hs (hno r)

theorem ofString_of_slashes {s : String} {r : List Char} (hs : s.toList = '/' :: '/' :: r)
    (hr : r.head? ≠ some '/') : ofString s = ⟨.doubleRoot, names r⟩ := by
  unfold ofString
  split
  · rename_i heq
    obtain rfl := (List.cons.inj (List.cons.inj (hs.symm.trans heq)).2).2
    exact absurd rfl hr
  · rename_i heq
    rw [(List.cons.inj (List.cons.inj (hs.symm.trans heq)).2).2]
  · rename_i hno heq
    exact absurd (List.cons.inj (heq.symm.trans hs)).2 (hno r)
  · rename_i hno _
    exact absurd hs (hno r)

theorem head?_intercalate_ne_slash {ns : List String}
    (h : ∀ name ∈ ns, isEntryName name = true) : ("/".intercalate ns).toList.head? ≠ some '/' := by
  cases ns with
  | nil => decide
  | cons name ns =>
    obtain ⟨hempty, -, -, hslash, -⟩ := isEntryName_iff.1 (h name (List.mem_cons_self ..))
    obtain ⟨c, r, hr⟩ := List.exists_cons_of_ne_nil
      fun e => hempty (String.toList_eq_nil_iff.1 e)
    have hhead : ("/".intercalate (name :: ns)).toList.head? = some c := by
      cases ns with
      | nil => simp [hr]
      | cons m ns => simp [String.intercalate_cons_cons, hr]
    rw [hhead]
    rintro he
    rw [hr, ← Option.some.inj he] at hslash
    exact hslash (List.mem_cons_self ..)

theorem ofString_toString {p : Path} (ha : p.anchor = .root)
    (h : ∀ name ∈ p.parts, isEntryName name = true) : ofString p.toString = p := by
  obtain ⟨anchor, parts⟩ := p
  simp only at ha h
  subst ha
  rw [ofString_of_slash (toList_toString rfl) (head?_intercalate_ne_slash h),
    names_intercalate h]

theorem ofString_toString_of_absolute {p : Path} (ha : p.anchor ≠ .relative)
    (h : ∀ name ∈ p.parts, isEntryName name = true) : ofString p.toString = p := by
  obtain ⟨anchor, parts⟩ := p
  cases anchor with
  | relative => exact absurd rfl ha
  | root => exact ofString_toString rfl h
  | doubleRoot =>
    have hs : (toString ⟨.doubleRoot, parts⟩).toList =
        '/' :: '/' :: ("/".intercalate parts).toList := by
      rw [Path.toString, if_neg (by simp), String.toList_append,
        show (Anchor.text .doubleRoot).toList = ['/', '/'] by decide]
      rfl
    rw [ofString_of_slashes hs (head?_intercalate_ne_slash h), names_intercalate h]

/-! ## Paths without NUL -/

theorem subset_of_mem_splitOn {sep : Char} {s p : List Char} (hp : p ∈ splitOn sep s) : p ⊆ s := by
  induction s generalizing p with
  | nil => simp_all [splitOn]
  | cons a s ih =>
    rw [splitOn] at hp
    split at hp
    · rcases List.mem_cons.1 hp with rfl | hp
      · exact List.nil_subset _
      · exact List.subset_cons_of_subset _ (ih hp)
    · split at hp
      · rw [List.mem_singleton.1 hp]
        exact List.cons_subset_cons _ (List.nil_subset _)
      · next q qs hs =>
        rcases List.mem_cons.1 hp with rfl | hp
        · exact List.cons_subset_cons _ (ih (hs ▸ List.mem_cons_self ..))
        · exact List.subset_cons_of_subset _ (ih (hs ▸ List.mem_cons_of_mem _ hp))

theorem subset_of_mem_ofString {s name : String} (h : name ∈ (ofString s).parts) :
    name.toList ⊆ s.toList := by
  have hnames : ∀ r : List Char, r ⊆ s.toList → name ∈ names r → name.toList ⊆ s.toList := by
    intro r hr hm
    obtain ⟨p, hp, rfl⟩ := List.mem_map.1 hm
    rw [String.toList_ofList]
    exact List.Subset.trans (subset_of_mem_splitOn (List.mem_of_mem_filter hp)) hr
  unfold ofString at h
  split at h <;> refine hnames _ ?_ h <;> simp_all [List.subset_def]

theorem hasNul_ofString {s : String} (h : '\x00' ∉ s.toList) : (ofString s).hasNul = false := by
  rw [hasNul, List.any_eq_false]
  intro name hm
  simpa using fun hc => h (subset_of_mem_ofString hm hc)

theorem hasNul_append {p q : Path} (hp : p.hasNul = false) (hq : q.hasNul = false) :
    (p ++ q).hasNul = false := by
  show (join p q).hasNul = false
  unfold join
  split
  · simp only [hasNul, List.any_append, Bool.or_eq_false_iff]
    exact ⟨hp, hq⟩
  · exact hq

theorem hasNul_parent {p : Path} (hp : p.hasNul = false) : p.parent.hasNul = false := by
  rw [hasNul, List.any_eq_false] at hp ⊢
  exact fun name hm => hp name (List.dropLast_subset _ hm)

end Path

namespace Naming

theorem suffix_append_iff {sep : Char} {suffix name : List Char} (front : List Char)
    (hs : sep ∉ suffix) :
    suffix <:+ front ++ sep :: name ↔ suffix <:+ name := by
  constructor
  · intro h
    rcases Nat.le_total suffix.length name.length with hl | hl
    · exact List.suffix_of_suffix_length_le h ⟨front ++ [sep], by simp⟩ hl
    · have hname : name <:+ suffix :=
        List.suffix_of_suffix_length_le ⟨front ++ [sep], by simp⟩ h hl
      by_cases he : name.length = suffix.length
      · obtain rfl := hname.eq_of_length he
        exact List.suffix_refl name
      · have hsep : sep :: name <:+ suffix :=
          List.suffix_of_suffix_length_le ⟨front, rfl⟩ h (by simp; omega)
        exact absurd (hsep.subset (List.mem_cons_self ..)) hs
  · exact fun h => h.trans ⟨front ++ [sep], by simp⟩

/-- What a path that is not relative ends with is what its last name ends with, if no slash is
in it. -/
theorem endsWith_toString_of_absolute {p : Path} (ha : p.anchor ≠ .relative) {suffix : String}
    (hs : '/' ∉ suffix.toList) : endsWith p.toString suffix = endsWith p.name suffix := by
  obtain ⟨front, hfront⟩ := Path.exists_toList_toString ha
  rw [Bool.eq_iff_iff, endsWith, endsWith, List.isSuffixOf_iff_suffix, List.isSuffixOf_iff_suffix,
    hfront]
  rcases List.eq_nil_or_concat p.parts with he | ⟨names, name, he⟩
  · rw [Path.name, he]
    exact suffix_append_iff front hs
  · rw [Path.name, he, List.concat_eq_append, List.getLast?_concat, Option.getD_some]
    by_cases hn : names = []
    · rw [hn, List.nil_append, String.intercalate_singleton]
      exact suffix_append_iff front hs
    · rw [String.intercalate_append_of_ne_nil hn (by simp), String.intercalate_singleton,
        String.toList_append, String.toList_append]
      have hlist : front ++ '/' :: (("/".intercalate names).toList ++ "/".toList ++ name.toList) =
          (front ++ '/' :: ("/".intercalate names).toList) ++ '/' :: name.toList := by simp
      rw [hlist]
      exact suffix_append_iff _ hs

theorem endsWith_toString {p : Path} (ha : p.anchor = .root) {suffix : String}
    (hs : '/' ∉ suffix.toList) : endsWith p.toString suffix = endsWith p.name suffix :=
  endsWith_toString_of_absolute (by simp [ha]) hs

end Naming

end DocPress
