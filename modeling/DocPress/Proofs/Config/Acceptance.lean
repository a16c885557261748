import DocPress.Proofs.Config
import DocPress.Proofs.Path.Spelling
import DocPress.Proofs.Tracking

/-!
# Configurations that are accepted

A value is read as a configuration if it is a mapping of settings. Every other value is
refused with a fault of the configuration, but for two exceptions. An empty value that is
no list passes for no paths to leave out, and a key that is no text ends the reading before
its fault can be told.
-/

set_option autoImplicit false

namespace DocPress

namespace Value

mutual

/-- No text in a value has a NUL in it, or a surrogate without its partner. -/
def isNulFree : Value → Bool
  | .string s => !s.toList.contains '\x00'
  | .illFormed _ => false
  | .list items => areNulFree items
  | .mapping entries => areNulFreeEntries entries
  | _ => true

def areNulFree : List Value → Bool
  | [] => true
  | v :: vs => v.isNulFree && areNulFree vs

def areNulFreeEntries : List (Value × Value) → Bool
  | [] => true
  | (k, v) :: es => k.isNulFree && v.isNulFree && areNulFreeEntries es

end

theorem isNulFree_of_mem {es : List (Value × Value)} (h : (mapping es).isNulFree = true)
    {e : Value × Value} (he : e ∈ es) : e.2.isNulFree = true := by
  rw [isNulFree] at h
  induction es with
  | nil => cases he
  | cons d es ih =>
    rw [areNulFreeEntries, Bool.and_eq_true, Bool.and_eq_true] at h
    rcases List.mem_cons.1 he with rfl | he
    · exact h.1.2
    · exact ih h.2 he

end Value

namespace Config

variable {base : Path} {context : String} {es : List (Value × Value)} {a : Attributes} {v : Value}

/-- A mapping of settings, with a list of paths to leave out if there is one. -/
def IsWellFormed (v : Value) : Prop :=
  ∃ es, v = .mapping es ∧ AreSettings es ∧ ListsPaths ((settings es).get ignoreKey)

/-- A mapping of settings that is well formed but for the paths to leave out: they are given by
an empty value that is no list. -/
def IgnoresHollow (v : Value) : Prop :=
  ∃ es, v = .mapping es ∧ AreSettings es ∧ IsHollow ((settings es).get ignoreKey)

/-- A mapping with a key that is no text; those that are texts mean different settings. -/
def HasStrayKey (v : Value) : Prop :=
  ∃ es, v = .mapping es ∧ (Ordered.keys (settings es)).Nodup ∧
    ∃ e ∈ es, ¬∃ key, e.1 = .string key

/-! ## Reading the settings -/

theorem directory_eq (hb : base.hasNul = false) {s : String} (hs : '\x00' ∉ s.toList) :
    directory base s = .ok (base ++ Path.ofString s).real := by
  have hn := Path.hasNul_append hb (Path.hasNul_ofString hs)
  simp [directory, hn]

def AreNulFree (a : Attributes) : Prop := ∀ key s, a.get key = .string s → '\x00' ∉ s.toList

theorem areNulFree_settings (h : (Value.mapping es).isNulFree = true) :
    AreNulFree (settings es) := by
  intro key s hs
  obtain ⟨e, he, hset⟩ := List.mem_filterMap.1 (Attributes.mem_of_get hs (by simp))
  have hfree := Value.isNulFree_of_mem h he
  unfold setting? at hset
  split at hset
  · obtain ⟨-, rfl⟩ := Prod.mk.inj (Option.some.inj hset)
    simpa [Value.isNulFree] using hfree
  · cases hset

theorem decides_rest (templates output : Path) (ignored debounce : Value) :
    Decides
      (do
        let ignored ← (readIgnored context ignored).mapError .config
        let debounce ← (readDebounce context debounce).mapError .config
        pure ⟨templates, output, ignored, debounce⟩)
      (PassesForPaths ignored ∧ IsTime debounce)
      (⟨templates, output, pathsOf ignored, timeOf debounce⟩ : Config) := by
  rw [← and_true (IsTime debounce)]
  exact (decides_mapError fun _ => readIgnored_eq_ok_iff).bind
    ((decides_mapError fun _ => readDebounce_eq_ok_iff).bind (decides_ok _))

theorem ofEntries_decides (hb : base.hasNul = false) (ha : AreNulFree a) :
    Decides (ofEntries base context a)
      (AreFilled a ∧ PassesForPaths (a.get ignoreKey)) (described base a) := by
  unfold ofEntries
  -- both directories are known to be there before either is looked at for a text
  refine (Decides.guard _ (Decides.guard (p := ((∃ s, a.get templatesKey = .string s) ∧
    ∃ s, a.get outputKey = .string s) ∧ PassesForPaths (a.get ignoreKey) ∧
      IsTime (a.get debounceKey)) _ ?_)).congr ?_
  · split
    · next t o ht ho =>
      rw [described, ht, ho, directory_eq hb (ha _ _ ht), directory_eq hb (ha _ _ ho)]
      exact (decides_rest _ _ _ _).congr (by simp)
    · next hno =>
      refine decides_error _ _ ?_
      rintro ⟨⟨⟨t, ht⟩, o, ho⟩, -⟩
      exact hno t o ht ho
  · constructor
    · rintro ⟨ht, ho, ⟨⟨hts, hos⟩, hi, hd⟩⟩
      exact ⟨⟨namesDirectory_iff.2 ⟨ht, hts⟩, namesDirectory_iff.2 ⟨ho, hos⟩, hd⟩, hi⟩
    · rintro ⟨⟨ht, ho, hd⟩, hi⟩
      obtain ⟨ht, hts⟩ := namesDirectory_iff.1 ht
      obtain ⟨ho, hos⟩ := namesDirectory_iff.1 ho
      exact ⟨ht, ho, ⟨hts, hos⟩, hi, hd⟩

theorem canonicalEntries_decides (es : List (Value × Value)) :
    Decides ((canonicalEntries [] es).mapError .config) (Ordered.keys (settings es)).Nodup
      (settings es) :=
  decides_mapError fun _ => canonicalEntries_eq_ok_iff List.nodup_nil

theorem unknownKeys_decides {p : Prop} {r : Except Failure Config} {c : Config}
    (h : Decides r p c) :
    Decides
      (match unknownKeys a with
      | [] => r
      | names => .error (.config (.unknownKeys context names)))
      ((∀ key ∈ Ordered.keys a, key ∈ keys) ∧ p) c := by
  rw [← unknownKeys_eq_nil_iff]
  split
  · next he => exact h.congr (and_iff_right he).symm
  · next hne => exact decides_error _ _ fun h => hne h.1

theorem ofValue_mapping (hne : es ≠ []) : ofValue base context (.mapping es) =
    (canonicalEntries [] es).mapError .config >>= fun a =>
      if es.any fun e => !isText e.1 then .error .wrongType
      else
        match unknownKeys a with
        | [] => ofEntries base context a
        | names => .error (.config (.unknownKeys context names)) := by
  have ht : (Value.mapping es).isTruthy = true := by simpa [Value.isTruthy] using hne
  unfold ofValue
  rw [ht]
  rfl

/-- The keys of a mapping are told apart before it is looked at whether all are texts. -/
theorem ofValue_of_stray (base : Path) (context : String)
    (h : ∃ e ∈ es, ¬∃ key, e.1 = .string key) :
    ((Ordered.keys (settings es)).Nodup ∧
        ofValue base context (.mapping es) = .error .wrongType) ∨
      (¬(Ordered.keys (settings es)).Nodup ∧
        ∃ fault, ofValue base context (.mapping es) = .error (.config fault)) := by
  obtain ⟨e, he, hkey⟩ := h
  have hany : (es.any fun e => !isText e.1) = true :=
    List.any_eq_true.2 ⟨e, he, by simpa [← isText_iff] using hkey⟩
  rw [ofValue_mapping (List.ne_nil_of_mem he), hany]
  obtain ⟨hn, hc⟩ | ⟨hn, fault, hc⟩ := canonicalEntries_decides es
  · exact .inl ⟨hn, by rw [hc]; rfl⟩
  · exact .inr ⟨hn, fault, by rw [hc]; rfl⟩

theorem ofValue_of_texts (context : String) (hb : base.hasNul = false)
    (hv : (Value.mapping es).isNulFree = true) (ht : ∀ e ∈ es, ∃ key, e.1 = .string key) :
    Decides (ofValue base context (.mapping es))
      (AreSettings es ∧ PassesForPaths ((settings es).get ignoreKey))
      (described base (settings es)) := by
  by_cases hne : es = []
  · subst hne
    refine decides_error _ _ ?_
    rintro ⟨⟨-, -, -, ⟨⟨s, hs, -⟩, -, -⟩⟩, -⟩
    cases hs
  · have hany : (es.any fun e => !isText e.1) = false := by
      simpa [List.any_eq_false, isText_iff] using ht
    rw [ofValue_mapping hne, hany]
    refine ((canonicalEntries_decides es).bind
      (unknownKeys_decides (ofEntries_decides hb (areNulFree_settings hv)))).congr ?_
    exact ⟨fun ⟨hn, hknown, hfilled, hi⟩ => ⟨⟨ht, hn, hknown, hfilled⟩, hi⟩,
      fun ⟨h, hi⟩ => ⟨h.distinct, h.known, h.filled, hi⟩⟩

theorem ofValue_of_not_mapping (base : Path) (context : String) (hv : ∀ es, v ≠ .mapping es) :
    ∃ fault, ofValue base context v = .error (.config fault) := by
  unfold ofValue
  split
  · exact ⟨_, rfl⟩
  · split
    · exact absurd rfl (hv _)
    · exact ⟨_, rfl⟩

theorem accepted_mapping_iff : IsWellFormed (.mapping es) ∨ IgnoresHollow (.mapping es) ↔
    AreSettings es ∧ PassesForPaths ((settings es).get ignoreKey) := by
  simp [IsWellFormed, IgnoresHollow, PassesForPaths, and_or_left]

theorem HasStrayKey.not_accepted (h : HasStrayKey v) : ¬(IsWellFormed v ∨ IgnoresHollow v) := by
  obtain ⟨es, rfl, -, e, he, hkey⟩ := h
  rw [accepted_mapping_iff]
  exact fun h => hkey (h.1.texts e he)

theorem ofValue_of_hasStrayKey (base : Path) (context : String) (h : HasStrayKey v) :
    ofValue base context v = .error .wrongType := by
  obtain ⟨es, rfl, hn, hstray⟩ := h
  obtain ⟨-, hr⟩ | ⟨hnot, -⟩ := ofValue_of_stray base context hstray
  · exact hr
  · exact absurd hn hnot

theorem ofValue_decides (context : String) (hb : base.hasNul = false)
    (hv : (Value.mapping es).isNulFree = true) (hs : ¬HasStrayKey (.mapping es)) :
    Decides (ofValue base context (.mapping es))
      (IsWellFormed (.mapping es) ∨ IgnoresHollow (.mapping es))
      (described base (settings es)) := by
  rw [accepted_mapping_iff]
  by_cases ht : ∀ e ∈ es, ∃ key, e.1 = .string key
  · exact ofValue_of_texts context hb hv ht
  · have hstray : ∃ e ∈ es, ¬∃ key, e.1 = .string key := by simpa using ht
    obtain ⟨hn, -⟩ | ⟨hn, fault, hr⟩ := ofValue_of_stray base context hstray
    · exact absurd ⟨es, rfl, hn, hstray⟩ hs
    · rw [hr]
      exact decides_error fault _ fun h => hn h.1.distinct

/-- A value is accepted exactly if it is a mapping of settings, with a list of paths to leave out
or none, or with an empty value where the list should be; what it describes is the configuration.
Every other value is refused with a fault of the configuration, except for mappings with a key
that is no text: if the other keys have different meanings, the reading ends otherwise. -/
theorem ofValue_accepts_iff (base : Path) (context : String) (v : Value)
    (hb : base.hasNul = false) (hv : v.isNulFree = true) :
    ((∃ c, ofValue base context v = .ok c) ↔ IsWellFormed v ∨ IgnoresHollow v) ∧
      (∀ es c, v = .mapping es → ofValue base context v = .ok c →
        c = described base (settings es)) ∧
      ((∃ fault, ofValue base context v = .error (.config fault)) ↔
        ¬(IsWellFormed v ∨ IgnoresHollow v) ∧ ¬HasStrayKey v) ∧
      (ofValue base context v = .error .wrongType ↔ HasStrayKey v) := by
  by_cases hs : HasStrayKey v
  · rw [ofValue_of_hasStrayKey base context hs]
    simp [hs, hs.not_accepted]
  by_cases hm : ∃ es, v = .mapping es
  · obtain ⟨es, rfl⟩ := hm
    obtain ⟨hp, hr⟩ | ⟨hp, fault, hr⟩ := ofValue_decides context hb hv hs
    · rw [hr]
      simp [hs, hp]
    · rw [hr]
      simp [hs, hp]
  · have hp : ¬(IsWellFormed v ∨ IgnoresHollow v) := by
      rintro (⟨es, he, -⟩ | ⟨es, he, -⟩)
      · exact hm ⟨es, he⟩
      · exact hm ⟨es, he⟩
    obtain ⟨fault, hr⟩ := ofValue_of_not_mapping base context fun es he => hm ⟨es, he⟩
    rw [hr]
    simp [hs, hp]

def spelledEntries (ignored : Value) : List (Value × Value) :=
  [(.string "outputDir", .string "../o"), (.string "ignore", ignored),
    (.string "templates_dir", .string "t"), (.string "debounceMs", .null)]

theorem keys_spelledEntries (ignored : Value) : Ordered.keys (settings (spelledEntries ignored)) =
    [outputKey, ignoreKey, templatesKey, debounceKey] := rfl

theorem areSettings_spelledEntries (ignored : Value) : AreSettings (spelledEntries ignored) where
  texts := by simp [spelledEntries]
  distinct := by rw [keys_spelledEntries]; decide
  known := by rw [keys_spelledEntries]; decide
  filled := ⟨⟨"t", rfl, by decide⟩, ⟨"../o", rfl, by decide⟩, .inl rfl⟩

/-- A list of a path is accepted, and the path is trimmed; a list of a blank text is refused. -/
theorem ofValue_accepts_iff_of_spellings :
    let base : Path := ⟨.root, ["p"]⟩
    let good : Value := .mapping (spelledEntries (.list [.string " a b "]))
    let blank : Value := .mapping (spelledEntries (.list [.string " "]))
    base.hasNul = false ∧ good.isNulFree = true ∧ blank.isNulFree = true ∧
      ofValue base "mdr.yaml" good = .ok ⟨⟨.root, ["p", "t"]⟩, ⟨.root, ["o"]⟩, ["a b"], 100⟩ ∧
      ∃ fault, ofValue base "mdr.yaml" blank = .error (.config fault) := by
  intro base good blank
  have hbase : base.hasNul = false := by decide
  have hgood : good.isNulFree = true := by decide
  have hblank : blank.isNulFree = true := by decide
  obtain ⟨haccepts, hdescribed, -, -⟩ := ofValue_accepts_iff base "mdr.yaml" good hbase hgood
  obtain ⟨-, -, hrefuses, -⟩ := ofValue_accepts_iff base "mdr.yaml" blank hbase hblank
  refine ⟨hbase, hgood, hblank, ?_, hrefuses.2 ⟨fun h => ?_, ?_⟩⟩
  · have hpaths : ListsPaths (.list [.string " a b "]) :=
      .inr ⟨_, rfl, fun item hi => ⟨" a b ", List.mem_singleton.1 hi, by decide⟩⟩
    obtain ⟨c, hc⟩ := haccepts.2 (.inl ⟨_, rfl, areSettings_spelledEntries _, hpaths⟩)
    rw [hc, hdescribed _ c rfl hc]
    decide +kernel
  · obtain ⟨-, (h | ⟨items, he, hitems⟩) | h⟩ := accepted_mapping_iff.1 h
    · cases h
    · cases he
      obtain ⟨s, hs, hsolid⟩ := hitems _ (List.mem_singleton_self _)
      cases hs
      exact absurd hsolid (by decide)
    · cases h
  · rintro ⟨es, he, -, e, hm, hkey⟩
    obtain rfl := Value.mapping.inj he
    exact hkey ((areSettings_spelledEntries _).texts e hm)

def strayValue : Value := .mapping ((.int 1, .string "x") :: spelledEntries .null)

def hollowValue : Value := .mapping (spelledEntries (.bool false))

/-- A number as a key is not refused, and a truth value is accepted where a list should be. -/
theorem not_refuses_every_ill_formed_value :
    (¬ ∀ (base : Path) (context : String) (v : Value), base.hasNul = false → v.isNulFree = true →
      (∃ c, ofValue base context v = .ok c) ∨
        ∃ fault, ofValue base context v = .error (.config fault)) ∧
    ¬ ∀ (base : Path) (context : String) (v : Value), base.hasNul = false → v.isNulFree = true →
      ((∃ c, ofValue base context v = .ok c) ↔ IsWellFormed v) := by
  have hroot : Path.rootDirectory.hasNul = false := by decide
  constructor
  · intro h
    have hstray : HasStrayKey strayValue :=
      ⟨_, rfl, (areSettings_spelledEntries .null).distinct, _, List.mem_cons_self .., by simp⟩
    have hr := ofValue_of_hasStrayKey .rootDirectory "mdr.yaml" hstray
    obtain ⟨c, hc⟩ | ⟨fault, hf⟩ := h _ "mdr.yaml" strayValue hroot (by decide)
    · cases hr.symm.trans hc
    · cases hr.symm.trans hf
  · intro h
    have hset := areSettings_spelledEntries (.bool false)
    obtain ⟨-, hr⟩ | ⟨hp, -⟩ := ofValue_of_texts "mdr.yaml" hroot (by decide) hset.texts
    · obtain ⟨es, he, -, hlists⟩ := (h _ _ hollowValue hroot (by decide)).1 ⟨_, hr⟩
      obtain rfl := Value.mapping.inj he
      obtain hnone | ⟨items, hitems, -⟩ := hlists
      · cases hnone
      · cases hitems
    · exact hp ⟨hset, .inr .no⟩

end Config

end DocPress
