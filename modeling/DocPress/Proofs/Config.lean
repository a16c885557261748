import DocPress.Config
import DocPress.Proofs.Evaluation
import DocPress.Proofs.Scoping
import DocPress.Proofs.Text.Scanning

/-!
# Settings

The entries of a mapping, under the keys that they mean, are settings. Each directory has
a name, the paths to leave out are a list of texts that are not blank, and the time is an
integer that is not negative; those two may be left out. Each part of the reader accepts
what such values hold and nothing else, but for an empty value in place of the list.
-/

set_option autoImplicit false

namespace DocPress

theorem Ordered.isSome_get?_iff {α : Type} {d : Ordered α} {key : String} :
    (d.get? key).isSome = true ↔ key ∈ d.keys := by
  rw [get?, List.lookup_isSome_iff, keys, List.mem_map]
  exact exists_congr fun e => and_congr_right fun _ => by rw [beq_iff_eq, eq_comm]

theorem Attributes.mem_of_get {a : Attributes} {key : String} {v : Value} (h : a.get key = v)
    (hv : v ≠ .null) : (key, v) ∈ a := by
  unfold Attributes.get at h
  cases hg : Ordered.get? a key with
  | none => exact absurd (h.symm.trans (by rw [hg]; rfl)) hv
  | some w =>
    rw [hg, Option.getD_some] at h
    obtain ⟨l, r, rfl, -⟩ := List.lookup_eq_some_iff.1 (h ▸ hg)
    simp

namespace Config

variable {base : Path} {context : String} {es : List (Value × Value)} {a : Attributes} {v : Value}

/-! ## Settings -/

def setting? : Value × Value → Option (String × Value)
  | (.string key, v) => some (canonical key, v)
  | _ => none

def settings (es : List (Value × Value)) : Attributes := es.filterMap setting?

def NamesDirectory (v : Value) : Prop := ∃ s, v = .string s ∧ s ≠ ""

def ListsPaths (v : Value) : Prop :=
  v = .null ∨ ∃ items, v = .list items ∧
    ∀ item ∈ items, ∃ s, item = .string s ∧ Text.isBlankText s.toList = false

def IsTime (v : Value) : Prop := v = .null ∨ ∃ n : Nat, v = .int n

structure AreFilled (a : Attributes) : Prop where
  templates : NamesDirectory (a.get templatesKey)
  output : NamesDirectory (a.get outputKey)
  debounce : IsTime (a.get debounceKey)

/-- Entries whose keys are texts that mean different settings, and whose values fill these. -/
structure AreSettings (es : List (Value × Value)) : Prop where
  texts : ∀ e ∈ es, ∃ key, e.1 = .string key
  distinct : (Ordered.keys (settings es)).Nodup
  known : ∀ key ∈ Ordered.keys (settings es), key ∈ keys
  filled : AreFilled (settings es)

/-- A value that counts as empty, though it is neither nothing nor a list. -/
inductive IsHollow : Value → Prop
  | no : IsHollow (.bool false)
  | zero : IsHollow (.int 0)
  | zeroFloat {x : Binary64} (h : x.isZero = true) : IsHollow (.float x)
  | text : IsHollow (.string "")
  | mapping : IsHollow (.mapping [])

def PassesForPaths (v : Value) : Prop := ListsPaths v ∨ IsHollow v

def placeOf (base : Path) : Value → Path
  | .string s => (base ++ Path.ofString s).real
  | _ => base

def trimmed : Value → String
  | .string s => String.ofList (Text.strip s.toList)
  | _ => ""

def pathsOf : Value → List String
  | .list items => items.map trimmed
  | _ => []

def timeOf : Value → Nat
  | .int n => n.toNat
  | _ => defaultDebounce

def described (base : Path) (a : Attributes) : Config :=
  ⟨placeOf base (a.get templatesKey), placeOf base (a.get outputKey), pathsOf (a.get ignoreKey),
    timeOf (a.get debounceKey)⟩

theorem isText_iff : isText v = true ↔ ∃ s, v = .string s := by
  cases v <;> simp [isText]

theorem namesDirectory_iff : NamesDirectory v ↔ v.isTruthy = true ∧ ∃ s, v = .string s := by
  constructor
  · rintro ⟨s, rfl, hs⟩
    exact ⟨by simpa [Value.isTruthy] using hs, s, rfl⟩
  · rintro ⟨ht, s, rfl⟩
    exact ⟨s, rfl, by simpa [Value.isTruthy] using ht⟩

theorem isTruthy_eq_false_iff :
    v.isTruthy = false ↔ v = .null ∨ v = .list [] ∨ IsHollow v := by
  constructor
  · intro h
    cases v with
    | null => exact .inl rfl
    | bool b => cases b with
      | false => exact .inr (.inr .no)
      | true => cases h
    | int n =>
      obtain rfl : n = 0 := by simpa [Value.isTruthy] using h
      exact .inr (.inr .zero)
    | float x => exact .inr (.inr (.zeroFloat (by simpa [Value.isTruthy] using h)))
    | string s =>
      obtain rfl : s = "" := by simpa [Value.isTruthy] using h
      exact .inr (.inr .text)
    | illFormed | date => cases h
    | list items =>
      obtain rfl : items = [] := by simpa [Value.isTruthy] using h
      exact .inr (.inl rfl)
    | mapping entries =>
      obtain rfl : entries = [] := by simpa [Value.isTruthy] using h
      exact .inr (.inr .mapping)
  · rintro (rfl | rfl | h)
    · rfl
    · rfl
    · cases h with
      | zeroFloat h => simp [Value.isTruthy, h]
      | _ => rfl

/-! ## Readings that decide -/

section

variable {α β : Type} {p q : Prop} {b : α} {c : β} {r : Except Failure α}

/-- A reading yields a value exactly if a condition holds, and a fault of the configuration
otherwise. -/
def Decides (r : Except Failure α) (p : Prop) (b : α) : Prop :=
  (p ∧ r = .ok b) ∨ (¬p ∧ ∃ fault, r = .error (.config fault))

theorem decides_ok (b : α) : Decides (.ok b) True b := .inl ⟨trivial, rfl⟩

theorem decides_error (fault : ConfigFault) (b : α) (hp : ¬p) :
    Decides (.error (.config fault)) p b := .inr ⟨hp, fault, rfl⟩

theorem Decides.congr (h : Decides r p b) (hpq : p ↔ q) : Decides r q b := by
  rwa [propext hpq] at h

theorem decides_mapError {x : Except ConfigFault α} (h : ∀ y, x = .ok y ↔ p ∧ y = b) :
    Decides (x.mapError .config) p b := by
  cases x with
  | ok y =>
    obtain ⟨hp, rfl⟩ := (h y).1 rfl
    exact .inl ⟨hp, rfl⟩
  | error fault => exact decides_error fault b fun hp => by cases (h b).2 ⟨hp, rfl⟩

theorem Decides.bind {f : α → Except Failure β} (hr : Decides r p b)
    (hf : Decides (f b) q c) : Decides (r >>= f) (p ∧ q) c := by
  obtain ⟨hp, rfl⟩ | ⟨hp, fault, rfl⟩ := hr
  · exact hf.congr (and_iff_right hp).symm
  · exact decides_error fault c fun h => hp h.1

theorem Decides.guard {t : Bool} (fault : ConfigFault) (h : Decides r p b) :
    Decides (if !t then .error (.config fault) else r) (t = true ∧ p) b := by
  cases t with
  | false => exact decides_error fault b fun h => by cases h.1
  | true => exact h.congr (and_iff_right rfl).symm

end

/-! ## Reading the parts -/

theorem canonicalEntries_eq_ok_iff {found : Attributes} (hf : (Ordered.keys found).Nodup) :
    canonicalEntries found es = .ok a ↔
      (Ordered.keys (found ++ settings es)).Nodup ∧ a = found ++ settings es := by
  induction es generalizing found with
  | nil =>
    rw [settings, List.filterMap_nil, List.append_nil, canonicalEntries, Except.ok.injEq, eq_comm]
    exact ⟨fun h => ⟨hf, h⟩, fun h => h.2⟩
  | cons e es ih =>
    obtain ⟨k, v⟩ := e
    cases k with
    | string key =>
      have hsettings : found ++ settings ((.string key, v) :: es) =
          found ++ [(canonical key, v)] ++ settings es := by
        rw [List.append_assoc]
        rfl
      have hnew : (Ordered.keys (found ++ [(canonical key, v)])).Nodup ↔
          canonical key ∉ Ordered.keys found := by
        rw [Ordered.keys, List.map_append, List.map_singleton, ← List.concat_eq_append,
          List.nodup_concat]
        exact ⟨fun h => h.1, fun h => ⟨h, hf⟩⟩
      rw [canonicalEntries, hsettings]
      -- the keys found so far stay different, so a repeated one is met at its second place
      by_cases hm : canonical key ∈ Ordered.keys found
      · rw [if_pos (Ordered.isSome_get?_iff.2 hm)]
        refine ⟨fun h => (by cases h), fun h => ?_⟩
        rw [Ordered.keys, List.map_append] at h
        exact absurd hm (hnew.1 h.1.of_append_left)
      · rw [if_neg fun h => hm (Ordered.isSome_get?_iff.1 h)]
        exact ih (hnew.2 hm)
    | _ => exact ih hf

theorem unknownKeys_eq_nil_iff :
    unknownKeys a = [] ↔ ∀ key ∈ Ordered.keys a, key ∈ keys := by
  rw [unknownKeys, List.eq_nil_iff_forall_not_mem]
  refine forall_congr' fun key => ?_
  rw [List.mem_mergeSort, List.mem_filter, not_and, Bool.not_eq_true', Bool.not_eq_false,
    List.contains_iff_mem]

theorem readIgnored_eq_ok_iff {names : List String} :
    readIgnored context v = .ok names ↔ PassesForPaths v ∧ names = pathsOf v := by
  unfold readIgnored PassesForPaths
  by_cases ht : v.isTruthy = false
  · have hempty : (ListsPaths v ∨ IsHollow v) ∧ pathsOf v = [] := by
      rcases isTruthy_eq_false_iff.1 ht with rfl | rfl | h
      · exact ⟨.inl (.inl rfl), rfl⟩
      · exact ⟨.inl (.inr ⟨[], rfl, by simp⟩), rfl⟩
      · exact ⟨.inr h, by cases h <;> rfl⟩
    rw [if_pos (by rw [ht]; rfl), hempty.2, and_iff_right hempty.1, Except.ok.injEq, eq_comm]
  · -- what is not empty passes only as a list, and each of its items is looked at
    have hhollow : ¬IsHollow v := fun h => ht (isTruthy_eq_false_iff.2 (.inr (.inr h)))
    rw [if_neg (by simpa using ht), or_iff_left hhollow]
    cases v with
    | list items =>
      have hitems : ListsPaths (.list items) ↔ ∀ item ∈ items, ∃ s, item = .string s ∧
          Text.isBlankText s.toList = false := by simp [ListsPaths]
      rw [hitems]
      refine mapM_eq_ok_iff fun item name => ?_
      cases item with
      | string s =>
        cases hs : Text.isBlankText s.toList with
        | false => simp [Text.isEmpty_strip, hs, trimmed, eq_comm (a := name)]
        | true => simp [Text.isEmpty_strip, hs]
      | _ => simp
    | null => exact absurd rfl ht
    | _ => simp [ListsPaths]

theorem readDebounce_eq_ok_iff {n : Nat} :
    readDebounce context v = .ok n ↔ IsTime v ∧ n = timeOf v := by
  unfold IsTime
  cases v with
  | int m =>
    by_cases hm : 0 ≤ m
    · obtain ⟨k, rfl⟩ := Int.eq_ofNat_of_zero_le hm
      simp [readDebounce, timeOf, eq_comm]
    · have hneg : ∀ k : Nat, m ≠ k := fun k h => hm (h ▸ Int.natCast_nonneg k)
      simp [readDebounce, hm, hneg]
  | _ => simp [readDebounce, timeOf, eq_comm]

end Config

end DocPress
