import DocPress.Proofs.Build.Batch
import DocPress.Proofs.Build.Agreement

/-!
# Files that are left as they are

A rendering compares the text that it compiled with what it reads from the generated
file, and reading unifies line ends. So a generated file may hold other bytes than the
text's and still be left, or hold the text's bytes and still be written; and a file
that is no text at all cannot be read, so it is not replaced either.
-/

set_option autoImplicit false

namespace DocPress

namespace FileTree

theorem fromUTF8?_eq_some_iff {b : ByteArray} {s : String} :
    String.fromUTF8? b = some s ↔ b = s.toUTF8 := by
  unfold String.fromUTF8?
  constructor
  · intro h
    split at h
    · obtain rfl := Option.some.inj h
      rfl
    · cases h
  · rintro rfl
    rw [String.toUTF8_eq_toByteArray, dif_pos s.isValidUTF8]
    rfl

theorem asRead_eq_self_iff {text : String} : asRead text = text ↔ '\r' ∉ text.toList := by
  constructor
  · intro h hr
    rw [← h, asRead, String.toList_ofList] at hr
    exact Text.cr_not_mem_unifyNewlines _ hr
  · intro h
    rw [asRead, Text.unifyNewlines_of_cr_not_mem h, String.ofList_toList]

end FileTree

namespace Build

open FileTree DocPress.Task

variable {c : Config} {force : Bool} {t out : Path} {d e : Disk} {text old : String}
  {b : ByteArray} {ts before after : List Path}

/-! ## Over a generated file -/

/-- Where the generated file can be read, a rendering writes it if it reads as another text. -/
theorem renderFile_of_load (force : Bool) (hc : c.Rooted) (hout : c.outputFor t = .ok out)
    (hcompile : (compileFile d.files t).result = .ok text) (hl : d.files.load out = .ok old) :
    ∃ u, Yields (renderFile c force t) d ⟨t, out, false, decide (old = text), none⟩
        ⟨u, d.refused⟩ ∧
      ∀ q, u.at? q = if q = out.parts ∧ old ≠ text then some (.file text.toUTF8)
        else d.files.at? q := by
  obtain ⟨ho, hne⟩ := isReal_output_of_ok hc hout
  have hthere : ¬(!force && !d.files.isFile out) = true := by simp [isFile_of_load hl]
  obtain ⟨b, hb, hread⟩ := exists_content_of_load hl
  rw [content?_eq_some_iff_at? ho] at hb
  obtain ⟨u, hy, hu⟩ := putOutput_of_file text ho (hasNul_of_load hl) hne hb hread
  refine ⟨u, renderFile_of_put hout hthere hcompile hy, fun q => ?_⟩
  rw [hu.at?]
  by_cases hq : q = out.parts
  · rw [if_pos hq, hq, hb, Option.map_some, refresh_file hread]
    by_cases hs : old = text
    · rw [if_pos hs, if_neg (by simp [hs])]
    · rw [if_neg hs, if_pos ⟨rfl, hs⟩]
  · rw [if_neg hq, if_neg fun h => hq h.1]

/-- A generated file that cannot be read is a failure and stays. -/
theorem renderFile_fails_of_load {f : Failure} (hc : c.Rooted) (hout : c.outputFor t = .ok out)
    (hcompile : (compileFile d.files t).result = .ok text)
    (hb : d.files.at? out.parts = some (.file b)) (hl : d.files.load out = .error f) :
    Fails (renderFile c force t) d f := by
  obtain ⟨ho, -⟩ := isReal_output_of_ok hc hout
  have hthere : ¬(!force && !d.files.isFile out) = true := by
    simp [(isFile_iff_at? ho).2 ⟨b, hb⟩]
  exact renderFile_fails_of_put hout hthere hcompile
    (putOutput_fails_of_load text ((exists?_iff_at? ho).2 (by rw [hb]; simp)) hl)

/-- The result for a template whose generated file reads as a text, by what it compiles to. -/
def resultOver (t out : Path) (old : String) (compiled : Except Failure String) : FileResult :=
  match compiled with
  | .ok text => ⟨t, out, false, decide (old = text), none⟩
  | .error f => ⟨t, out, false, false, some f⟩

theorem tryRenderFile_of_load (force : Bool) (hc : c.Rooted) (hout : c.outputFor t = .ok out)
    (hl : d.files.load out = .ok old) :
    ∃ u, Yields (tryRenderFile c force t) d
      (resultOver t out old (compileFile d.files t).result) ⟨u, d.refused⟩ := by
  cases hcompile : (compileFile d.files t).result with
  | ok text =>
    obtain ⟨u, hy, -⟩ := renderFile_of_load force hc hout hcompile hl
    exact ⟨u, tryRenderFile_of_yields hy⟩
  | error f =>
    have hthere : ¬(!force && !d.files.isFile out) = true := by simp [isFile_of_load hl]
    exact ⟨d.files, tryRenderFile_of_fails hout (renderFile_fails_of_compile hout hthere hcompile)⟩

/-- Whether a rendering does what one that always writes does, and tells if it was needed. -/
def WritesText (c : Config) (force : Bool) (t out : Path) (text : String) (d : Disk) : Prop :=
  ∃ r e, Yields (renderFile c force t) d r e ∧ r.isOk = true ∧
    e.files.at? out.parts = some (.file text.toUTF8) ∧
    (r.unchanged = true ↔ d.files.at? out.parts = some (.file text.toUTF8))

/-- What a rendering does to a generated file, by the text that its bytes encode, if any. -/
theorem renderFile_of_bytes (force : Bool) (hc : c.Rooted) (hout : c.outputFor t = .ok out)
    (hcompile : (compileFile d.files t).result = .ok text)
    (hb : d.files.at? out.parts = some (.file b)) :
    (String.fromUTF8? b = none → Fails (renderFile c force t) d (.undecodable out)) ∧
    ∀ old, String.fromUTF8? b = some old → ∃ u,
      Yields (renderFile c force t) d ⟨t, out, false, decide (asRead old = text), none⟩
        ⟨u, d.refused⟩ ∧
      ∀ q, u.at? q = if q = out.parts ∧ asRead old ≠ text then some (.file text.toUTF8)
        else d.files.at? q := by
  obtain ⟨ho, -⟩ := isReal_output_of_ok hc hout
  have hload := load_of_content (hasNul_of_compileFile hc hout hcompile)
    ((content?_eq_some_iff_at? ho).2 hb)
  rw [readText?] at hload
  constructor
  · intro hnone
    rw [hnone] at hload
    exact renderFile_fails_of_load hc hout hcompile hb hload
  · intro old hold
    rw [hold] at hload
    exact renderFile_of_load force hc hout hcompile hload

theorem writesText_iff (force : Bool) (hc : c.Rooted) (hout : c.outputFor t = .ok out)
    (hcompile : (compileFile d.files t).result = .ok text)
    (hb : d.files.at? out.parts = some (.file b)) :
    WritesText c force t out text d ↔
      ∃ old, String.fromUTF8? b = some old ∧ (asRead old = text ↔ old = text) := by
  obtain ⟨hundecodable, hdecodable⟩ := renderFile_of_bytes force hc hout hcompile hb
  cases hold : String.fromUTF8? b with
  | none =>
    refine iff_of_false ?_ (by simp)
    rintro ⟨r, e, hy, -⟩
    exact hy.not_fails (hundecodable hold)
  | some old =>
    obtain ⟨u, hy, hu⟩ := hdecodable old hold
    have hsame : d.files.at? out.parts = some (.file text.toUTF8) ↔ old = text := by
      rw [hb, Option.some_inj, Kind.file.injEq, ← fromUTF8?_eq_some_iff, hold, Option.some_inj]
    simp only [Option.some_inj, exists_eq_left']
    constructor
    · rintro ⟨r, e, hy', -, -, hflag⟩
      obtain ⟨rfl, -⟩ := hy'.unique hy
      rw [← hsame, ← hflag, decide_eq_true_iff]
    · intro hiff
      refine ⟨_, _, hy, rfl, ?_, by rw [hsame, decide_eq_true_iff, hiff]⟩
      rw [hu]
      by_cases hread : asRead old = text
      · rw [if_neg (by simp [hread]), hsame]
        exact hiff.1 hread
      · rw [if_pos ⟨rfl, hread⟩]

end Build

end DocPress
