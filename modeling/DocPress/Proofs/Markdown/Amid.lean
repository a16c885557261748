import DocPress.Proofs.Markdown.Leading
import DocPress.Proofs.Markdown.Phrase
import DocPress.Proofs.Markdown.Standing

/-!
# A directive amid text

Inside a paragraph a directive ends where the text of its closing delimiter first stands. If that
is its own end, it is read between the text before it and the text behind it. If what ends there is
no directive, the text before it goes on at its first brace.
-/

set_option autoImplicit false

namespace DocPress.Markdown

open Text Document Directive

namespace Inline

variable {φ : Type} {recognise : Recogniser φ} {s : Source} {pos : Nat} {x r : List Char}
  {e : Directive}

theorem directive?_eq (hend : ¬['%', '}'] <:+: x)
    (h : s.tail pos = '{' :: '%' :: (x ++ ['%', '}']) ++ r) :
    directive? recognise s pos = (do
      let found := recognise ('{' :: '%' :: (x ++ ['%', '}']))
      modify (Memo.note found.notes)
      pure (found.value.map fun d => (.piece (.directive d), pos + (x.length + 4)))) := by
  have hopen : s.slice pos (pos + 2) = ['{', '%'] := slice_of_append (a := ['{', '%']) h
  have hrest : s.tail (pos + 2) = x ++ '%' :: '}' :: r := by
    simpa using tail_of_append (a := ['{', '%']) h
  have hlength := length_of_tail h (by simp)
  have hstop : s.size - r.length = pos + ('{' :: '%' :: (x ++ ['%', '}'])).length := by
    rw [← hlength, List.length_append]
    omega
  rw [directive?, hopen]
  dsimp only
  rw [hrest, Html.afterFirst?_end hend]
  dsimp only
  rw [hstop, slice_of_append h]
  simp only [List.length_cons, List.length_append, List.length_nil]

section

variable (h : s.tail pos = '{' :: r)

include h

/-- A brace is no mark of emphasis. -/
theorem marks?_brace (limit : Nat) (d : Draft) : marks? s limit pos d = none := by
  rw [marks?, char?_of_tail h]
  rfl

theorem span?_brace (skip : Nat → Walk φ Nat) (limit : Nat) :
    span? recognise s skip limit pos = directive? recognise s pos := by
  rw [span?, char?_of_tail h]
  rfl

end

section

variable (skip : Nat → Walk φ Nat) (inner : Nat → Nat → Walk φ (List Piece))
  (alternative : List Char → List φ) (fuel : Nat) (d : Draft) (hend : ¬['%', '}'] <:+: x)
  (h : s.tail pos = '{' :: '%' :: (x ++ ['%', '}']) ++ r)

include hend h

theorem readFrom_directive (he : recognise ('{' :: '%' :: (x ++ ['%', '}'])) = pure (some e)) :
    readFrom recognise s skip inner alternative s.size (fuel + 1) pos d =
      readFrom recognise s skip inner alternative s.size fuel (pos + (x.length + 4))
        (d.push (.directive e)) := by
  rw [readFrom, if_neg (not_size_le_of_tail h), marks?_brace h]
  dsimp only
  rw [span?_brace h, directive?_eq hend h, he]
  rfl

/-- What is no directive leaves its brace to the text before it. -/
theorem readFrom_no_directive {a : List Char}
    (hnone : (recognise ('{' :: '%' :: (x ++ ['%', '}']))).value = none) :
    Gives (Leads (a ++ ['{'])) (readFrom recognise s skip inner alternative s.size (fuel + 1) pos
      (Draft.empty.addText a)) := by
  have hbegins : ((Draft.empty.addText a).addText ['{']).Begins (a ++ ['{']) :=
    .pending (by simp [Draft.addText, Draft.empty])
  have hfound : Gives (· = none) (directive? recognise s pos) := by
    rw [directive?_eq hend h]
    exact .after fun _ => .pure (congrArg _ hnone)
  rw [readFrom, if_neg (not_size_le_of_tail h), marks?_brace h]
  dsimp only
  rw [span?_brace h, char?_of_tail h]
  refine hfound.bind fun found hfound => ?_
  obtain rfl := hfound
  exact readFrom_leads recognise s skip inner alternative s.size fuel _ hbegins

end

theorem resolveMarks_empty (ps : Array Piece) : resolveMarks #[] ps = ps.toList := rfl

theorem finish_amid {a b : List Char} (ha : a ≠ []) (hb : b ≠ []) :
    (((Draft.empty.addText a).push (.directive e)).addText b).finish =
      [.text a, .directive e, .text b] := by
  simp [Draft.finish, Draft.push, Draft.addText, Draft.flush, Draft.empty, ha, hb,
    resolveMarks_empty]

section

variable {a : List Char} (ha : a ≠ []) (hpa : ∀ c ∈ a, isStop c = false)

include ha hpa

/-- What a text starts with is read at once, and then what follows is read. -/
theorem readPart_behind_text (hr : Stops (!isStop ·) r) (hs : Source.ofList [] (a ++ r) = s)
    (alternative : List Char → List φ) (n : Nat) :
    readPart recognise s alternative (n + 1) 0 s.size =
      readFrom recognise s (skipAt recognise s s.size (n + 1)) (readPart recognise s alternative n)
        alternative s.size (s.size - 1) a.length (Draft.empty.addText a) ∧
      s.tail a.length = r := by
  have hfirst : s.tail 0 = a ++ r := by
    rw [tail_eq, ← hs]
    rfl
  have hbehind := tail_of_append hfirst
  rw [Nat.zero_add] at hbehind
  refine ⟨?_, hbehind⟩
  have hpos := List.length_pos_iff.2 ha
  have hsize := length_of_tail hfirst (by simp [ha])
  rw [List.length_append] at hsize
  rw [readPart, show s.size - 0 = s.size - 1 + 1 by omega,
    readFrom_text recognise _ _ alternative _ _ ha hpa hr hfirst, Nat.zero_add]

/-- A directive between two texts that start nothing else. -/
theorem read_amid {b : List Char} (hb : b ≠ []) (hpb : ∀ c ∈ b, isStop c = false)
    (hend : ¬['%', '}'] <:+: x) (he : recognise ('{' :: '%' :: (x ++ ['%', '}'])) = pure (some e)) :
    read recognise [] (a ++ ('{' :: '%' :: (x ++ ['%', '}']) ++ b)) =
      pure [.leaf (.text (String.ofList a)), .directive e, .leaf (.text (String.ofList b))] := by
  generalize hs : Source.ofList [] (a ++ ('{' :: '%' :: (x ++ ['%', '}']) ++ b)) = s
  have hread : ∀ (alternative : List Char → List φ) (n : Nat),
      readPart recognise s alternative (n + 1) 0 s.size =
        pure [.text a, .directive e, .text b] := by
    intro alternative n
    have hbrace : Stops (!isStop ·) ('{' :: '%' :: (x ++ ['%', '}']) ++ b) := rfl
    obtain ⟨hstart, hbehind⟩ := readPart_behind_text ha hpa hbrace hs alternative n
    have hlast : s.tail (a.length + (x.length + 4)) = b ++ [] := by
      rw [List.append_nil]
      simpa using tail_of_append hbehind
    have hsize := length_of_tail (hlast.trans (List.append_nil b)) hb
    have hpos := List.length_pos_iff.2 hb
    rw [hstart, show s.size - 1 = s.size - 3 + 1 + 1 by omega,
      readFrom_directive _ _ alternative _ _ hend hbehind he,
      readFrom_text recognise _ _ alternative _ _ hb hpb (stops_nil _) hlast,
      readFrom_of_le recognise s _ _ alternative (Nat.le_of_eq hsize.symm), finish_amid ha hb]
  rw [read, readAll, hs, maxLevel, hread]
  rfl

/-- A text that starts nothing else goes on at a brace that starts no directive. -/
theorem read_no_directive (hend : ¬['%', '}'] <:+: x)
    (hnone : (recognise ('{' :: '%' :: (x ++ ['%', '}']))).value = none) (r : List Char) :
    ∃ s ts, (read recognise [] (a ++ ('{' :: '%' :: (x ++ ['%', '}']) ++ r))).value =
      .leaf (.text (String.ofList s)) :: ts ∧ a ++ ['{'] <+: s := by
  generalize hs : Source.ofList [] (a ++ ('{' :: '%' :: (x ++ ['%', '}']) ++ r)) = s
  have hleads : ∀ (alternative : List Char → List φ) (n : Nat),
      Gives (Leads (a ++ ['{'])) (readPart recognise s alternative (n + 1) 0 s.size) := by
    intro alternative n
    have hbrace : Stops (!isStop ·) ('{' :: '%' :: (x ++ ['%', '}']) ++ r) := rfl
    obtain ⟨hstart, hbehind⟩ := readPart_behind_text ha hpa hbrace hs alternative n
    have hsize := length_of_tail hbehind (by simp)
    have hpos := List.length_pos_iff.2 ha
    rw [List.length_append, List.length_cons] at hsize
    rw [hstart, show s.size - 1 = s.size - 2 + 1 by omega]
    exact readFrom_no_directive _ _ alternative _ hend hbehind hnone
  rw [read, Probed.map_value, readAll, hs]
  exact piecesTokens_of_leads (leads_joinTexts (leads_joinedAll (hleads _ 19 (Memo.start s))))

end

end Inline

/-! ## The line of a paragraph -/

namespace Block

variable {φ : Type} {recognise : Recogniser φ} {quoted nested : Reader φ}

theorem paragraphText_of_stops {t : List Char} (hl : Stops isEdge t) (hr : Stops isEdge t.reverse)
    (ended : Bool) : Line.paragraphText 0 [⟨[], t, 0, 0, ended⟩] = t := by
  rw [Line.paragraphText, Line.textOf, Line.cut_zero]
  simpa using trim_of_stops hl hr

/-- A line that starts with a phrase and ends with another one is a paragraph. -/
theorem readBlock_between {a b r : List Char} (ha : IsPhrase a) (hb : IsPhrase b) (ended : Bool) :
    readBlock recognise quoted nested .top (.ofText (a ++ ' ' :: (r ++ ' ' :: b)) ended) [] =
      pure (.paragraph (a ++ ' ' :: (r ++ ' ' :: b)), 0) := by
  have hleft : ∀ {p : Char → Bool}, (∀ c, p c = true → isPlain c = false) →
      Stops p (a ++ ' ' :: (r ++ ' ' :: b)) := fun hp => (ha.stops hp).append ha.ne_nil _
  have hright : Stops isEdge (a ++ ' ' :: (r ++ ' ' :: b)).reverse := by
    have hlast := (hb.stops_reverse isPlain_of_isEdge).append
      (List.reverse_ne_nil_iff.2 hb.ne_nil) (' ' :: (r.reverse ++ ' ' :: a.reverse))
    simpa using hlast
  have hmark := ha.listMark?_append (r := ' ' :: (r ++ ' ' :: b)) (by simp)
  obtain ⟨c, q, rfl, hc⟩ := ha.exists_cons
  have hne : ∀ d, isPlain d = false → c ≠ d := fun d hd => ne_of_isPlain hc hd
  rw [Line.ofText_of_stops (hleft isPlain_of_isSpaceOrTab),
    readBlock_running rfl (not_mem_startMarks hc) (hne '<' rfl) (hne '#' rfl) hmark rfl rfl rfl
      (directive?_of_head .top (by simp [hne '{' rfl])) rfl]
  exact congrArg (fun t => pure (paragraph t, 0))
    (paragraphText_of_stops (hleft isPlain_of_isEdge) hright ended)

/-- A line in which the text of a closing delimiter stands before its end is a paragraph, even if
it is a directive. -/
theorem readBlock_of_inner {s : List Char} (hinner : ['%', '}'] <:+: '{' :: '%' :: s)
    (ended : Bool) :
    readBlock recognise quoted nested .top (.ofText ('{' :: '%' :: (s ++ ['%', '}'])) ended) [] =
      pure (.paragraph ('{' :: '%' :: (s ++ ['%', '}'])), 0) := by
  have hfirst : ∀ {p : Char → Bool}, p '{' = false → Stops p ('{' :: '%' :: (s ++ ['%', '}'])) :=
    fun hp => stops_cons.2 hp
  have hlast : ∀ {p : Char → Bool}, p '}' = false →
      Stops p ('{' :: '%' :: (s ++ ['%', '}'])).reverse := fun hp => by simpa using hp
  have hdirective : directive? recognise .top ⟨[], '{' :: '%' :: (s ++ ['%', '}']), 0, 0, ended⟩ =
      pure none := by
    obtain ⟨r, hr⟩ := Html.exists_afterFirst?_append hinner ['%', '}']
    simp only [List.cons_append] at hr
    rw [directive?]
    dsimp only
    rw [stripRight_of_stops (hlast (by decide)), hr, if_pos (by simp)]
  rw [Line.ofText_of_stops (hfirst (by decide)), readBlock_running rfl (by decide) (by decide)
    (by decide)
    (listMark?_eq_none (by decide) (by decide)) rfl rfl rfl hdirective rfl]
  exact congrArg (fun t => pure (paragraph t, 0))
    (paragraphText_of_stops (hfirst (by decide)) (hlast (by decide)) ended)

end Block

end DocPress.Markdown
