import DocPress.Proofs.Dependency
import DocPress.Proofs.Discovery.Filter
import DocPress.Watch.Session

/-!
# Collecting changes

What a session accepts depends on its configuration and on whether templates are
pending, and neither changes while it takes waiting paths. So a collection is a
filter. A source is a path at which a project keeps a template or a partial. Every
reported source outside of the output matters, so all of them are collected, and
each of them is a pending change afterwards.
-/

set_option autoImplicit false

namespace DocPress

namespace Discovery

structure IsSource (c : Config) (p : Path) : Prop where
  below : ∃ name rest, p = c.templates ++ ⟨.relative, name :: rest⟩
  suffix : Naming.endsWith p.name Naming.templateSuffix = true
  kept : isExcluded c (Ignore.ofEntries c.ignored) p = false

variable {c : Config} {p : Path}

theorem isTemplate_iff (hp : p.IsReal) :
    IsTemplate c p ↔ IsSource c p ∧ Naming.isTemplate p.name = true := by
  constructor
  · intro h
    have hname := isTemplate_name h
    obtain ⟨names, rfl, hat⟩ := h
    have hne : names ≠ [] := by
      rintro rfl
      exact not_isTemplateAt_nil [] hat
    obtain ⟨name, rest, rfl⟩ := List.exists_cons_of_ne_nil hne
    refine ⟨⟨⟨name, rest, rfl⟩, Naming.endsWith_of_isTemplate hname, ?_⟩, hname⟩
    rw [isExcluded_append hp, hat.2.1, Bool.false_or]
    exact hat.2.2
  · rintro ⟨⟨⟨name, rest, rfl⟩, -, hkept⟩, hname⟩
    rw [isExcluded_append hp, Bool.or_eq_false_iff] at hkept
    rw [Path.name_append (by simp)] at hname
    exact ⟨_, rfl, hname, hkept.1, hkept.2⟩

theorem IsSource.anchor (hc : c.Rooted) (h : IsSource c p) : p.anchor = .root := by
  obtain ⟨name, rest, rfl⟩ := h.below
  exact hc.templates.1

theorem IsSource.not_isGenerated (h : IsSource c p) : ¬IsGenerated c p := by
  intro hg
  have hname := isOutput_name hg
  rw [Naming.not_isOutput_of_endsWith h.suffix] at hname
  cases hname

end Discovery

namespace Watch.Session

open Discovery Dependency

/-- A source that can be told to a session: outside of the output, over names of entries. -/
structure IsReportable (c : Config) (p : Path) : Prop where
  source : IsSource c p
  outside : p.isWithin c.output = false
  names : ∀ name ∈ p.parts, Path.isEntryName name = true

variable {c : Config} {s : Session} {p : Path}

theorem IsReportable.isReal (hc : c.Rooted) (h : IsReportable c p) : p.IsReal :=
  (Path.isReal_of_isEntryName (h.source.anchor hc) h.names).1

theorem IsReportable.ofString_toString (hc : c.Rooted) (h : IsReportable c p) :
    Path.ofString p.toString = p := Path.ofString_toString (h.source.anchor hc) h.names

theorem IsReportable.endsWith_toString (hc : c.Rooted) (h : IsReportable c p) :
    Naming.endsWith p.toString Naming.templateSuffix = true := by
  rw [Naming.endsWith_toString (h.source.anchor hc) (by decide)]
  exact h.source.suffix

theorem qualifies_of_isReportable (hc : c.Rooted) (hs : s.config = c) (h : IsReportable c p) :
    s.qualifies p.toString = true := by
  have hend := h.endsWith_toString hc
  unfold qualifies
  simp only [Naming.not_isOutput_of_endsWith hend, h.ofString_toString hc,
    (h.isReal hc).normal_eq, hend, hs, h.outside, Session.ignore, h.source.kept]
  rfl

/-! ## What a collection takes -/

variable {path : String} {paths : List String}

def changesIn (s : Session) (paths : List String) : List Path :=
  ((paths.filter s.qualifies).filter (Naming.endsWith · Naming.templateSuffix)).map
    fun path => (Path.ofString path).normal

def taking (s : Session) (paths : List String) : Session :=
  { s with
    state := if (paths.filter s.qualifies).isEmpty then s.state else .accumulating
    changes := (s.changesIn paths).foldl addPath s.changes }

theorem qualifies_taking (s : Session) (paths : List String) :
    (s.taking paths).qualifies = s.qualifies := rfl

theorem taking_of_none (h : paths.filter s.qualifies = []) : s.taking paths = s := by
  simp [taking, changesIn, h]

theorem taking_of_accepted (h : paths.filter s.qualifies ≠ []) : s.taking paths =
    { s with
      state := .accumulating
      changes := (s.changesIn paths).foldl addPath s.changes } := by
  rw [taking, if_neg (by simpa using h)]

theorem taking_of_rejected (h : s.qualifies path = false) (paths : List String) :
    s.taking (path :: paths) = s.taking paths := by
  simp only [taking, changesIn, List.filter_cons, h, Bool.false_eq_true, if_false]

theorem changesIn_append (s : Session) (paths paths' : List String) :
    s.changesIn (paths ++ paths') = s.changesIn paths ++ s.changesIn paths' := by
  simp only [changesIn, List.map_append, List.filter_append]

theorem taking_taking (h : s.qualifies path = true) (paths : List String) :
    (s.taking [path]).taking paths = s.taking (path :: paths) := by
  have hstate : (s.taking [path]).state = .accumulating := by simp [taking, h]
  have hcons : s.changesIn (path :: paths) = s.changesIn [path] ++ s.changesIn paths :=
    changesIn_append s [path] paths
  have hchanges : (s.changesIn paths).foldl addPath (s.taking [path]).changes =
      (s.changesIn (path :: paths)).foldl addPath s.changes := by
    rw [hcons, List.foldl_append]
    rfl
  have haccepted : (path :: paths).filter s.qualifies ≠ [] := by simp [h]
  rw [taking_of_accepted haccepted, ← hchanges]
  conv_lhs => rw [taking, hstate, ite_self]
  rfl

theorem accept_of_qualifies (h : s.qualifies path = true) :
    s.accept path = (true, s.taking [path]) := by
  unfold accept taking changesIn
  simp only [h, if_true, List.filter_cons, List.filter_nil, List.isEmpty_cons, Bool.false_eq_true,
    if_false]
  cases Naming.endsWith path Naming.templateSuffix <;> rfl

theorem accept_of_not_qualifies (h : s.qualifies path = false) : s.accept path = (false, s) := by
  rw [accept, h, if_neg (by simp)]

/-- What a session looks at when it takes waiting paths: nothing arrives meanwhile. -/
def consume (s : Session) (path : String) : Bool × List String × Session :=
  ((s.accept path).1, [], (s.accept path).2)

theorem queue_collect_eq (s : Session) (paths : List String) :
    (Queue.collect consume paths.length s paths).1.batch = paths.filter s.qualifies ∧
      (Queue.collect consume paths.length s paths).1.rest = [] ∧
      (Queue.collect consume paths.length s paths).2 = s.taking paths := by
  induction paths generalizing s with
  | nil => exact ⟨rfl, rfl, rfl⟩
  | cons path paths ih =>
    obtain ⟨hbatch, hrest, hstate⟩ := ih (s.accept path).2
    simp only [List.length_cons, Queue.collect, consume, List.append_nil, hbatch, hrest, hstate]
    cases h : s.qualifies path with
    | false =>
      rw [accept_of_not_qualifies h, taking_of_rejected h]
      simp [h]
    | true =>
      rw [accept_of_qualifies h, taking_taking h, qualifies_taking]
      simp [h]

theorem collect_eq (s : Session) :
    s.collect = (s.queue.filter s.qualifies, { s.taking s.queue with queue := [] }) := by
  have hcollect : s.collect = ((Queue.collect consume s.queue.length s s.queue).1.batch,
      { (Queue.collect consume s.queue.length s s.queue).2 with
        queue := (Queue.collect consume s.queue.length s s.queue).1.rest }) := rfl
  obtain ⟨hbatch, hrest, hstate⟩ := queue_collect_eq s s.queue
  rw [hcollect, hbatch, hrest, hstate]

theorem collect_errors (s : Session) : s.collect.2.errors = s.errors := by
  rw [collect_eq]
  rfl

theorem foldl_notify (s : Session) (paths : List String) :
    paths.foldl notify s = { s with queue := s.queue ++ paths } := by
  induction paths generalizing s with
  | nil => simp
  | cons path paths ih =>
    rw [List.foldl_cons, ih]
    simp [notify, Queue.put]

/-! ## Reported sources -/

theorem filter_of_isReportable (hc : c.Rooted) (hs : s.config = c) {ps : List Path}
    (hps : ∀ p ∈ ps, IsReportable c p) :
    (ps.map Path.toString).filter s.qualifies = ps.map Path.toString := by
  rw [List.filter_eq_self, List.forall_mem_map]
  exact fun p hp => qualifies_of_isReportable hc hs (hps p hp)

theorem changesIn_of_isReportable (hc : c.Rooted) (hs : s.config = c) {ps : List Path}
    (hps : ∀ p ∈ ps, IsReportable c p) : s.changesIn (ps.map Path.toString) = ps := by
  have hsuffix : (ps.map Path.toString).filter (Naming.endsWith · Naming.templateSuffix) =
      ps.map Path.toString := by
    rw [List.filter_eq_self, List.forall_mem_map]
    exact fun p hp => (hps p hp).endsWith_toString hc
  rw [changesIn, filter_of_isReportable hc hs hps, hsuffix, List.map_map]
  refine (List.map_congr_left fun p hp => ?_).trans (List.map_id ps)
  rw [Function.comp_apply, (hps p hp).ofString_toString hc, ((hps p hp).isReal hc).normal_eq, id]

/-- All reported sources are collected, and become pending changes. -/
theorem collect_of_isReportable (hc : c.Rooted) (ps : List Path)
    (hps : ∀ p ∈ ps, IsReportable c p) (hs : s.config = c) (hq : s.queue = ps.map Path.toString) :
    ∃ state, s.collect = (ps.map Path.toString,
      { s with state := state, changes := ps.foldl addPath s.changes, queue := [] }) := by
  rw [collect_eq, hq, filter_of_isReportable hc hs hps, taking, changesIn_of_isReportable hc hs hps]
  exact ⟨_, rfl⟩

theorem collect_notify (hc : c.Rooted) (hs : s.config = c) (hp : IsReportable c p) :
    (s.notify p.toString).collect.1 ≠ [] ∧
      (s.notify p.toString).collect.2.changes = addPath s.collect.2.changes p := by
  have hone : ∀ q ∈ [p], IsReportable c q := by simpa using hp
  have hchanges : (s.notify p.toString).changesIn (s.queue ++ [p.toString]) =
      s.changesIn s.queue ++ [p] := by
    have hlast : s.changesIn [p.toString] = [p] := changesIn_of_isReportable hc hs hone
    rw [← hlast, ← changesIn_append]
    rfl
  rw [collect_eq, collect_eq]
  constructor
  · show (s.queue ++ [p.toString]).filter s.qualifies ≠ []
    simp [qualifies_of_isReportable hc hs hp]
  · show ((s.notify p.toString).changesIn (s.queue ++ [p.toString])).foldl addPath s.changes =
      addPath ((s.changesIn s.queue).foldl addPath s.changes) p
    rw [hchanges, List.foldl_append]
    rfl

end Watch.Session

end DocPress
