import DocPress.Proofs.Watch.Calls

/-!
# A burst of reports

A collection is a filter, and the changes that it leaves pending are a set: a call sorts them
before it uses them. Bursts of the same paths, in whatever order and however often, make the same
call, and leave a session that waits.
-/

set_option autoImplicit false

namespace DocPress

namespace Path

theorem sortKey_injective {p q : Path} (hp : p.anchor ≠ .relative) (hq : q.anchor ≠ .relative)
    (h : p.sortKey = q.sortKey) : p = q := by
  obtain ⟨pa, pp⟩ := p
  obtain ⟨qa, qp⟩ := q
  cases pa <;> cases qa <;> simp_all [sortKey, Anchor.text]

theorem pairwise_sort (ps : List Path) : (sort ps).Pairwise fun p q => le p q = true :=
  List.pairwise_mergeSort (fun p q r => namesLe_trans p.sortKey q.sortKey r.sortKey)
    (fun p q => namesLe_total p.sortKey q.sortKey) ps

theorem sort_congr {ps qs : List Path} (hp : ps.Nodup) (hq : qs.Nodup)
    (hanchor : ∀ p ∈ ps, p.anchor ≠ .relative) (h : ∀ p, p ∈ ps ↔ p ∈ qs) : sort ps = sort qs := by
  have hperm : (sort ps).Perm (sort qs) :=
    ((List.mergeSort_perm ps le).trans ((List.perm_ext_iff_of_nodup hp hq).2 h)).trans
      (List.mergeSort_perm qs le).symm
  refine hperm.eq_of_pairwise (fun p q hp hq hle hge => ?_) (pairwise_sort ps) (pairwise_sort qs)
  refine sortKey_injective (hanchor p ?_) (hanchor q ?_) (namesLe_antisymm _ _ hle hge)
  · exact (List.mergeSort_perm ps le).mem_iff.1 hp
  · rw [h]
    exact (List.mergeSort_perm qs le).mem_iff.1 hq

end Path

namespace Watch.Session

open Dependency DocPress.Task

variable {s t : Session} {d : Disk} {p : String} {ps qs : List String}

/-! ## Calls look at a set of changes -/

theorem affected_congr {changes changes' : List Path}
    (h : Path.sort changes = Path.sort changes') : s.affected changes = s.affected changes' := by
  simp only [affected, h]

theorem process_congr {changes changes' : List Path} (hne : changes ≠ []) (hne' : changes' ≠ [])
    (h : Path.sort changes = Path.sort changes') :
    process { s with changes := changes } = process { s with changes := changes' } := by
  have hempty : changes.isEmpty = false := by simpa using hne
  have hempty' : changes'.isEmpty = false := by simpa using hne'
  simp only [process, hempty, hempty', Bool.false_and, Bool.false_eq_true, if_false,
    affected_congr h]

theorem changesIn_anchor {q : Path} (h : q ∈ s.changesIn ps) : q.anchor ≠ .relative := by
  obtain ⟨p, -, rfl⟩ := List.mem_map.1 h
  exact Path.normal_anchor _

variable (hsame : ∀ p, p ∈ ps ↔ p ∈ qs)
include hsame

theorem filter_eq_nil_iff (f : String → Bool) : ps.filter f = [] ↔ qs.filter f = [] := by
  simp only [List.filter_eq_nil_iff, hsame]

theorem mem_changesIn_iff (q : Path) : q ∈ s.changesIn ps ↔ q ∈ s.changesIn qs := by
  simp only [changesIn, List.mem_map, List.mem_filter, hsame]

/-- Bursts of the same paths make the same call. -/
theorem process_taking_congr (hchanges : s.changes = [])
    (hbatch : ps.filter s.qualifies ≠ []) : (s.taking ps).process = (s.taking qs).process := by
  rw [taking_of_accepted hbatch, taking_of_accepted (mt (filter_eq_nil_iff hsame _).2 hbatch),
    hchanges]
  have hmem : ∀ q, q ∈ (s.changesIn ps).foldl addPath [] ↔
      q ∈ (s.changesIn qs).foldl addPath [] := by
    intro q
    simp only [mem_foldl_addPath, mem_changesIn_iff hsame]
  by_cases hempty : (s.changesIn ps).foldl addPath [] = []
  · have hempty' : (s.changesIn qs).foldl addPath [] = [] := by
      rw [List.eq_nil_iff_forall_not_mem] at hempty ⊢
      exact fun q hq => hempty q ((hmem q).2 hq)
    rw [hempty, hempty']
  · have hempty' : (s.changesIn qs).foldl addPath [] ≠ [] := by
      obtain ⟨q, hq⟩ := List.exists_mem_of_ne_nil _ hempty
      exact List.ne_nil_of_mem ((hmem q).1 hq)
    refine process_congr (s := { s with state := .accumulating }) hempty hempty' ?_
    refine Path.sort_congr (nodup_foldl_addPath List.nodup_nil _)
      (nodup_foldl_addPath List.nodup_nil _) (fun q hq => ?_) hmem
    rcases mem_foldl_addPath.1 hq with hq | hq
    · cases hq
    · exact changesIn_anchor hq

omit hsame

/-! ## What a call leaves -/

/-- Whether a session waits: nothing is queued, pending as a change, or under way. -/
structure Waits (s : Session) : Prop where
  queue : s.queue = []
  changes : s.changes = []
  state : s.state = .idle

theorem foldl_notify_collect (hs : s.Waits) (ps : List String) :
    (ps.foldl notify s).collect = (ps.filter s.qualifies, s.taking ps) := by
  obtain ⟨config, state, changes, errors, passes, queue, observed⟩ := s
  obtain ⟨rfl, rfl, rfl⟩ := hs
  rw [collect_eq, foldl_notify]
  rfl

theorem Waits.collect (hs : s.Waits) : s.collect = ([], s) :=
  foldl_notify_collect hs []

theorem Waits.pump (hs : s.Waits) (d : Disk) : s.pump d = ⟨[], .ok (s, .ok none), d⟩ := by
  rw [pump_eq, hs.collect]
  rfl

/-- A call leaves a session that waits if no path is queued, and counts a pass if it reports. -/
theorem Goes.waits {s' : Session} {r : Except Failure (Option Report)} {e : Disk}
    (h : Goes s d s' r e) (hq : s.queue = []) : s'.Waits ∧
      s'.passes = s.passes + if r.toOption.any Option.isSome then 1 else 0 := by
  cases h with
  | rests hwork => exact ⟨⟨hq, not_not.1 (not_or.1 hwork).1, rfl⟩, rfl⟩
  | lost => exact ⟨⟨hq, rfl, rfl⟩, rfl⟩
  | @stops ts =>
    obtain ⟨errors, he⟩ := foldl_record_eq (s.taken d.files) (ended s.config ts d)
    rw [he]
    exact ⟨⟨hq, rfl, rfl⟩, rfl⟩
  | @reports ts deleted rs =>
    obtain ⟨errors, he⟩ := foldl_record_eq (s.taken d.files) rs
    rw [he]
    exact ⟨⟨hq, rfl, rfl⟩, rfl⟩

/-- Two bursts of the same paths, whatever their order and however often each is reported, make
the same call of a session that waits: the same result, files, session and notices. At most one
pass is counted, and the session waits again. -/
theorem pump_of_burst (s : Session) (ps qs : List String) (hs : s.Waits)
    (hsame : ∀ p, p ∈ ps ↔ p ∈ qs) (d : Disk) :
    (ps.foldl notify s).pump d = (qs.foldl notify s).pump d ∧
      ∃ s' r e, Yields (ps.foldl notify s).pump d (s', r) e ∧
        s'.passes = s.passes + (if r.toOption.any Option.isSome then 1 else 0) ∧ s'.Waits ∧
        ∀ d', s'.pump d' = ⟨[], .ok (s', .ok none), d'⟩ := by
  rw [pump_eq, pump_eq, foldl_notify_collect hs, foldl_notify_collect hs]
  by_cases hbatch : ps.filter s.qualifies = []
  · have hbatch' := (filter_eq_nil_iff hsame _).1 hbatch
    rw [taking_of_none hbatch, taking_of_none hbatch', hbatch, hbatch']
    exact ⟨rfl, s, .ok none, d, yields_pure _ d, rfl, hs, hs.pump⟩
  · rw [if_neg (by simpa using hbatch),
      if_neg (by simpa using mt (filter_eq_nil_iff hsame _).2 hbatch)]
    obtain ⟨s', r, e, hy, hgoes⟩ := exists_goes (s.taking ps) d
    obtain ⟨hwaits, hpasses⟩ := hgoes.waits hs.queue
    exact ⟨congrFun (process_taking_congr hsame hs.changes hbatch) d, s', r, e, hy, hpasses,
      hwaits, hwaits.pump⟩

theorem pump_of_burst_of_repeated :
    (Session.new includingConfig).Waits ∧
      (["/note.txt", "/templates/b.mdoc", "/templates/a.p.mdoc"].foldl notify
          (Session.new includingConfig)).pump ⟨includingFiles "a.p.mdoc" "one", []⟩ =
        (["/templates/a.p.mdoc", "/templates/b.mdoc", "/note.txt", "/templates/b.mdoc"].foldl notify
          (Session.new includingConfig)).pump ⟨includingFiles "a.p.mdoc" "one", []⟩ := by
  have hwaits : (Session.new includingConfig).Waits := ⟨rfl, rfl, rfl⟩
  refine ⟨hwaits, (pump_of_burst _ _ _ hwaits (fun p => ?_) _).1⟩
  simp only [List.mem_cons, List.not_mem_nil, or_false]
  constructor
  · rintro (h | h | h) <;> simp [h]
  · rintro (h | h | h | h) <;> simp [h]

end Watch.Session

end DocPress
