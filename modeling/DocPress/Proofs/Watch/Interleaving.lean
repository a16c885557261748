import DocPress.Watch.Queue

/-!
# A producer and a consumer

Paths are put into the queue at any moment, also while the consumer looks at one. A collection
takes the oldest waiting path whenever there is one; it can end where none waits, and when it
does so is left open, since that depends on time. Whatever the order of these actions, every
path that was put has been looked at once, in the order of putting, or still waits, and a
collection yields what was accepted in it. The collections of a session are among these.
-/

set_option autoImplicit false

namespace DocPress.Watch.Queue

/-- Where a collection stands: about to take a path, or looking at one. As long as its batch is
empty it waits for a first path to accept, afterwards for the quiet time to pass. -/
inductive Stage where
  | waiting (batch : List String)
  | looking (batch : List String) (path : String)
  deriving DecidableEq, Repr

/-- A queue with the collections under way, each under its number and the innermost first. -/
structure Exchange where
  queue : Queue
  consumer : List (Nat × Stage)
  deriving DecidableEq, Repr

/-- Whether the consumer can start a collection: outside of any, or while it looks at a path. -/
def isFree : List (Nat × Stage) → Bool
  | (_, .waiting _) :: _ => false
  | _ => true

inductive Action where
  | put (path : String)
  | call (collection : Nat)
  | take (collection : Nat) (path : String)
  | answer (collection : Nat) (path : String) (accepted : Bool)
  | fail (collection : Nat) (path : String)
  | finish (collection : Nat) (batch : List String)
  deriving DecidableEq, Repr

/-- What can happen. Paths are put in every stage, by the producer or by the consumer itself. What
the consumer makes of a path (looking at it can fail, which ends the collection), and whether it
goes on waiting at an empty queue, is open. -/
inductive Step : Exchange → Action → Exchange → Prop
  | put (q : Queue) (c : List (Nat × Stage)) (p : String) : Step ⟨q, c⟩ (.put p) ⟨q.put p, c⟩
  | call (q : Queue) (c : List (Nat × Stage)) (k : Nat) (hfree : isFree c = true)
      (hk : k ∉ c.map Prod.fst) : Step ⟨q, c⟩ (.call k) ⟨q, (k, .waiting []) :: c⟩
  | take (p : String) (q : Queue) (k : Nat) (batch : List String) (c : List (Nat × Stage)) :
      Step ⟨p :: q, (k, .waiting batch) :: c⟩ (.take k p) ⟨q, (k, .looking batch p) :: c⟩
  | answer (q : Queue) (k : Nat) (batch : List String) (p : String) (c : List (Nat × Stage))
      (accepted : Bool) :
      Step ⟨q, (k, .looking batch p) :: c⟩ (.answer k p accepted)
        ⟨q, (k, .waiting (if accepted then batch ++ [p] else batch)) :: c⟩
  | fail (q : Queue) (k : Nat) (batch : List String) (p : String) (c : List (Nat × Stage)) :
      Step ⟨q, (k, .looking batch p) :: c⟩ (.fail k p) ⟨q, c⟩
  | finish (k : Nat) (batch : List String) (c : List (Nat × Stage)) :
      Step ⟨[], (k, .waiting batch) :: c⟩ (.finish k batch) ⟨[], c⟩

inductive Run : Exchange → List Action → Exchange → Prop
  | done (x : Exchange) : Run x [] x
  | step {x y z : Exchange} {a : Action} {as : List Action} :
      Step x a y → Run y as z → Run x (a :: as) z

/-! ## What is told from actions -/

def put? : Action → Option String
  | .put p => some p
  | _ => none

def taken? : Action → Option String
  | .take _ p => some p
  | _ => none

def answer? : Action → Option (String × Bool)
  | .answer _ p accepted => some (p, accepted)
  | _ => none

def collection? : Action → Option Nat
  | .put _ => none
  | .call k | .take k _ | .answer k _ _ | .fail k _ | .finish k _ => some k

def puts (as : List Action) : List String := as.filterMap put?

def taken (as : List Action) : List String := as.filterMap taken?

def answered (as : List Action) : List (String × Bool) := as.filterMap answer?

def accepted (as : List Action) : List String := ((answered as).filter Prod.snd).map Prod.fst

def own (k : Nat) (as : List Action) : List Action := as.filter (collection? · == some k)

variable {x y z : Exchange} {a : Action} {as bs : List Action} {k : Nat}

theorem puts_append (as bs : List Action) : puts (as ++ bs) = puts as ++ puts bs :=
  List.filterMap_append

theorem taken_append (as bs : List Action) : taken (as ++ bs) = taken as ++ taken bs :=
  List.filterMap_append

theorem answered_append (as bs : List Action) :
    answered (as ++ bs) = answered as ++ answered bs := List.filterMap_append

theorem accepted_append (as bs : List Action) :
    accepted (as ++ bs) = accepted as ++ accepted bs := by
  simp only [accepted, answered_append, List.filter_append, List.map_append]

theorem own_append (k : Nat) (as bs : List Action) : own k (as ++ bs) = own k as ++ own k bs :=
  List.filter_append as bs

theorem own_concat_of_ne (h : collection? a ≠ some k) : own k (as ++ [a]) = own k as := by
  simp [own, h]

theorem own_concat_of_eq (h : collection? a = some k) : own k (as ++ [a]) = own k as ++ [a] := by
  simp [own, h]

theorem mem_own : a ∈ own k as ↔ a ∈ as ∧ collection? a = some k := by
  rw [own, List.mem_filter, beq_iff_eq]

theorem mem_accepted {p : String} : p ∈ accepted as ↔ ∃ k, .answer k p true ∈ as := by
  simp only [accepted, answered, List.mem_map, List.mem_filter, List.mem_filterMap]
  constructor
  · rintro ⟨⟨p, accepted⟩, ⟨⟨a, ha, he⟩, rfl⟩, rfl⟩
    cases a with
    | answer k q accepted =>
      obtain ⟨rfl, rfl⟩ := Prod.mk.inj (Option.some.inj he)
      exact ⟨k, ha⟩
    | put | call | take | fail | finish => cases he
  · exact fun ⟨_, h⟩ => ⟨(p, true), ⟨⟨_, h, rfl⟩, rfl⟩, rfl⟩

theorem mem_accepted_own {p : String} : p ∈ accepted (own k as) ↔ .answer k p true ∈ as := by
  rw [mem_accepted]
  constructor
  · rintro ⟨j, h⟩
    obtain ⟨hmem, hj⟩ := mem_own.1 h
    rwa [← Option.some.inj hj]
  · exact fun h => ⟨k, mem_own.2 ⟨h, rfl⟩⟩

/-! ## Runs -/

theorem Run.append (h : Run x as y) (h' : Run y bs z) : Run x (as ++ bs) z := by
  induction h with
  | done x => exact h'
  | step hstep _ ih => exact .step hstep (ih h')

theorem Run.of_append (h : Run x (as ++ bs) z) : ∃ y, Run x as y ∧ Run y bs z := by
  induction as generalizing x with
  | nil => exact ⟨x, .done x, h⟩
  | cons a as ih =>
    cases h with
    | step hstep hrest =>
      obtain ⟨y, has, hbs⟩ := ih hrest
      exact ⟨y, .step hstep has, hbs⟩

theorem Run.of_cons (h : Run x (a :: as) z) : ∃ y, Step x a y ∧ Run y as z := by
  cases h with
  | step hstep hrest => exact ⟨_, hstep, hrest⟩

/-- An action puts a path behind the waiting ones, or takes the oldest, or leaves them. -/
theorem Step.conserves (h : Step x a y) : x.queue ++ puts [a] = taken [a] ++ y.queue := by
  cases h with
  | put | take => simp [puts, put?, taken, taken?, Queue.put]
  | call | answer | fail | finish => exact List.append_nil _

theorem Run.conserves (h : Run x as y) : x.queue ++ puts as = taken as ++ y.queue := by
  induction h with
  | done x => exact List.append_nil _
  | @step x y z a as hstep _ ih =>
    calc x.queue ++ puts ([a] ++ as)
      _ = (x.queue ++ puts [a]) ++ puts as := by rw [puts_append, List.append_assoc]
      _ = taken [a] ++ (y.queue ++ puts as) := by rw [hstep.conserves, List.append_assoc]
      _ = taken ([a] ++ as) ++ z.queue := by rw [ih, taken_append, List.append_assoc]

/-! ## One collection among the others -/

/-- What a collection holds after its actions: the accepted paths, when all it has taken are
answered, but for the one it looks at. -/
def Stage.Holds (acts : List Action) : Stage → Prop
  | .waiting batch => batch = accepted acts ∧ (answered acts).map Prod.fst = taken acts
  | .looking batch p =>
    batch = accepted acts ∧ (answered acts).map Prod.fst ++ [p] = taken acts

theorem Stage.Holds.take {batch acts : List _} {p : String} (k : Nat)
    (h : (waiting batch).Holds acts) : (looking batch p).Holds (acts ++ [.take k p]) := by
  obtain ⟨hbatch, hall⟩ := h
  constructor
  · rw [accepted_append, hbatch]
    exact (List.append_nil _).symm
  · rw [answered_append, taken_append, ← hall, List.map_append]
    simp [answered, answer?, taken, taken?]

theorem Stage.Holds.answer {batch acts : List _} {p : String} (k : Nat) (accept : Bool)
    (h : (looking batch p).Holds acts) :
    (waiting (if accept then batch ++ [p] else batch)).Holds (acts ++ [.answer k p accept]) := by
  obtain ⟨hbatch, hall⟩ := h
  constructor
  · rw [accepted_append, hbatch]
    cases accept
    · exact (List.append_nil _).symm
    · rfl
  · rw [answered_append, taken_append, ← hall, List.map_append]
    simp [answered, answer?, taken, taken?]

def Exchange.Holds (k : Nat) (acts : List Action) (x : Exchange) : Prop :=
  ∀ stage, (k, stage) ∈ x.consumer → stage.Holds acts

def Exchange.Distinct (x : Exchange) : Prop := (x.consumer.map Prod.fst).Nodup

theorem Step.distinct (h : Step x a y) (hx : x.Distinct) : y.Distinct := by
  cases h with
  | put | take | answer => exact hx
  | call q c k hfree hk => exact List.nodup_cons.2 ⟨hk, hx⟩
  | fail | finish => exact (List.nodup_cons.1 hx).2

theorem Run.distinct (h : Run x as y) (hx : x.Distinct) : y.Distinct := by
  induction h with
  | done => exact hx
  | step hstep _ ih => exact ih (hstep.distinct hx)

section

variable {q q' : Queue} {j : Nat} {stage stage' : Stage} {c : List (Nat × Stage)}

theorem Exchange.Holds.leave (hx : Exchange.Distinct ⟨q, (j, stage) :: c⟩)
    (h : Exchange.Holds k (own k as) ⟨q, (j, stage) :: c⟩) (ha : collection? a = some j) :
    Exchange.Holds k (own k (as ++ [a])) ⟨q', c⟩ := by
  intro st hst
  have hk : j ≠ k := by
    rintro rfl
    exact (List.nodup_cons.1 hx).1 (List.mem_map.2 ⟨_, hst, rfl⟩)
  rw [own_concat_of_ne (by rwa [ha, ne_eq, Option.some.injEq])]
  exact h st (.tail _ hst)

/-- Only the innermost collection acts. -/
theorem Exchange.Holds.act (hx : Exchange.Distinct ⟨q, (j, stage) :: c⟩)
    (h : Exchange.Holds k (own k as) ⟨q, (j, stage) :: c⟩) (ha : collection? a = some j)
    (hact : ∀ acts, stage.Holds acts → stage'.Holds (acts ++ [a])) :
    Exchange.Holds k (own k (as ++ [a])) ⟨q', (j, stage') :: c⟩ := by
  intro st hst
  rcases List.mem_cons.1 hst with heq | hst
  · obtain ⟨rfl, rfl⟩ := Prod.mk.inj heq
    rw [own_concat_of_eq ha]
    exact hact _ (h stage (.head _))
  · have hrest : Exchange.Holds k (own k (as ++ [a])) ⟨q', c⟩ := h.leave hx ha
    exact hrest st hst

end

theorem Step.holds (h : Step x a y) (hcall : a ≠ .call k) (hx : x.Distinct)
    (hheld : x.Holds k (own k as)) : y.Holds k (own k (as ++ [a])) := by
  cases h with
  | put q c p => rwa [own_concat_of_ne (by simp [collection?])]
  | call q c j hfree hj =>
    have hne : j ≠ k := by
      rintro rfl
      exact hcall rfl
    rw [own_concat_of_ne (by rwa [collection?, ne_eq, Option.some.injEq])]
    intro st hst
    rcases List.mem_cons.1 hst with heq | hst
    · exact absurd (Prod.mk.inj heq).1.symm hne
    · exact hheld st hst
  | take p q j batch c => exact hheld.act hx rfl fun _ hst => hst.take j
  | answer q j batch p c accept => exact hheld.act hx rfl fun _ hst => hst.answer j accept
  | fail q j batch p c => exact hheld.leave hx rfl
  | finish j batch c => exact hheld.leave hx rfl

theorem Run.holds (h : Run x bs y) (hcall : .call k ∉ bs) (hx : x.Distinct)
    (hheld : x.Holds k (own k as)) : y.Holds k (own k (as ++ bs)) := by
  induction h generalizing as with
  | done x => rwa [List.append_nil]
  | @step x y z a bs hstep _ ih =>
    rw [List.mem_cons, not_or] at hcall
    rw [List.append_cons]
    exact ih hcall.2 (hstep.distinct hx) (hstep.holds (fun e => hcall.1 e.symm) hx hheld)

/-- What a collection holds after it was called. -/
theorem Run.holds_of_call (h : Run x (.call k :: bs) y) (hcall : .call k ∉ bs) (hx : x.Distinct) :
    y.Holds k (own k bs) := by
  obtain ⟨w, hcalled, hrun⟩ := h.of_cons
  have hw := hcalled.distinct hx
  cases hcalled with
  | call q c k hfree hk =>
    have hstart : Exchange.Holds k (own k []) ⟨q, (k, .waiting []) :: c⟩ := by
      intro stage hstage
      rcases List.mem_cons.1 hstage with heq | hstage
      · rw [(Prod.mk.inj heq).2]
        exact ⟨rfl, rfl⟩
      · exact absurd (List.mem_map_of_mem hstage) hk
    exact hrun.holds hcall hw hstart

/-- A collection that ends does so at an empty queue, with the accepted ones of its paths. -/
theorem Run.of_collection {during : List Action} {batch : List String} (hx : x.Distinct)
    (hcall : .call k ∉ during) (h : Run x (.call k :: during ++ [.finish k batch]) z) :
    (answered (own k during)).map Prod.fst = taken (own k during) ∧
      batch = accepted (own k during) ∧ ∃ y, Run x (.call k :: during) y ∧ y.queue = [] := by
  obtain ⟨y, hduring, hfinish⟩ := h.of_append
  have hheld := hduring.holds_of_call hcall hx
  obtain ⟨w, hend, -⟩ := hfinish.of_cons
  cases hend with
  | finish k batch c =>
    obtain ⟨hbatch, hall⟩ := hheld (.waiting batch) (.head _)
    exact ⟨hall, hbatch, _, hduring, rfl⟩

/-! ## The collections that run -/

/-- What happens while a consumer looks at a path: others arrive, and it answers. -/
def looks {σ : Type} (consume : Consumer σ) (k : Nat) (s : σ) (p : String) : List Action :=
  .take k p :: (consume s p).2.1.map .put ++ [.answer k p (consume s p).1]

def actions {σ : Type} (consume : Consumer σ) (k : Nat) : Nat → σ → Queue → List Action
  | 0, _, _ => []
  | _ + 1, _, [] => []
  | n + 1, s, p :: q =>
    looks consume k s p ++ actions consume k n (consume s p).2.2 (q ++ (consume s p).2.1)

section

variable {σ : Type} (consume : Consumer σ) (c : List (Nat × Stage))

theorem run_puts (q : Queue) (ps : List String) : Run ⟨q, c⟩ (ps.map .put) ⟨q ++ ps, c⟩ := by
  induction ps generalizing q with
  | nil =>
    rw [List.append_nil]
    exact .done _
  | cons p ps ih =>
    rw [List.append_cons]
    exact .step (.put q c p) (ih (q ++ [p]))

theorem run_looks (s : σ) (p : String) (q : Queue) (batch : List String) :
    Run ⟨p :: q, (k, .waiting batch) :: c⟩ (looks consume k s p)
      ⟨q ++ (consume s p).2.1,
        (k, .waiting (if (consume s p).1 then batch ++ [p] else batch)) :: c⟩ :=
  .step (.take p q k batch c)
    ((run_puts _ q (consume s p).2.1).append (.step (.answer _ k batch p c _) (.done _)))

theorem collect_cons (n : Nat) (s : σ) (p : String) (q : Queue) :
    (collect consume (n + 1) s (p :: q)).1 =
      let later := (collect consume n (consume s p).2.2 (q ++ (consume s p).2.1)).1
      ⟨p :: later.seen, if (consume s p).1 then p :: later.batch else later.batch, later.rest⟩ :=
  rfl

theorem run_collect (n : Nat) (s : σ) (q : Queue) (batch : List String) :
    Run ⟨q, (k, .waiting batch) :: c⟩ (actions consume k n s q)
      ⟨(collect consume n s q).1.rest,
        (k, .waiting (batch ++ (collect consume n s q).1.batch)) :: c⟩ := by
  fun_induction actions consume k n s q generalizing batch with
  | case1 s q =>
    rw [collect, List.append_nil]
    exact .done _
  | case2 n s =>
    rw [collect, List.append_nil]
    exact .done _
  | case3 n s p q ih =>
    have hrest := ih (if (consume s p).1 then batch ++ [p] else batch)
    refine (run_looks consume c s p q batch).append ?_
    rw [collect_cons]
    cases haccept : (consume s p).1 <;> simpa [haccept] using hrest

theorem call_not_mem_actions (n : Nat) (s : σ) (q : Queue) :
    .call k ∉ actions consume k n s q := by
  fun_induction actions consume k n s q with
  | case1 | case2 => exact List.not_mem_nil
  | case3 n s p q ih => simp [looks, ih]

theorem own_looks (s : σ) (p : String) :
    own k (looks consume k s p) = [.take k p, .answer k p (consume s p).1] := by
  simp [looks, own, collection?, List.filter_map, Function.comp_def]

theorem puts_map_put (ps : List String) : puts (ps.map .put) = ps := by
  rw [puts, List.filterMap_map]
  exact List.filterMap_some

theorem puts_looks (s : σ) (p : String) : puts (looks consume k s p) = (consume s p).2.1 := by
  have hputs := puts_append (.take k p :: (consume s p).2.1.map .put) [.answer k p (consume s p).1]
  rw [looks, hputs]
  exact (List.append_nil _).trans (puts_map_put _)

theorem taken_own_actions (n : Nat) (s : σ) (q : Queue) :
    taken (own k (actions consume k n s q)) = (collect consume n s q).1.seen := by
  fun_induction actions consume k n s q with
  | case1 | case2 => rfl
  | case3 n s p q ih =>
    rw [own_append, own_looks, taken_append, ih]
    rfl

theorem accepted_own_actions (n : Nat) (s : σ) (q : Queue) :
    accepted (own k (actions consume k n s q)) = (collect consume n s q).1.batch := by
  fun_induction actions consume k n s q with
  | case1 | case2 => rfl
  | case3 n s p q ih =>
    rw [own_append, own_looks, accepted_append, ih, collect_cons]
    cases (consume s p).1 <;> rfl

/-- The consumer is left as looking at the paths one after the other leaves it. -/
theorem state_collect (n : Nat) (s : σ) (q : Queue) :
    (collect consume n s q).2 =
      (collect consume n s q).1.seen.foldl (fun s p => (consume s p).2.2) s := by
  fun_induction collect consume n s q with
  | case1 | case2 => rfl
  | case3 n s p q accepted arrived s' h c s'' h' ih =>
    rw [h'] at ih
    rw [ih, List.foldl_cons, h]

/-- The queue is emptied exactly if there are as many turns as paths that wait or arrive. -/
theorem rest_eq_nil_iff (n : Nat) (s : σ) (q : Queue) :
    (collect consume n s q).1.rest = [] ↔
      q.length + (puts (actions consume k n s q)).length ≤ n := by
  fun_induction actions consume k n s q with
  | case1 s q => simp [collect, puts]
  | case2 n s => simp [collect, puts]
  | case3 n s p q ih =>
    rw [collect_cons, puts_append, puts_looks, List.length_append]
    simp only [ih, List.length_append, List.length_cons]
    omega

/-- More turns than it takes to empty the queue change nothing. -/
theorem collect_of_le {n m : Nat} {s : σ} {q : Queue}
    (h : (collect consume n s q).1.rest = []) (hm : n ≤ m) :
    collect consume m s q = collect consume n s q := by
  induction n generalizing m s q with
  | zero =>
    obtain rfl : q = [] := h
    cases m <;> rfl
  | succ n ih =>
    obtain ⟨m, rfl⟩ := Nat.exists_eq_add_one_of_ne_zero (Nat.ne_zero_of_lt hm)
    cases q with
    | nil => rfl
    | cons p q =>
      rw [collect_cons] at h
      simp only [collect, ih h (Nat.le_of_succ_le_succ hm)]

end

/-- A queue loses, doubles and reorders nothing, whatever the order of actions: every path put was
looked at once, in the order of putting, or waits. A collection that ends does so at an empty
queue, and yields what was accepted of its own paths in the order of their arrival. A collection
that runs is the one in which the consumer answers and paths arrive as they do there: it comes to
an empty queue exactly if it has as many turns as paths wait or arrive, and then can end, and more
turns change nothing. -/
theorem collects_each_once {actions : List Action} (h : Run ⟨[], []⟩ actions x) :
    puts actions = taken actions ++ x.queue ∧
      (∀ k before during batch after,
        actions = before ++ (.call k :: during ++ [.finish k batch]) ++ after →
        .call k ∉ during →
        (answered (own k during)).map Prod.fst = taken (own k during) ∧
          batch = accepted (own k during) ∧
          (batch = [] ↔ ∀ p, .answer k p true ∉ during) ∧
          ∃ y, Run ⟨[], []⟩ (before ++ .call k :: during) y ∧ y.queue = []) ∧
      ∀ {σ : Type} (consume : Consumer σ) (n : Nat) (s : σ) (k : Nat), isFree x.consumer →
        k ∉ x.consumer.map Prod.fst →
        let during := Queue.actions consume k n s x.queue
        let c := (collect consume n s x.queue).1
        .call k ∉ during ∧ taken (own k during) = c.seen ∧ accepted (own k during) = c.batch ∧
          (collect consume n s x.queue).2 = c.seen.foldl (fun s p => (consume s p).2.2) s ∧
          Run ⟨[], []⟩ (actions ++ .call k :: during)
            ⟨c.rest, (k, .waiting c.batch) :: x.consumer⟩ ∧
          (c.rest = [] ↔ x.queue.length + (puts during).length ≤ n) ∧
          (x.queue.length + (puts during).length ≤ n →
            (∀ m, n ≤ m → collect consume m s x.queue = collect consume n s x.queue) ∧
              Run ⟨[], []⟩ (actions ++ (.call k :: during ++ [.finish k c.batch]))
                ⟨[], x.consumer⟩) := by
  refine ⟨h.conserves, ?_, ?_⟩
  · rintro k before during batch after rfl hcall
    obtain ⟨z, hrun, -⟩ := h.of_append
    obtain ⟨w, hbefore, hcollection⟩ := hrun.of_append
    obtain ⟨hall, hbatch, y, hduring, hy⟩ :=
      hcollection.of_collection (hbefore.distinct List.nodup_nil) hcall
    refine ⟨hall, hbatch, ?_, y, hbefore.append hduring, hy⟩
    rw [hbatch, List.eq_nil_iff_forall_not_mem]
    exact forall_congr' fun p => not_congr mem_accepted_own
  · intro σ consume n s k hfree hk during c
    have hrun : Run x (.call k :: during) ⟨c.rest, (k, .waiting c.batch) :: x.consumer⟩ :=
      .step (.call _ _ k hfree hk) (run_collect consume x.consumer n s x.queue [])
    have hrest := rest_eq_nil_iff (k := k) consume n s x.queue
    refine ⟨call_not_mem_actions consume n s x.queue, taken_own_actions consume n s x.queue,
      accepted_own_actions consume n s x.queue, state_collect consume n s x.queue,
      h.append hrun, hrest, fun hn => ⟨fun m => collect_of_le consume (hrest.2 hn), ?_⟩⟩
    rw [hrest.2 hn] at hrun
    exact h.append (hrun.append (.step (.finish k c.batch x.consumer) (.done _)))

def exchanged : List Action :=
  [.put "b", .put "a", .call 0, .take 0 "b", .put "c", .answer 0 "b" true, .take 0 "a",
    .call 1, .take 1 "c", .answer 1 "c" false, .finish 1 [], .answer 0 "a" false,
    .put "b", .take 0 "b", .answer 0 "b" true, .finish 0 ["b", "b"], .put "d"]

theorem run_exchanged : Run ⟨[], []⟩ exchanged ⟨["d"], []⟩ :=
  .step (.put _ _ _) <| .step (.put _ _ _) <| .step (.call _ _ 0 rfl (by decide)) <|
  .step (.take _ _ _ _ _) <| .step (.put _ _ _) <| .step (.answer _ _ _ _ _ true) <|
  .step (.take _ _ _ _ _) <| .step (.call _ _ 1 rfl (by decide)) <| .step (.take _ _ _ _ _) <|
  .step (.answer _ _ _ _ _ false) <| .step (.finish _ _ _) <| .step (.answer _ _ _ _ _ false) <|
  .step (.put _ _ _) <| .step (.take _ _ _ _ _) <| .step (.answer _ _ _ _ _ true) <|
  .step (.finish _ _ _) <| .step (.put _ _ _) (.done _)

/-- A consumer that takes `d` only, while it looks at which `e` arrives. -/
def meetsAnother : Consumer Unit := fun _ p => (p == "d", if p = "d" then ["e"] else [], ())

theorem collects_each_once_exchanged :
    Run ⟨[], []⟩ exchanged ⟨["d"], []⟩ ∧ puts exchanged = taken exchanged ++ ["d"] ∧
      taken exchanged = ["b", "a", "c", "b"] ∧
      (∃ during, .call 0 ∉ during ∧ accepted (own 0 during) = ["b", "b"] ∧
        ∃ y, Run ⟨[], []⟩ (exchanged.take 2 ++ .call 0 :: during) y ∧ y.queue = []) ∧
      Run ⟨[], []⟩ (exchanged ++ [.call 0, .take 0 "d", .put "e", .answer 0 "d" true, .take 0 "e",
        .answer 0 "e" false, .finish 0 ["d"]]) ⟨[], []⟩ := by
  obtain ⟨hputs, hcollections, hruns⟩ := collects_each_once run_exchanged
  have hcall : .call 0 ∉ (exchanged.drop 3).take 12 := by decide
  obtain ⟨-, hbatch, -, hend⟩ :=
    hcollections 0 (exchanged.take 2) _ ["b", "b"] [.put "d"] rfl hcall
  obtain ⟨-, -, -, -, -, -, hrun⟩ := hruns meetsAnother 2 () 0 rfl (by decide)
  exact ⟨run_exchanged, hputs, rfl, ⟨_, hcall, hbatch.symm, hend⟩, (hrun (by decide)).2⟩

end DocPress.Watch.Queue
