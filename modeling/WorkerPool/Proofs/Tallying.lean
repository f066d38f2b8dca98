import Mathlib.Algebra.BigOperators.Ring.Finset
import WorkerPool.Proofs.Settling
import WorkerPool.Proofs.Standing

/-!
# What the counters of a pool come to

The collector of a pool counts what the workers tell it, in whatever order they do. So what the accounts
of each worker say (`Worker.Loops.covers`), and what it owes (`Worker.Stage.owes`), adds up to laws about
the counters. They hold at every moment of every run (`runs_tallied`), and so the figures that a snapshot
works out as differences are never cut off at zero.

When the run has returned, every task that was checked out has been disposed of. That is not to say that
it was counted: where the call that was to complete or fail a task panics, the collector is told of the
panic but not of the task, which then counts as in progress for good (`runs_disposed`).
-/

namespace WorkerPool

variable {C : Client} {t : Nat}

/-! ## Marks -/

namespace Mark

/-- Whether a mark is that of a checkout that failed, and not in order to tell the worker that there is
nothing to do, that it shall leave, or that the checkout was cancelled. -/
def misses : Mark C → Bool
  | .made (.checkout (.error e)) =>
    match e with
    | .noWork | .workerShutdown _ | .poolShutdown _ | .cancelled => false
    | _ => true
  | _ => false

/-- Whether a mark is that of a panic in a hook or in an attempt at a task. -/
def panics : Mark C → Bool
  | .ended (.process (.panic _)) | .ended (.preHook (.panic _)) | .ended (.postHook (.panic _)) => true
  | _ => false

/-- A failed checkout is owed for just the marks of checkouts that failed. -/
theorem obliges_checkoutError : (obliges .checkoutError : Mark C → Bool) = misses := by
  funext mark
  cases mark with
  | made call =>
    cases call with
    | checkout result =>
      cases result with
      | ok => rfl
      | error e =>
        cases e <;>
          simp [obliges, due?, misses, Iteration.isSignal, PoolError.isNoWork, PoolError.isShutdownSignal]
    | _ => rfl
  | ended ending => cases ending with
    | process outcome | preHook outcome | postHook outcome => cases outcome <;> rfl
    | _ => rfl
  | told => rfl

/-- A panic is owed for just the marks of panics in hooks and attempts. -/
theorem obliges_workerPanicked : (obliges .workerPanicked : Mark C → Bool) = panics := by
  funext mark
  cases mark with
  | made call =>
    cases call with
    | checkout result =>
      cases result with
      | ok => rfl
      | error e => cases signal : Iteration.isSignal e <;> simp [obliges, due?, panics, signal]
    | _ => rfl
  | ended ending => cases ending with
    | process outcome | preHook outcome | postHook outcome => cases outcome <;> rfl
    | _ => rfl
  | told => rfl

end Mark

/-! ## The books of a worker -/

/-- What is so about the numbers of what a worker has told the collector, where a task is attempted
`maxAttempts` times at most. -/
structure Tallies (maxAttempts : Nat) (steps : List (Step C)) : Prop where
  processed_le : told .taskCompleted steps + told .taskFailed steps ≤ told .taskCheckedOut steps
  retries_le : told .retryAttempt steps ≤ (maxAttempts - 1) * told .taskCheckedOut steps
  verdicts_le : told .retrySuccess steps + told .retryExhausted steps ≤ told .taskCheckedOut steps
  stopped_le : told .workerStopped steps ≤ told .workerStarted steps
  started_le : told .workerStarted steps ≤ 1

theorem tallies_nil (maxAttempts : Nat) : Tallies maxAttempts ([] : List (Step C)) := by
  constructor <;> simp [told]

namespace Pool

variable {plan : PoolPlan C} {p : Pool C} {events : List (Nat × Step C)} {n : Nat} {seat : Seat C}

/-- In a running pool the numbers of each worker keep to it, wherever its loop has come to. -/
theorem Underway.tallies (h : Underway plan p events t) (at_n : p.crew[n]? = some seat) :
    Tallies plan.iteration.retry.maxAttempts (history n events) := by
  constructor
  case processed_le =>
    have covered := h.countMarks_le at_n (.tail _ (.head _))
    rwa [countMarks_tellsAny (by decide), Nat.one_mul] at covered
  case retries_le =>
    have covered := h.countMarks_le at_n (.tail _ (.tail _ (.head _)))
    rwa [Mark.tellsAny_singleton] at covered
  case verdicts_le =>
    have covered := h.countMarks_le at_n (.tail _ (.tail _ (.tail _ (.head _))))
    rwa [countMarks_tellsAny (by decide), Nat.one_mul] at covered
  case stopped_le =>
    have covered := h.countMarks_le at_n (.head _)
    rwa [loopAccount, Nat.one_mul] at covered
  case started_le => exact h.started_le at_n

/-- So they do in every run. -/
theorem runs_tallies (b : PoolBuilder C) (state : C.State) (runs : (build b state).Runs events p) (n : Nat) :
    Tallies b.plan.iteration.retry.maxAttempts (history n events) := by
  cases at_n : p.crew[n]? with
  | none => exact history_eq_nil_of_absent b state runs at_n ▸ tallies_nil _
  | some seat =>
    obtain ⟨t, underway⟩ := exists_underway b state runs at_n
    exact underway.tallies at_n

/-- What is known of the debts of the worker with that number, where `served` are the calls of its work that
are over, and `owed` is what it has still to tell. -/
structure Owes (p : Pool C) (events : List (Nat × Step C)) (n : Nat) (served : List (Shift C))
    (owed : Option MetricKind) : Prop where
  stands : Stands p events n served
  /-- Only who is about to ask for something owes anything. -/
  asking : owed = none ∨ ∃ seat, p.crew[n]? = some seat ∧ seat.thread.isAsking = true
  balance : ∀ kind : MetricKind, kind.isOwed = true →
    told kind (history n events) + (if owed = some kind then 1 else 0) =
      countMarks (Mark.obliges kind) (history n events) + Worker.escaped served kind

/-- In any run each worker owes one recording at most. -/
theorem runs_owes (b : PoolBuilder C) (state : C.State) (runs : (build b state).Runs events p) {n : Nat}
    {served : List (Shift C)} (stands : Stands p events n served) : ∃ owed, Owes p events n served owed := by
  cases at_n : p.crew[n]? with
  | none =>
    refine ⟨none, stands, .inl rfl, fun kind _ => ?_⟩
    rw [history_eq_nil_of_absent b state runs at_n, stands.absent at_n]
    cases kind <;> rfl
  | some seat =>
    obtain ⟨_, underway⟩ := exists_underway b state runs at_n
    obtain ⟨t, code, current, late, _, stage, asking⟩ := stands.seated seat at_n
    obtain ⟨owed, busy, balance⟩ := stage.owes (underway.work_eq at_n)
    exact ⟨owed, stands, busy.imp_right fun asks => ⟨seat, at_n, asking ▸ asks⟩, balance⟩

/-! ## The counters of a pool -/

/-- What the counters of a pool come to after events, where `served` are the calls of each worker's work that
are over, and `owed` is what each worker has still to tell. -/
structure Tallied (plan : PoolPlan C) (p : Pool C) (events : List (Nat × Step C)) (c : Counters)
    (served : Nat → List (Shift C)) (owed : Nat → Option MetricKind) : Prop where
  processed_le : c.tasksCompleted + c.tasksFailed ≤ c.tasksCheckedOut
  stopped_le : c.workersStopped ≤ c.workersStarted
  started_le : c.workersStarted ≤ plan.workers
  /-- So what is shown of the tasks in progress and of the active workers is never cut off at zero. -/
  shown : p.shared.snapshot.tasksInProgress + (c.tasksCompleted + c.tasksFailed) = c.tasksCheckedOut ∧
    p.shared.snapshot.workersActive + c.workersStopped = c.workersStarted
  retries_le : c.retryAttempts ≤ (plan.iteration.retry.maxAttempts - 1) * c.tasksCheckedOut
  verdicts_le : c.retrySuccesses + c.retriesExhausted ≤ c.tasksCheckedOut
  owes : ∀ n < plan.workers, Owes p events n (served n) (owed n)
  /-- Each checkout that failed is counted, up to those of which the worker is about to tell. -/
  checkoutErrors_eq : c.checkoutErrors + {n ∈ Finset.range plan.workers | owed n = some .checkoutError}.card =
    countMarks Mark.misses (events.map (·.2))
  /-- Each panic is counted once, whether it ended a hook, an attempt or a whole call of the work, up to
  those of which the worker is about to tell. -/
  workerPanics_eq : c.workerPanics + {n ∈ Finset.range plan.workers | owed n = some .workerPanicked}.card =
    countMarks Mark.panics (events.map (·.2)) + ∑ n ∈ Finset.range plan.workers,
      (served n).countP fun shift => shift.call.outcome.panic?.isSome
  /-- Nothing is owed as long as no worker is about to ask for something, as it is whenever time passes. -/
  settled : (∀ seat ∈ p.crew, seat.thread.isAsking = false) → ∀ n, owed n = none
  returned : p.returned.isSome = true → c.workersStarted = plan.workers ∧ c.workersStopped = plan.workers
  /-- Nothing has been counted more often than there are events. -/
  bounded : ∀ kind, c.count kind ≤ events.length
  /-- So every count fits a word of 64 bits for as long as the number of the events does. -/
  fits : events.length < UInt64.size → ∀ kind, c.count kind < UInt64.size

/-- What is shown of a pool are its counters, at the time of its clock. -/
theorem snapshot_eq {c : Counters} (counts : p.shared.collector.counters? = some c) :
    p.shared.snapshot = c.snapshot p.shared.clock :=
  Collector.snapshot_eq counts p.shared.clock

/-- When a run has returned, each worker has started and stopped once, and has settled what it checked
out. -/
theorem runs_left (b : PoolBuilder C) (state : C.State) (runs : (build b state).Runs events p)
    (returned : p.returned.isSome = true) {n : Nat} (lt : n < b.plan.workers) :
    told .workerStarted (history n events) = 1 ∧ told .workerStopped (history n events) = 1 ∧
      countMarks Mark.settles (history n events) = countMarks Mark.claims (history n events) ∧
      told .taskCheckedOut (history n events) = countMarks Mark.claims (history n events) := by
  rcases runs_follows b state runs with before | ⟨t, underway⟩
  · rw [before.returned_eq] at returned
    cases returned
  · obtain ⟨⟨t', result⟩, returned_eq⟩ := Option.isSome_iff_exists.mp returned
    obtain ⟨seat, at_n⟩ : ∃ seat, p.crew[n]? = some seat :=
      ⟨_, List.getElem?_eq_getElem (underway.length_eq.symm ▸ lt)⟩
    exact underway.left at_n ((underway.returned_at t' result returned_eq).all n seat at_n).1

/-- At every moment of every run of a pool whose collector counts, the counters agree with one another and
with what has happened. -/
theorem runs_tallied (b : PoolBuilder C) (state : C.State) (runs : (build b state).Runs events p)
    {made : Nat} (counts : b.collector.counters? = some { since := made }) :
    ∃ c served owed, p.shared.collector.counters? = some c ∧ Tallied b.plan p events c served owed := by
  obtain ⟨c, counts', count⟩ := runs_counters b state runs counts
  have fresh (kind : MetricKind) : ({ since := made } : Counters).count kind = 0 := by cases kind <;> rfl
  simp only [fresh, Nat.zero_add] at count
  have bounded := count_le_length b state runs count
  have books := runs_tallies b state runs
  choose served stands using runs_stands b state runs
  choose owed owes using fun n => runs_owes b state runs (stands n)
  have sum_marks (sort : Mark C → Bool) := countMarks_eq_sum sort (runs.index_lt b state)
  -- What is balanced for each worker is balanced for all of them together.
  have balance (kind : MetricKind) (isOwed : kind.isOwed = true) :
      c.count kind + {n ∈ Finset.range b.plan.workers | owed n = some kind}.card =
        countMarks (Mark.obliges kind) (events.map (·.2)) +
          ∑ n ∈ Finset.range b.plan.workers, Worker.escaped (served n) kind := by
    rw [count, Finset.card_filter, sum_marks, ← Finset.sum_add_distrib, ← Finset.sum_add_distrib]
    exact Finset.sum_congr rfl fun n _ => (owes n).balance kind isOwed
  have processed_le : c.tasksCompleted + c.tasksFailed ≤ c.tasksCheckedOut := by
    change c.count .taskCompleted + c.count .taskFailed ≤ c.count .taskCheckedOut
    simp only [count, ← Finset.sum_add_distrib]
    exact Finset.sum_le_sum fun n _ => (books n).processed_le
  have stopped_le : c.workersStopped ≤ c.workersStarted := by
    change c.count .workerStopped ≤ c.count .workerStarted
    simp only [count]
    exact Finset.sum_le_sum fun n _ => (books n).stopped_le
  refine ⟨c, served, owed, counts', ?_⟩
  constructor
  case processed_le => exact processed_le
  case stopped_le => exact stopped_le
  case started_le =>
    change c.count .workerStarted ≤ _
    rw [count]
    refine Nat.le_trans (Finset.sum_le_sum fun n _ => (books n).started_le) ?_
    simp
  case shown =>
    rw [snapshot_eq counts']
    exact ⟨Nat.sub_add_cancel processed_le, Nat.sub_add_cancel stopped_le⟩
  case retries_le =>
    change c.count .retryAttempt ≤ _ * c.count .taskCheckedOut
    simp only [count, Finset.mul_sum]
    exact Finset.sum_le_sum fun n _ => (books n).retries_le
  case verdicts_le =>
    change c.count .retrySuccess + c.count .retryExhausted ≤ c.count .taskCheckedOut
    simp only [count, ← Finset.sum_add_distrib]
    exact Finset.sum_le_sum fun n _ => (books n).verdicts_le
  case owes => exact fun n _ => owes n
  case checkoutErrors_eq =>
    have balanced := balance .checkoutError rfl
    rw [Mark.obliges_checkoutError] at balanced
    exact balanced.trans (by simp [Worker.escaped])
  case workerPanics_eq =>
    have balanced := balance .workerPanicked rfl
    rwa [Mark.obliges_workerPanicked] at balanced
  case settled =>
    intro quiet n
    rcases (owes n).asking with none | ⟨seat, at_n, asking⟩
    · exact none
    · rw [quiet seat (List.mem_of_getElem? at_n)] at asking
      cases asking
  case returned =>
    intro returned
    have left (n : Nat) (mem : n ∈ Finset.range b.plan.workers) :=
      runs_left b state runs returned (Finset.mem_range.mp mem)
    constructor
    · change c.count .workerStarted = _
      rw [count, Finset.sum_congr rfl fun n mem => (left n mem).1]
      simp
    · change c.count .workerStopped = _
      rw [count, Finset.sum_congr rfl fun n mem => (left n mem).2.1]
      simp
  case bounded => exact bounded
  case fits => exact fun few kind => Nat.lt_of_le_of_lt (bounded kind) few

/-- Supplies a task whenever it is asked for one, but the call that is to complete it has the pool stopped
and panics. -/
def clumsy : Processor .bare :=
  { hasty with complete := fun _ _ => .ask (I := Client.interface .bare) .stop fun _ => .panic (.text "") }

/-- A pool of one worker that counts. -/
def watched : PoolBuilder .bare :=
  { lonely with processor := clumsy, collector := .counting {} }

/-- A run with one task, whose panic is counted once. -/
theorem runs_tallied_of_one :
    ∃ events p c served owed, (build watched ()).Runs events p ∧ p.returned.isSome = true ∧
      p.shared.collector.counters? = some c ∧ c.tasksCheckedOut = 1 ∧ c.workerPanics = 1 ∧
      Tallied watched.plan p events c served owed := by
  obtain ⟨events, runs⟩ := runs_perform watched () [.start, .advance 10]
  have fresh : watched.collector.counters? = some { since := 0 } := rfl
  obtain ⟨c, served, owed, counts, tallied⟩ := runs_tallied watched () runs fresh
  have counted : (((build watched ()).perform [.start, .advance 10]).shared.collector.counters?.map
      fun c => (c.tasksCheckedOut, c.workerPanics)) = some (1, 1) := by
    decide +kernel
  have returned : ((build watched ()).perform [.start, .advance 10]).returned.isSome = true := by
    decide +kernel
  rw [counts] at counted
  obtain ⟨claimed, panicked⟩ := Prod.mk.inj (Option.some.inj counted)
  exact ⟨events, _, c, served, owed, runs, returned, counts, claimed, panicked, tallied⟩

/-! ## When a run has returned -/

/-- What is settled has been completed or failed, or was spoilt by the call that was to do that. -/
theorem countMarks_settles (steps : List (Step C)) :
    countMarks Mark.settles steps =
      told .taskCompleted steps + told .taskFailed steps + countMarks Mark.spoils steps := by
  rw [← countMarks_tellsAny (by decide)]
  unfold countMarks
  induction marks steps with
  | nil => rfl
  | cons mark rest ih =>
    have either : mark.2.spoils = true → mark.2.tellsAny [.taskCompleted, .taskFailed] = false := by
      intro spoilt
      unfold Mark.spoils at spoilt
      split at spoilt
      · next same => rw [same]; rfl
      · next same => rw [same]; rfl
      · cases spoilt
    rw [List.countP_cons, List.countP_cons, List.countP_cons, ih, Mark.settles]
    cases spoilt : mark.2.spoils with
    | true => simp [either spoilt]; omega
    | false => simp; omega

/-- When a run has returned, each task that was checked out was completed or failed, or the call that was
to do that panicked: those tasks, and no others, are shown as in progress. All counts fit a word of 64 bits for as
long as the number of the events does. -/
theorem runs_disposed (b : PoolBuilder C) (state : C.State) (runs : (build b state).Runs events p)
    {made : Nat} (counts : b.collector.counters? = some { since := made })
    (returned : p.returned.isSome = true) :
    ∃ c, p.shared.collector.counters? = some c ∧
      c.tasksCompleted + c.tasksFailed + countMarks Mark.spoils (events.map (·.2)) =
        countMarks Mark.claims (events.map (·.2)) ∧
      c.tasksCheckedOut = countMarks Mark.claims (events.map (·.2)) ∧
      p.shared.snapshot.tasksInProgress = countMarks Mark.spoils (events.map (·.2)) ∧
      (events.length < UInt64.size → ∀ kind, c.count kind < UInt64.size) := by
  obtain ⟨c, counts', count⟩ := runs_counters b state runs counts
  have fresh (kind : MetricKind) : ({ since := made } : Counters).count kind = 0 := by cases kind <;> rfl
  simp only [fresh, Nat.zero_add] at count
  have sum_marks (sort : Mark C → Bool) := countMarks_eq_sum sort (runs.index_lt b state)
  -- When the run has returned every worker has left, so that for each of them nothing is under way any more.
  have left (n : Nat) (mem : n ∈ Finset.range b.plan.workers) :=
    runs_left b state runs returned (Finset.mem_range.mp mem)
  have settled : c.tasksCompleted + c.tasksFailed + countMarks Mark.spoils (events.map (·.2)) =
      countMarks Mark.claims (events.map (·.2)) := by
    change c.count .taskCompleted + c.count .taskFailed + _ = _
    simp only [count, sum_marks, ← Finset.sum_add_distrib, ← countMarks_settles]
    exact Finset.sum_congr rfl fun n mem => (left n mem).2.2.1
  have claimed : c.tasksCheckedOut = countMarks Mark.claims (events.map (·.2)) := by
    change c.count .taskCheckedOut = _
    rw [count, sum_marks]
    exact Finset.sum_congr rfl fun n mem => (left n mem).2.2.2
  refine ⟨c, counts', settled, claimed, ?_, fun few kind => ?_⟩
  · rw [snapshot_eq counts']
    change c.tasksCheckedOut - (c.tasksCompleted + c.tasksFailed) = _
    omega
  · exact Nat.lt_of_le_of_lt (count_le_length b state runs count kind) few

/-- A run with one task that was checked out and neither completed nor failed, and that is shown as in
progress when the run has returned. -/
theorem runs_disposed_of_spoilt :
    ∃ events p c, (build watched ()).Runs events p ∧ p.returned.isSome = true ∧
      p.shared.collector.counters? = some c ∧ c.tasksCompleted + c.tasksFailed = 0 ∧
      countMarks Mark.claims (events.map (·.2)) = 1 ∧ countMarks Mark.spoils (events.map (·.2)) = 1 ∧
      p.shared.snapshot.tasksInProgress = 1 := by
  obtain ⟨events, runs⟩ := runs_perform watched () [.start, .advance 10]
  have fresh : watched.collector.counters? = some { since := 0 } := rfl
  have returned : ((build watched ()).perform [.start, .advance 10]).returned.isSome = true := by
    decide +kernel
  obtain ⟨c, counts, settled, claimed, shown, _⟩ := runs_disposed watched () runs fresh returned
  have counted : (((build watched ()).perform [.start, .advance 10]).shared.collector.counters?.map
      fun c => (c.tasksCheckedOut, c.tasksCompleted + c.tasksFailed)) = some (1, 0) := by
    decide +kernel
  rw [counts] at counted
  obtain ⟨one, none⟩ := Prod.mk.inj (Option.some.inj counted)
  rw [one] at claimed
  rw [none, ← claimed, Nat.zero_add] at settled
  exact ⟨events, _, c, runs, returned, counts, none, claimed.symm, settled, shown.trans settled⟩

end Pool

end WorkerPool
