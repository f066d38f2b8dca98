import WorkerPool.Proofs.Signalling

/-!
# How long a worker waits for its next call

In a pool without layers, a call of a worker is an iteration and ends as that does. After an iteration that was not
the last the worker waits for the idle interval if the error beneath any wrapping says that there is no work, and for
the active interval otherwise.

That error need not come from a checkout. It may as well be the last one of the attempts at a task, in the
wrapping of the policy, or what completing a task returned; and then the worker waits for the idle interval
although it found a task (`Round.ReportsNoWork`). Whatever else processing, the hooks and the calls that dispose
of a task return, the worker waits for the active interval after a task, or leaves (`Pool.runs_poll`).
-/

namespace WorkerPool

variable {C : Client} {T : Option Nat} {t t' : Nat}

/-! ## Iterations that report that there is no work -/

/-- The iterations that report, under any wrapping, that there is no work. -/
inductive Round.ReportsNoWork (policy : RetryPolicy) : Round C → Prop
  /-- There was no task. -/
  | checkout {time : Nat} {e : PoolError} (none : e.innermost = .noWork) : ReportsNoWork policy (.idle time e)
  /-- There was one, whose attempts were used up, and the last attempt said so. -/
  | process {run : TaskRun C} {source : PoolError} (exhausts : run.processing.Exhausts policy source)
      (none : source.innermost = .noWork) (returned : ¬ run.disposal.Panics) : ReportsNoWork policy (.worked run)
  /-- There was one that was processed, and completing it said so. -/
  | complete {run : TaskRun C} {done : C.Task} {e : PoolError} (processed : run.processing.outcome = .ok done)
      (failed : run.disposal = .error e) (none : e.innermost = .noWork) : ReportsNoWork policy (.worked run)

section

variable {it : Iteration C} {task : C.Task} {attempts : List (Stretch C C.Task)} {result : Outcome C.Task}
  {p : Processing C} {run : TaskRun C} {round : Round C}

/-- Processing ends with the error of an attempt in the wrapping of the policy, or it is cancelled. -/
theorem Processing.Goes.error_cases (h : p.Goes it T task t t') {e : PoolError} (failed : p.outcome = .error e) :
    e = .cancelled ∨ ∃ source, e = .retriesExhausted it.retry.maxAttempts source := by
  cases h with
  | unbegun | panicked => cases failed
  | @finished _ _ _ _ _ _ panic _ _ tries =>
    cases panic with
    | some x => cases failed
    | none =>
      obtain ⟨_, _, course⟩ := tries
      exact course.failed e failed

/-- It says that there is no work if the last attempt does. -/
theorem Processing.Goes.innermost_iff (h : p.Goes it T task t t') :
    (∃ e, p.outcome = .error e ∧ e.innermost = .noWork) ↔
      ∃ source, p.Exhausts it.retry source ∧ source.innermost = .noWork := by
  constructor
  · rintro ⟨e, failed, none⟩
    rcases h.error_cases failed with rfl | ⟨source, rfl⟩
    · cases none
    · exact ⟨source, (h.exhausted_iff.mp failed).2, none⟩
  · rintro ⟨source, exhausts, none⟩
    exact ⟨_, h.exhausted_iff.mpr ⟨rfl, exhausts⟩, none⟩

/-- The work on a task ends with an error that its processing ended with, if failing the task does not panic, or
with one that completing it returned. -/
theorem TaskRun.outcome_eq_error_iff {e : PoolError} : run.outcome = .error e ↔
    ¬ run.disposal.Panics ∧ run.processing.outcome.caught = .error e ∨
      ∃ done, run.processing.outcome = .ok done ∧ run.disposal = .error e := by
  unfold outcome Outcome.Panics
  cases run.disposal <;> cases run.processing.outcome <;> simp [Outcome.caught]

/-- The outcome of a run goes back to there being no work just when its round says so. -/
theorem TaskRun.reportsNoWork_iff (h : run.Follows it T) :
    (∃ e, run.outcome = .error e ∧ e.innermost = .noWork) ↔ Round.ReportsNoWork it.retry (.worked run) := by
  constructor
  · rintro ⟨e, ended, none⟩
    rcases outcome_eq_error_iff.mp ended with ⟨returned, caught⟩ | ⟨done, processed, failed⟩
    · cases processing : run.processing.outcome with
      | ok done =>
        rw [processing] at caught
        cases caught
      | panic x =>
        rw [processing] at caught
        cases caught
        cases none
      | error error =>
        rw [processing] at caught
        cases caught
        obtain ⟨source, exhausts, none⟩ := h.processed.innermost_iff.mp ⟨e, processing, none⟩
        exact .process exhausts none returned
    · exact .complete processed failed none
  · intro reports
    cases reports with
    | process exhausts none returned => exact ⟨_, run.outcome_of_exhausts h exhausts returned, none⟩
    | complete processed failed none => exact ⟨_, outcome_eq_error_iff.mpr (.inr ⟨_, processed, failed⟩), none⟩

/-- An iteration ends with an error beneath which there is no work in just these three ways. -/
theorem Round.reportsNoWork_iff (h : round.Follows it T) :
    (∃ e, round.outcome = .error e ∧ e.innermost = .noWork) ↔ round.ReportsNoWork it.retry := by
  cases round with
  | worked run => exact run.reportsNoWork_iff h
  | idle time e =>
    constructor
    · rintro ⟨_, ⟨⟩, none⟩
      exact .checkout none
    · rintro ⟨none⟩
      exact ⟨e, rfl, none⟩
  | panicked time x =>
    refine iff_of_false ?_ nofun
    rintro ⟨_, ⟨⟩, _⟩

end

/-! ## The next wait -/

/-- The worker is idle after an error beneath which there is no work, and after nothing else. -/
theorem Shift.state_eq_idle_iff (shift : Shift C) :
    shift.state = .idle ↔ ∃ e, shift.call.outcome = .error e ∧ e.innermost = .noWork := by
  unfold state WorkerState.after
  cases shift.call.outcome with
  | ok => simp [Outcome.caught]
  | panic x => simp [Outcome.caught, WorkerState.afterError, PoolError.ofPanic, PoolError.innermost]
  | error e => cases innermost : e.innermost <;> simp [Outcome.caught, WorkerState.afterError, innermost]

/-- An interval is the idle one for an idle worker and the active one otherwise. -/
theorem PollSchedule.interval_eq {schedule : PollSchedule} {state : WorkerState} {delay : Duration}
    (interval : schedule.interval? state = some delay) :
    delay = if state = .idle then schedule.idle else schedule.active := by
  cases state <;> cases interval <;> rfl

/-- Between two calls a worker waits for one of its intervals. -/
theorem Worker.Row.begun_eq {w : Worker C} {calls before after : List (Watched C)} {a b : Watched C}
    (row : w.Row T t (calls.map Watched.shift)) (split : calls = before ++ a :: b :: after) :
    b.shift.call.begun = a.shift.call.ended +
      waited (if a.shift.state = .idle then w.schedule.idle else w.schedule.active).ceilMillis := by
  obtain ⟨delay, interval, begun⟩ := row.follows split
  rw [begun, PollSchedule.interval_eq interval]

/-- Without limits around it, a call ends as the iteration in it does. -/
theorem Watched.Holds.outcome_eq {watched : Watched C} {it : Iteration C} {worker : String}
    (holds : watched.Holds it [] T worker) : watched.shift.call.outcome = watched.round.outcome :=
  (holds.spared (.inl rfl)).1

/-- A call leaves the worker idle just when its round reports that there was no work. -/
theorem Watched.Holds.idle_iff {watched : Watched C} {it : Iteration C} {worker : String}
    (holds : watched.Holds it [] T worker) :
    watched.shift.state = .idle ↔ watched.round.ReportsNoWork it.retry := by
  rw [Shift.state_eq_idle_iff, holds.outcome_eq]
  exact watched.round.reportsNoWork_iff holds.follows

namespace Pool

variable {p : Pool C} {events : List (Nat × Step C)}

/-- How a worker of a pool without layers goes from call to call. -/
structure Polls (plan : PoolPlan C) (p : Pool C) (events : List (Nat × Step C)) (n : Nat)
    (calls : List (Watched C)) : Prop where
  stands : Stands p events n (calls.map Watched.shift)
  /-- In each call there is the iteration that its marks tell of, and the call ends as that does. -/
  rounds : ∀ watched ∈ calls, watched.round.Follows plan.iteration p.shared.cancelledSince ∧
    marks watched.shift.call.steps = watched.round.marks plan.iteration.retry (plan.worker (n + 1)).id ∧
    watched.shift.call.outcome = watched.round.outcome
  /-- An iteration that ends with a shutdown or a cancellation under any wrapping is the last. -/
  last : ∀ before watched after, calls = before ++ watched :: after → watched.round.outcome.Retires → after = []
  /-- After one that reports that there is no work, the worker waits for the idle interval. -/
  idle : ∀ before a b after, calls = before ++ a :: b :: after → a.round.ReportsNoWork plan.iteration.retry →
    b.shift.call.begun = a.shift.call.ended + waited plan.schedule.idle.ceilMillis
  /-- After any other, it waits for the active interval. -/
  active : ∀ before a b after, calls = before ++ a :: b :: after → ¬ a.round.ReportsNoWork plan.iteration.retry →
    b.shift.call.begun = a.shift.call.ended + waited plan.schedule.active.ceilMillis

/-- In a pool without layers a worker waits for the idle interval after the iterations that report that there is no
work, and for the active one after all others that it goes on from. -/
theorem runs_poll (b : PoolBuilder C) (state : C.State) (bare : b.layers = [])
    (runs : (build b state).Runs events p) (n : Nat) : ∃ calls, Polls b.plan p events n calls := by
  obtain ⟨served, stands, _⟩ := runs_stands_prompt b state runs n
  cases at_n : p.crew[n]? with
  | none =>
    obtain rfl := stands.absent at_n
    refine ⟨[], stands, List.forall_mem_nil _, ?_, ?_, ?_⟩
    · intro before watched after split
      simp at split
    all_goals
      intro before a b after split
      simp at split
  | some seat =>
    obtain ⟨t, code, current, late, _, stage, _⟩ := stands.seated seat at_n
    obtain ⟨_, underway⟩ := exists_underway b state runs at_n
    have worker_eq := underway.worker_eq at_n
    have work_eq : seat.worker.work = Layer.compose (([] : List ErrorLimit).map .errorLimit) b.plan.iteration.work := by
      have composed := underway.work_eq at_n
      have layers : b.plan.layers = [] := bare
      rwa [layers] at composed
    have isOf := stage.row.isOf
    rw [work_eq] at isOf
    -- No layer stands between the loop and the work, so each call of it is a round.
    obtain ⟨calls, rfl, held⟩ := exists_held isOf
    have begun {before after : List (Watched C)} {a next : Watched C} (split : calls = before ++ a :: next :: after) :
        (a.shift.state = .idle ↔ a.round.ReportsNoWork b.plan.iteration.retry) ∧
          next.shift.call.begun = a.shift.call.ended + waited
            (if a.shift.state = .idle then b.plan.schedule.idle else b.plan.schedule.active).ceilMillis := by
      have schedule_eq : seat.worker.schedule = b.plan.schedule := by rw [worker_eq]; rfl
      rw [← schedule_eq]
      exact ⟨(held a (split ▸ List.mem_append_right _ List.mem_cons_self)).idle_iff, stage.row.begun_eq split⟩
    refine ⟨calls, stands, fun watched mem => ?_, ?_, ?_, ?_⟩
    · have holds := held watched mem
      exact ⟨holds.follows, worker_eq ▸ holds.marks_eq, holds.outcome_eq⟩
    · intro before watched after split retires
      rw [← (held watched (split ▸ List.mem_append_right _ List.mem_cons_self)).outcome_eq] at retires
      exact stage.row.last_of_retires split retires
    · intro before a next after split reports
      obtain ⟨idle_iff, begun_eq⟩ := begun split
      rwa [if_pos (idle_iff.mpr reports)] at begun_eq
    · intro before a next after split silent
      obtain ⟨idle_iff, begun_eq⟩ := begun split
      rwa [if_neg fun idle => silent (idle_iff.mp idle)] at begun_eq

/-- Supplies a task that there turns out to be no work in. -/
def barren : Processor .bare :=
  { hasty with process := fun _ => .done (.error .noWork) }

/-- A pool of one worker that looks for work every ten milliseconds, or every fifty if there was none. -/
def fruitless : PoolBuilder .bare :=
  { lonely with processor := barren, idleInterval := .ofMillis 50, maxRetries := 1 }

/-- A worker that has found a task waits for the idle interval after it, because processing it reported that there is no
work. -/
theorem runs_poll_of_barren :
    ∃ events p, (build fruitless ()).Runs events p ∧ fruitless.layers = [] ∧ p.shared.clock = 10 ∧
      p.crew.map (·.thread.due?) = [some 60] ∧ (∃ calls, Polls fruitless.plan p events 0 calls) := by
  obtain ⟨events, runs⟩ := runs_perform fruitless () [.start, .advance 10]
  exact ⟨events, _, runs, rfl, by decide +kernel, by decide +kernel, runs_poll fruitless () rfl runs 0⟩

end Pool

end WorkerPool
