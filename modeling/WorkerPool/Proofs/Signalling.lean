import WorkerPool.Proofs.Retiring

/-!
# Shutdown signals raised at a task

A request to shut down that an attempt at a task ends with goes a long way before it reaches the loop of the worker.
If the attempt is the last one, the retry policy wraps the request, the task is failed with it, and every limit around
the work looks at it.

None of them keeps it. Processing ends with the error of the last attempt in the wrapping of the policy
(`Processing.Goes.exhausted_iff`), and so does the iteration, whatever becomes of failing the task. A stack of limits
passes on an error that does not count, and asks for no count on the way (`ErrorLimit.stack_runs`). So the loop meets
the request as the policy wrapped it, hands it over if it concerns the pool, and is over (`Worker.loops_heed`).
-/

namespace WorkerPool

variable {C : Client} {α : Type} {T : Option Nat} {t t' : Nat} {steps : List (Step C)}

/-! ## Stacks of limits -/

namespace ErrorLimit

variable {limits : List ErrorLimit} {worker : String} {e : Except Panic (PoolResult Unit)}

/-- An error that does not count is passed on without a question. -/
theorem passes_of_uncounted {limit : ErrorLimit} {error : PoolError} {result' : PoolResult Unit}
    (uncounted : counts error = false) (observes : limit.Observes worker t (.error error) steps result') :
    steps = [] ∧ result' = .error error := by
  cases observes with
  | ignored => exact ⟨rfl, rfl⟩
  | noted counted | retired counted =>
    rw [uncounted] at counted
    cases counted

/-- Whether a stack of limits leaves an outcome alone: it is empty, or the outcome is an error that does not count. -/
def Spares (limits : List ErrorLimit) (outcome : Outcome Unit) : Prop :=
  limits = [] ∨ ∃ error, outcome = .error error ∧ counts error = false

/-- A call through a stack of limits does what is inside and leaves no further marks. Where the limits leave the
outcome alone, that is all. -/
theorem stack_runs {base : Work C}
    (h : (Layer.compose (limits.map .errorLimit) base worker).Runs T t steps e t') :
    ∃ (inner : Outcome Unit) (first late : List (Step C)), steps = first ++ late ∧ marks late = [] ∧
      (base worker).Runs T t first inner.ending t' ∧ (Spares limits inner → late = [] ∧ e = inner.ending) := by
  induction limits generalizing steps e t' with
  | nil =>
    obtain ⟨outcome, rfl⟩ := exists_outcome e
    exact ⟨outcome, steps, [], (List.append_nil steps).symm, rfl, h, fun _ => ⟨rfl, rfl⟩⟩
  | cons limit limits ih =>
    obtain ⟨outcome, _, t₁, through, goes_on⟩ := Program.runs_bind_outcome h
    obtain ⟨inner, first, late, rfl, unmarked, ran, spared⟩ := ih through
    -- What this limit leaves alone is left alone by those beneath it.
    have beneath : Spares (limit :: limits) inner →
        ∃ error, outcome = .error error ∧ inner = .error error ∧ counts error = false ∧ late = [] := by
      rintro (none | ⟨error, rfl, uncounted⟩)
      · cases none
      · obtain ⟨none, same⟩ := spared (.inr ⟨error, rfl, uncounted⟩)
        exact ⟨error, Outcome.ending_inj.mp same, rfl, uncounted, none⟩
    cases outcome with
    | panic x =>
      obtain ⟨rfl, rfl, rfl⟩ := goes_on
      refine ⟨inner, first, late, rfl, unmarked, ran, fun spares => ?_⟩
      obtain ⟨_, same, _⟩ := beneath spares
      cases same
    | ok value =>
      obtain ⟨second, rfl, looked⟩ := goes_on
      obtain ⟨rfl, _⟩ := observes_of_runs looked
      refine ⟨inner, first, late ++ second, List.append_assoc .., ?_, ran, fun spares => ?_⟩
      · rw [marks_append, unmarked, marks_of_observe looked, List.append_nil]
      · obtain ⟨_, same, _⟩ := beneath spares
        cases same
    | error error =>
      obtain ⟨second, rfl, looked⟩ := goes_on
      obtain ⟨rfl, _, rfl, observes⟩ := observes_of_runs looked
      refine ⟨inner, first, late ++ second, List.append_assoc .., ?_, ran, fun spares => ?_⟩
      · rw [marks_append, unmarked, marks_of_observe looked, List.append_nil]
      · obtain ⟨_, ⟨⟩, rfl, uncounted, rfl⟩ := beneath spares
        obtain ⟨rfl, rfl⟩ := passes_of_uncounted uncounted observes
        exact ⟨rfl, rfl⟩

end ErrorLimit

/-- Whether a call of a worker through a stack of limits holds that iteration, and nothing else where the limits leave
its outcome alone. -/
structure Watched.Holds (watched : Watched C) (it : Iteration C) (limits : List ErrorLimit) (T : Option Nat)
    (worker : String) : Prop where
  follows : watched.round.Follows it T
  marks_eq : marks watched.shift.call.steps = watched.round.marks it.retry worker
  spared : ErrorLimit.Spares limits watched.round.outcome →
    watched.shift.call.outcome = watched.round.outcome ∧ watched.shift.call.IsOf T (it.work worker)

/-- Within each call through a stack of limits there is an iteration. -/
theorem exists_held {limits : List ErrorLimit} {it : Iteration C} {worker : String} {served : List (Shift C)}
    (isOf : ∀ shift ∈ served, shift.call.IsOf T (Layer.compose (limits.map .errorLimit) it.work worker)) :
    ∃ calls : List (Watched C), calls.map Watched.shift = served ∧
      ∀ watched ∈ calls, watched.Holds it limits T worker := by
  refine exists_watched_of fun shift mem => ?_
  obtain ⟨inner, first, late, split, unmarked, ran, spared⟩ := ErrorLimit.stack_runs (isOf shift mem)
  obtain ⟨round, follows, ending, marks_eq⟩ := work_round ran
  obtain rfl := Outcome.ending_inj.mp ending
  refine ⟨round, follows, ?_, fun spares => ?_⟩
  · rw [split, marks_append, unmarked, marks_eq, List.append_nil]
  · obtain ⟨rfl, same⟩ := spared spares
    rw [List.append_nil] at split
    have outcome_eq := Outcome.ending_inj.mp same
    refine ⟨outcome_eq, ?_⟩
    unfold Stretch.IsOf
    rw [split, outcome_eq]
    exact ran

/-! ## Attempts that are used up -/

/-- Whether all attempts at a task were made that the policy has, and the last of them failed with that error. No hook
panicked, but any of them may have failed. -/
structure Processing.Exhausts (policy : RetryPolicy) (p : Processing C) (source : PoolError) : Prop where
  all : p.attempts.length = policy.maxAttempts
  last : ∃ last, p.attempts.getLast? = some last ∧ last.outcome = .error source
  calm : ∀ call ∈ p.pre ++ p.post, ¬ call.outcome.Panics

section

variable {it : Iteration C} {task : C.Task} {attempts : List (Stretch C C.Task)} {result : Outcome C.Task}
  {p : Processing C} {run : TaskRun C} {count : Nat} {source : PoolError}

/-- A task has exhausted its attempts just when all of them have been made and the last has failed with that
error. -/
theorem Tries.exhausted_iff (h : Tries it T task t attempts result t') :
    result = .error (.retriesExhausted count source) ↔ count = it.retry.maxAttempts ∧
      attempts.length = it.retry.maxAttempts ∧ ∃ last, attempts.getLast? = some last ∧ last.outcome = .error source := by
  obtain ⟨_, last, course⟩ := h
  rw [course.exhausted_iff, course.last_eq]
  simp

/-- Processing ends with an error in the wrapping of the policy if that is how the attempts were used up. -/
theorem Processing.Goes.exhausted_iff (h : p.Goes it T task t t') :
    p.outcome = .error (.retriesExhausted count source) ↔
      count = it.retry.maxAttempts ∧ p.Exhausts it.retry source := by
  cases h with
  | unbegun pass =>
    refine iff_of_false nofun ?_
    rintro ⟨_, _, ⟨last, last_eq, _⟩, _⟩
    cases last_eq
  | panicked pass tries =>
    refine iff_of_false nofun ?_
    rintro ⟨rfl, all, last, _⟩
    cases tries.exhausted_iff.mpr ⟨rfl, all, last⟩
  | @finished _ _ _ _ _ result panic _ pass tries _ pass' =>
    cases panic with
    | some x =>
      refine iff_of_false nofun ?_
      rintro ⟨_, _, _, calm⟩
      obtain ⟨call, mem, panics⟩ := pass'.panics_iff.mpr rfl
      exact calm call (List.mem_append_right _ mem) panics
    | none =>
      rw [Option.elim_none, tries.exhausted_iff]
      refine and_congr_right fun _ =>
        ⟨fun ⟨all, last⟩ => ⟨all, last, ?_⟩, fun exhausts => ⟨exhausts.all, exhausts.last⟩⟩
      intro call mem panics
      rcases List.mem_append.mp mem with mem | mem
      · cases pass.panics_iff.mp ⟨call, mem, panics⟩
      · cases pass'.panics_iff.mp ⟨call, mem, panics⟩

/-- A task whose attempts are used up is failed with the last error in the wrapping of the policy. -/
theorem TaskRun.terminal_of_exhausts (h : run.Follows it T) (exhausts : run.processing.Exhausts it.retry source) :
    run.terminal = .fail run.task (.retriesExhausted it.retry.maxAttempts source) := by
  have outcome := h.processed.exhausted_iff.mpr ⟨rfl, exhausts⟩
  unfold terminal
  rw [outcome]
  rfl

/-- So ends the iteration, whatever failing the task returns. -/
theorem TaskRun.outcome_of_exhausts (h : run.Follows it T) (exhausts : run.processing.Exhausts it.retry source)
    (returned : ¬ run.disposal.Panics) :
    run.outcome = .error (.retriesExhausted it.retry.maxAttempts source) := by
  have processed := h.processed.exhausted_iff.mpr ⟨rfl, exhausts⟩
  unfold outcome
  rw [processed]
  cases disposal : run.disposal with
  | panic x => exact absurd ⟨x, disposal⟩ returned
  | ok | error => rfl

end

/-! ## Calls that dispose of a task -/

/-- Among the calls of a list of marks are all its terminal ones. -/
theorem terminalsIn_callsIn (list : List (Nat × Mark C)) : terminalsIn (callsIn list) = terminalsIn list := by
  unfold terminalsIn callsIn
  rw [List.filter_filter]
  refine List.filter_congr fun mark _ => ?_
  obtain ⟨time, mark⟩ := mark
  cases mark with
  | told | ended => rfl
  | made call => cases call <;> rfl

/-- One call disposes of a task that is worked on. -/
theorem terminalsIn_marks (policy : RetryPolicy) (worker : String) (run : TaskRun C) :
    terminalsIn (run.marks policy worker) = [(run.resumed, .made run.terminal)] := by
  rw [← terminalsIn_callsIn, run.callsIn_marks, run.terminalsIn_calls]

/-! ## Counts that nobody asks for -/

/-- Labour leaves every tally as it is. -/
theorem tallying_of_isLabour {deed : Deed C} (labour : deed.isLabour = true) (counts : Tally) :
    tallying counts deed = some counts := by
  cases deed with
  | waited => rfl
  | asked request answer => cases request <;> first | rfl | cases labour

/-- Code that labours leaves all counts as they are. -/
theorem Program.Labours.follow_tallying {code : Code C α} (labours : code.Labours) {e : Except Panic α}
    (run : code.Runs T t steps e t') (counts : Tally) : Rule.follow tallying counts steps = some counts := by
  refine Rule.follow_eq_self fun step mem => tallying_of_isLabour ?_ counts
  simpa using labours.runs run step mem

/-! ## The loop of a worker -/

namespace Worker

variable {w : Worker C} {it : Iteration C} {limits : List ErrorLimit} {next : Option WorkerState}

/-- What becomes of a worker after the work on a task whose attempts were used up with a request to shut down: `before`
are the calls of its work before that one. -/
structure Heeds (w : Worker C) (it : Iteration C) (T : Option Nat) (t : Nat) (steps : List (Step C))
    (next : Option WorkerState) (t' : Nat) (before : List (Watched C)) (last : Watched C) (run : TaskRun C)
    (source : PoolError) : Prop where
  /-- The task is failed once, with the request in the wrapping of the policy. -/
  failed : terminalsIn (marks last.shift.call.steps) =
    [(run.resumed, .made (.fail run.task (.retriesExhausted it.retry.maxAttempts source)))]
  /-- Between the marks of that call the client's code for it was run. -/
  called : ∃ steps, (Code.act (it.processor.fail run.task (.retriesExhausted it.retry.maxAttempts source))).Runs T
    run.resumed steps run.disposal.ending run.ended
  /-- The iteration ends with the same error, and so does the call through the limits. -/
  outcome : last.round.outcome = .error (.retriesExhausted it.retry.maxAttempts source) ∧
    last.shift.call.outcome = .error (.retriesExhausted it.retry.maxAttempts source)
  /-- Whatever the counts are, the call leaves all of them as they are. -/
  counts : ∀ counts : Tally, Rule.follow tallying counts last.shift.call.steps = some counts
  /-- A request to shut the pool down is handed over as a whole. -/
  escalates : ∀ reason, source.innermost = .poolShutdown reason → last.shift.handover =
    [⟨last.shift.call.ended, .asked (.escalate (.retriesExhausted it.retry.maxAttempts source)) last.shift.taken⟩]
  /-- One that concerns the worker alone is not. -/
  keeps : ∀ reason, source.innermost = .workerShutdown reason → last.shift.handover = []
  /-- Beside the log, after the call there is nothing but that, and that the worker says that it stops. -/
  unlogged_eq : unlogged steps = ⟨t, .asked (.record (.workerStarted w.id)) ()⟩ ::
    (before.flatMap (·.shift.story w.id) ++
      (⟨last.shift.call.begun, .waited true .elapsed⟩ :: unlogged last.shift.call.steps ++ last.shift.handover) ++
      if next = none then [w.farewell last.shift.call.ended] else [])
  /-- The loop is over in the millisecond in which the call ended. -/
  ended : t' = last.shift.call.ended
  leaves : ∀ state, next = some state → (∃ more, (w.segment state).Runs T t' more (.ok none) t') ∧
    ∀ more e t'', (w.segment state).Runs T t' more e t'' →
      e = .ok none ∧ t'' = t' ∧ unlogged more = [w.farewell t']

variable {calls before after : List (Watched C)} {last : Watched C} {run : TaskRun C} {source : PoolError}

/-- A call that asks the worker to leave is its last one. -/
theorem Tour.last_of_retires (tour : w.Tour T t steps next t' (calls.map Watched.shift))
    (split : calls = before ++ last :: after) (retires : last.shift.call.outcome.Retires) : after = [] := by
  cases after with
  | nil => rfl
  | cons following rest =>
    obtain ⟨at_last, at_following⟩ := getElem?_of_split split
    exact absurd retires (tour.between before.length last.shift following.shift at_last at_following).1

section

variable {shifts : List (Shift C)} {shift : Shift C}

/-- With the last call, if that asked the worker to leave, the loop is over. -/
theorem Tour.ended_of_retires (tour : w.Tour T t steps next t' shifts) (last_eq : shifts.getLast? = some shift)
    (retires : shift.call.outcome.Retires) : t' = shift.call.ended := by
  have finished := (shift.interval?_state_eq_none_iff w.schedule).mpr retires
  have standing_eq : standing shifts = shift.state := by simp [standing, last_eq]
  cases next with
  | some state =>
    obtain ⟨last, same, _, now⟩ := tour.onward state rfl
    obtain rfl := Option.some.inj (last_eq.symm.trans same)
    exact now
  | none =>
    rcases tour.finished rfl with ⟨last, same, _, now⟩ | ⟨delay, _, interval, _⟩
    · obtain rfl := Option.some.inj (last_eq.symm.trans same)
      exact now
    · rw [standing_eq, finished] at interval
      cases interval

/-- If it is not closed yet, it can be closed at once, and nothing else can be done. -/
theorem Tour.leaves_of_retires {state : WorkerState} (tour : w.Tour T t steps (some state) t' shifts)
    (last_eq : shifts.getLast? = some shift) (retires : shift.call.outcome.Retires) :
    (∃ more, (w.segment state).Runs T t' more (.ok none) t') ∧
      ∀ more e t'', (w.segment state).Runs T t' more e t'' →
        e = .ok none ∧ t'' = t' ∧ unlogged more = [w.farewell t'] := by
  have finished := (shift.interval?_state_eq_none_iff w.schedule).mpr retires
  obtain ⟨last, same, rfl, _⟩ := tour.onward state rfl
  obtain rfl := Option.some.inj (last_eq.symm.trans same)
  refine ⟨exists_leaves finished, fun more e t'' run => ?_⟩
  rw [segment_of_over finished] at run
  obtain ⟨rfl, rfl, unlogged_eq, _⟩ := closing_runs run
  exact ⟨rfl, rfl, unlogged_eq⟩

/-- A worker that its call retires leaves with its farewell, and otherwise there is nothing to say yet. -/
theorem departure_of_retires (retires : shift.call.outcome.Retires) (next : Option WorkerState) (time : Nat) :
    w.departure shift.state next time = if next = none then [w.farewell time] else [] := by
  unfold departure
  rw [(shift.interval?_state_eq_none_iff w.schedule).mpr retires]
  cases next <;> rfl

/-- An error is handed over just when it makes the worker shut down. -/
theorem handover_of_error {error : PoolError} (outcome : shift.call.outcome = .error error) :
    shift.handover = if WorkerState.afterError error = .shuttingDown then
      [⟨shift.call.ended, .asked (.escalate error) shift.taken⟩] else [] := by
  unfold Shift.handover Shift.state
  rw [outcome]
  rfl

end

/-- A request to shut down that the last attempt at a task ends with reaches the loop of the worker, through whatever
limits there are around its work, and the worker leaves. -/
theorem loops_heed (work : w.work = Layer.compose (limits.map .errorLimit) it.work)
    {e : Except Panic (Option WorkerState)} (loops : w.Loops T t steps e t') :
    ∃ next calls, e = .ok next ∧ w.Tour T t steps next t' (calls.map Watched.shift) ∧
      (∀ watched ∈ calls, watched.Holds it limits T w.id) ∧
      ∀ before last after run source, calls = before ++ last :: after → last.round = .worked run →
        run.processing.Exhausts it.retry source → source.innermost.isShutdownSignal = true →
        ¬ run.disposal.Panics → after = [] ∧ w.Heeds it T t steps next t' before last run source := by
  obtain ⟨next, shifts, he, tour⟩ := loops.tour
  have isOf := tour.isOf
  rw [work] at isOf
  obtain ⟨calls, rfl, held⟩ := exists_held isOf
  refine ⟨next, calls, he, tour, held, ?_⟩
  intro before last after run source split worked exhausts signal returned
  obtain ⟨follows, marks_eq, spared⟩ := held last (split ▸ List.mem_append_right _ List.mem_cons_self)
  rw [worked] at follows marks_eq
  have ended : last.round.outcome = .error (.retriesExhausted it.retry.maxAttempts source) := by
    rw [worked]
    exact run.outcome_of_exhausts follows exhausts returned
  have uncounted : ErrorLimit.counts (.retriesExhausted it.retry.maxAttempts source) = false := by
    simp [ErrorLimit.counts, PoolError.innermost, signal]
  -- The error is not counted, so every limit lets it pass as it is.
  obtain ⟨passed, isWork⟩ := spared (.inr ⟨_, ended, uncounted⟩)
  have outcome := passed.trans ended
  -- It is a request to shut down all the same, and after such a call the loop makes no other.
  have retires : last.shift.call.outcome.Retires := ⟨_, outcome, .inl signal⟩
  obtain rfl := tour.last_of_retires split retires
  subst split
  have last_eq : ((before ++ [last]).map Watched.shift).getLast? = some last.shift := by simp
  have now := tour.ended_of_retires last_eq retires
  refine ⟨rfl, ?_⟩
  constructor
  case failed => rw [marks_eq, Round.marks, terminalsIn_marks, run.terminal_of_exhausts follows exhausts]
  case called => exact (TaskRun.Follows.terminal_runs follows).2 _ (run.terminal_of_exhausts follows exhausts)
  case outcome => exact ⟨ended, outcome⟩
  case counts => exact labours_work.follow_tallying isWork
  case escalates =>
    intro reason innermost
    rw [handover_of_error outcome, if_pos (by simp [WorkerState.afterError, PoolError.innermost, innermost])]
  case keeps =>
    intro reason innermost
    rw [handover_of_error outcome, if_neg (by simp [WorkerState.afterError, PoolError.innermost, innermost])]
  case unlogged_eq =>
    have unpanicked : Shift.panicNote w.id last.shift.call = [] := by
      unfold Shift.panicNote
      rw [outcome]
    have standing_eq : standing ((before ++ [last]).map Watched.shift) = last.shift.state := by simp
    rw [tour.unlogged_eq, standing_eq, departure_of_retires retires, now, List.map_append, List.flatMap_append,
      List.flatMap_map]
    simp [Shift.story, unpanicked]
  case ended => exact now
  case leaves =>
    rintro state rfl
    exact tour.leaves_of_retires last_eq retires

/-- Fails at every task, and asks for the pool to be shut down. -/
def alarmed : Processor .bare :=
  { Pool.hasty with process := fun _ => .done (.error (.poolShutdown "fire")) }

/-- Attempts a task twice, five milliseconds apart. -/
def persistent : Iteration .bare where
  processor := alarmed
  retry := .new 2 (.ofMillis 5)

/-- A worker whose work goes through two limits, the outer of which allows no failure at all. -/
def watchful : Worker .bare where
  id := "watchful"
  schedule := { active := .ofMillis 10, idle := .ofMillis 20 }
  work := Layer.compose ([⟨"none", 0⟩, ErrorLimit.strict].map .errorLimit) persistent.work

/-- Whether an entry of the journal is the call that fails a task with a request to shut the pool down, wrapped once. -/
def isAlarm : Entry .bare → Bool
  | ⟨_, _, .call (.fail _ (.retriesExhausted 2 (.poolShutdown _)))⟩ => true
  | _ => false

/-- What sets off the alarm is a task that has been failed for its attempts, all of which met a shutdown. -/
theorem exists_mark_of_alarm {steps : List (Step .bare)} {id : Option String}
    (alarm : (steps.filterMap (·.shown? id)).any isAlarm = true) :
    ∃ time task reason, (time, .made (.fail task (.retriesExhausted 2 (.poolShutdown reason)))) ∈ marks steps := by
  obtain ⟨⟨time, worker, event⟩, shown, holds⟩ := List.any_eq_true.mp alarm
  obtain ⟨⟨time', deed⟩, mem, same⟩ := List.mem_filterMap.mp shown
  unfold isAlarm at holds
  split at holds
  · next task reason entry =>
    cases entry
    refine ⟨time', task, reason, List.mem_filterMap.mpr ⟨_, mem, ?_⟩⟩
    cases deed with
    | waited => cases same
    | asked request answer =>
      cases request with
      | enter call =>
        cases same
        rfl
      | client request => cases request <;> cases same
      | _ => cases same
  · cases holds

/-- After two attempts the worker asks for the pool to be shut down, and leaves. -/
theorem loops_heed_of_alarm :
    ∃ steps, watchful.Loops none 0 steps (.ok none) 15 ∧
      (∃ time task reason,
        (time, .made (.fail task (.retriesExhausted 2 (.poolShutdown reason)))) ∈ marks steps) ∧
      ∃ calls, watchful.Tour none 0 steps none 15 (calls.map Watched.shift) ∧
        ∀ before last after run source, calls = before ++ last :: after → last.round = .worked run →
          run.processing.Exhausts persistent.retry source → source.innermost.isShutdownSignal = true →
          ¬ run.disposal.Panics → after = [] ∧
            watchful.Heeds persistent none 0 steps none 15 before last run source := by
  have finished : (watchful.runAlone none 3 Shared.fresh).map
      (fun s => (s.clock, s.cancelledSince, s.scene.any isAlarm)) = some (15, none, true) := by
    decide +kernel
  obtain ⟨final, ran, same⟩ := Option.map_eq_some_iff.mp finished
  simp only [Prod.mk.injEq] at same
  obtain ⟨clock, uncancelled, alarm⟩ := same
  obtain ⟨steps, loops, scene⟩ := runAlone_loops ran Shared.fresh_pastCancel
  rw [clock, uncancelled] at loops
  rw [scene, List.any_append] at alarm
  obtain ⟨next, calls, he, tour, -, heeds⟩ := loops_heed rfl loops
  cases he
  exact ⟨steps, loops, exists_mark_of_alarm alarm, calls, tour, heeds⟩

end Worker

end WorkerPool
