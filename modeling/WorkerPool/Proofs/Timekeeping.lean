import WorkerPool.Proofs.Accounts
import WorkerPool.Proofs.Figures

/-!
# How long a task takes

The duration of a task is what its attempts took and the backoffs between them, as far as they were waited
for (`Processing.Goes.time_eq`): nothing of the time of the checkout, of the layers or of the call that
disposed of the task. This one value is handed to that call and told to the collector
(`TaskRun.duration?_of_mem_timed`). In every run of a pool whatever is handed over and told is of this kind,
and a collector that counts has added it up (`Pool.runs_timed`).
-/

namespace WorkerPool

variable {C : Client} {α : Type} {T : Option Nat} {t t' : Nat}

/-! ## What attempts take -/

/-- What attempts took, without what was between them. -/
def runningTime (attempts : List (Stretch C α)) : Nat :=
  (attempts.map fun a => a.ended - a.begun).sum

namespace RetryPolicy

variable {last : Stretch C α}

/-- The backoffs in full before so many attempts, the first of which has that number. -/
def backoffTime (policy : RetryPolicy) (attempt count : Nat) : Nat :=
  ((List.range' attempt count).map policy.backoff).sum

/-- Attempts end when what they took and what was waited between them has gone by. -/
theorem ended_eq (policy : RetryPolicy) {n : Nat} {first : Stretch C α} {more : List (Stretch C α)}
    (took : ∀ a ∈ first :: more, a.begun ≤ a.ended)
    (between : ∀ (i : Nat) (a b : Stretch C α), (first :: more)[i]? = some a →
      (first :: more)[i + 1]? = some b → b.begun = a.ended + policy.backoff (n + i))
    (last_eq : (first :: more).getLast? = some last) :
    last.ended = first.begun + runningTime (first :: more) + policy.backoffTime n more.length := by
  induction more generalizing n first with
  | nil =>
    obtain rfl : first = last := by simpa using last_eq
    have le := took first List.mem_cons_self
    simp [runningTime, backoffTime]
    omega
  | cons second more ih =>
    have le := took first List.mem_cons_self
    have begun := between 0 first second rfl rfl
    have later := ih (n := n + 1) (fun a mem => took a (List.mem_cons_of_mem _ mem))
      (fun i a b at_i at_next => by
        rw [Nat.add_assoc, Nat.add_comm 1]
        exact between (i + 1) a b at_i at_next)
      (by simpa using last_eq)
    have whole : runningTime (first :: second :: more) =
        (first.ended - first.begun) + runningTime (second :: more) := rfl
    have backed_off : policy.backoffTime n (second :: more).length =
        policy.backoff n + policy.backoffTime (n + 1) more.length := rfl
    rw [Nat.add_zero] at begun
    omega

end RetryPolicy

/-! ## What shows of it -/

namespace TaskRun

variable {it : Iteration C} {run : TaskRun C} {worker : String}

/-- What the collector is told when the task has been disposed of. -/
def metric (worker : String) (run : TaskRun C) : Metric :=
  match run.processing.outcome.caught with
  | .ok _ => .taskCompleted worker run.duration
  | .error _ => .taskFailed worker run.duration

/-- The mark of that, unless the call panicked that was to dispose of the task. -/
def report (worker : String) (run : TaskRun C) : List (Nat × Mark C) :=
  if run.disposal.panic? = none then [(run.ended, .told (run.metric worker))] else []

end TaskRun

/-- The duration that a mark carries: that of a call that completes a task, or of a recording. -/
def Mark.duration? : Mark C → Option Duration
  | .made (.complete _ d) => some d
  | .told metric => metric.duration?
  | _ => none

/-- Whether the collector was told a duration. -/
def Mark.reports (mark : Mark C) : Bool :=
  mark.metric?.any (·.duration?.isSome)

/-- What shows of calls of client code and of durations that the collector is told. -/
def timedIn (marks : List (Nat × Mark C)) : List (Nat × Mark C) :=
  marks.filter fun mark => mark.2.isCall || mark.2.reports

@[simp] theorem timedIn_append (first second : List (Nat × Mark C)) :
    timedIn (first ++ second) = timedIn first ++ timedIn second :=
  List.filter_append ..

/-- A duration is told when the task is disposed of. -/
theorem Mark.part_of_reports (mark : Mark C) (h : mark.reports = true) : mark.part = .disposal := by
  cases mark with
  | made | ended => cases h
  | told metric => cases metric <;> first | rfl | cases h

/-- Where no duration is told there are only calls. -/
theorem timedIn_eq_callsIn {marks : List (Nat × Mark C)}
    (silent : marks.countP (fun mark => mark.2.reports) = 0) : timedIn marks = callsIn marks := by
  refine List.filter_congr fun mark mem => ?_
  rw [Bool.eq_false_iff.mpr (List.countP_eq_zero.mp silent mark mem), Bool.or_false]

namespace TaskRun

variable {it : Iteration C} {run : TaskRun C}

/-- What shows of the work on a task: its calls, and the duration that the collector is told at the end. -/
def timed (worker : String) (run : TaskRun C) : List (Nat × Mark C) :=
  run.calls ++ run.report worker

/-- No duration is told before the task has been disposed of. -/
theorem countP_reports_eq_zero (policy : RetryPolicy) (worker : String) (run : TaskRun C) :
    List.countP (fun mark : Nat × Mark C => mark.2.reports)
      (run.processing.marks policy run.task run.claimed run.resumed ++
        panicMarks worker run.resumed run.processing.outcome) = 0 := by
  have belongs (mark : Mark C) := mark.part_of_reports
  have whole : (run.laterMarks policy worker).countP (fun mark => mark.2.reports) = _ :=
    run.countP_laterMarks belongs nofun
  have attempts := countP_attemptMarks_eq_zero belongs nofun nofun run.task 1 run.processing.attempts
  have verdict := countP_verdictMarks_eq_zero belongs nofun policy run.processing.attempts.length run.resumed
    run.processing.tried
  have panicked := countP_panicMarks_eq_zero belongs nofun worker run.resumed run.processing.outcome
  rw [laterMarks, List.countP_append] at whole
  omega

/-- Of the disposal of a task its call shows, and the duration that is told. -/
theorem timedIn_disposalMarks (worker : String) (run : TaskRun C) :
    timedIn (run.disposalMarks worker) = callsIn (run.disposalMarks worker) ++ run.report worker := by
  unfold disposalMarks report metric
  generalize run.processing.outcome.caught = caught
  cases caught <;> cases run.disposal <;> rfl

/-- Of the work on a task its calls show, and the duration that is told at the end. -/
theorem timedIn_marks (policy : RetryPolicy) (worker : String) (run : TaskRun C) :
    timedIn (run.marks policy worker) = run.timed worker := by
  have silent := timedIn_eq_callsIn (run.countP_reports_eq_zero policy worker)
  have calls := run.callsIn_marks policy worker
  rw [marks_eq, laterMarks] at calls ⊢
  rw [timed, ← calls]
  have claimed (rest : List (Nat × Mark C)) :
      timedIn ((run.claimed, .told (.taskCheckedOut worker)) :: rest) = timedIn rest ∧
        callsIn ((run.claimed, .told (.taskCheckedOut worker)) :: rest) = callsIn rest := ⟨rfl, rfl⟩
  rw [timedIn_append, callsIn_append, (claimed _).1, (claimed _).2, timedIn_append, callsIn_append, silent,
    timedIn_disposalMarks, ← List.append_assoc, ← List.append_assoc]
  rfl

end TaskRun

namespace Round

/-- What shows of an iteration: its calls, and the duration that the collector is told at the end. -/
def timed (worker : String) : Round C → List (Nat × Mark C)
  | worked run => run.timed worker
  | other => other.calls

/-- Of an iteration its calls show, and the duration that is told at the end. -/
theorem timedIn_marks (policy : RetryPolicy) (worker : String) (round : Round C) :
    timedIn (round.marks policy worker) = round.timed worker := by
  cases round with
  | worked run => exact run.timedIn_marks policy worker
  | idle time error =>
    simp only [marks, timed, calls]
    split <;> rfl
  | panicked => rfl

end Round

/-! ## The time of a task -/

section

variable {it : Iteration C} {task : C.Task} {attempts : List (Stretch C C.Task)} {result : Outcome C.Task}

/-- The backoff after the last attempt, as far as it was waited for until the cancellation. -/
def cutAfter (T : Option Nat) (last : Stretch C α) (result : Outcome α) : Nat :=
  match result with
  | .error .cancelled => T.elim 0 (· - last.ended)
  | _ => 0

/-- What passes while a task is tried is what the attempts took, the backoffs between them, and what was waited
of the last one if the cancellation cut it short. -/
theorem Tries.time_eq (h : Tries it T task t attempts result t') :
    ∃ last, attempts.getLast? = some last ∧ t' = t + (runningTime attempts +
      it.retry.backoffTime 2 (attempts.length - 1) + cutAfter T last result) := by
  obtain ⟨_, last, course⟩ := h
  refine ⟨last, course.last_eq, ?_⟩
  have all_run : ∀ a ∈ attempts, a.begun ≤ a.ended := by
    intro a mem
    obtain ⟨i, lt, rfl⟩ := List.getElem_of_mem mem
    exact (course.isOf i _ (List.getElem?_eq_getElem lt)).le
  -- After the last attempt only a backoff may follow, and that only if the cancellation has cut it short.
  have settled : t' = last.ended + cutAfter T last result := by
    by_cases cancelled : result = .error .cancelled
    · subst cancelled
      obtain ⟨_, _, moment, mem, _, rfl⟩ := course.cancelled_iff.mp rfl
      rw [cutAfter, Option.mem_def.mp mem, Option.elim_some]
      omega
    · rw [course.ended cancelled, cutAfter]
      · rfl
      · exact cancelled
  cases attempts with
  | nil => cases course.last_eq
  | cons first more =>
    have begun := course.first first rfl
    have ended := it.retry.ended_eq (n := 2) all_run
      (fun i a b at_i at_next => by
        rw [Nat.add_comm 2]
        exact (course.between i a b at_i at_next).2.1)
      course.last_eq
    rw [List.length_cons, Nat.add_sub_cancel, settled, ended, begun]
    omega

end

namespace Processing

variable {it : Iteration C} {task : C.Task} {p : Processing C}

/-- The backoff that the cancellation cut short, if one did. -/
def cutBackoff (T : Option Nat) (p : Processing C) : Nat :=
  match p.tried, p.attempts.getLast? with
  | some result, some last => cutAfter T last result
  | _, _ => 0

/-- Where the attempts came to something, they are those of the policy. -/
theorem Goes.tries_of_tried (h : p.Goes it T task t t') {result : Outcome C.Task} (tried : p.tried = some result) :
    Tries it T task t p.attempts result t' := by
  cases h with
  | unbegun => cases tried
  | panicked _ tries | finished _ tries =>
    cases tried
    exact tries

/-- The time of a processing is that of its attempts and of the backoffs. -/
theorem Goes.time_eq (h : p.Goes it T task t t') :
    t' = t + (runningTime p.attempts + it.retry.backoffTime 2 (p.attempts.length - 1) + p.cutBackoff T) := by
  cases h with
  | unbegun => rfl
  | panicked _ tries | finished _ tries =>
    obtain ⟨last, last_eq, time_eq⟩ := tries.time_eq
    rw [cutBackoff, last_eq]
    exact time_eq

end Processing

/-- What there is to say of the time that a task took. -/
structure TaskRun.Timed (it : Iteration C) (T : Option Nat) (worker : String) (run : TaskRun C) : Prop where
  /-- Each attempt is a call of the processor. -/
  isOf : ∀ a ∈ run.processing.attempts, a.IsOf T (it.attempt run.task)
  /-- The first of them is made as soon as the task is checked out. -/
  first : ∀ a : Stretch C C.Task, run.processing.attempts[0]? = some a → a.begun = run.claimed
  /-- Every other one is made as soon as the backoff is over after the one before it. -/
  between : ∀ (i : Nat) (a b : Stretch C C.Task), run.processing.attempts[i]? = some a →
    run.processing.attempts[i + 1]? = some b → b.begun = a.ended + it.retry.backoff (i + 2)
  /-- A backoff that is cut short is the last thing there is, and is so in the moment of the cancellation. -/
  cut : run.processing.tried = some (.error .cancelled) → ∃ last moment,
    run.processing.attempts.getLast? = some last ∧ moment ∈ T ∧ run.resumed = max last.ended moment ∧
      run.resumed ≤ last.ended + it.retry.backoff (run.processing.attempts.length + 1)
  /-- The duration is what all of this took together. -/
  duration_eq : run.duration = .ofMillis (runningTime run.processing.attempts +
    it.retry.backoffTime 2 (run.processing.attempts.length - 1) + run.processing.cutBackoff T)
  /-- No other duration is handed to a call or told to the collector. -/
  alike : ∀ mark ∈ run.timed worker, ∀ d, mark.2.duration? = some d → d = run.duration

namespace TaskRun

variable {it : Iteration C} {run : TaskRun C}

/-- No mark of a pass of hooks carries a duration. -/
theorem duration?_of_mem_passMarks {made : C.Hook → Call C} {ended : Outcome Unit → Ending C}
    (untimed : ∀ hook, (Mark.made (made hook)).duration? = none) {time : Nat} {calls : List (HookCall C)}
    {mark : Nat × Mark C} (mem : mark ∈ passMarks time made ended calls) : mark.2.duration? = none := by
  obtain ⟨call, _, mem⟩ := List.mem_flatMap.mp mem
  simp only [List.mem_cons, List.not_mem_nil, or_false] at mem
  rcases mem with rfl | rfl
  · exact untimed call.hook
  · rfl

theorem duration?_of_mem_attemptCalls {task : C.Task} {attempts : List (Stretch C C.Task)}
    {mark : Nat × Mark C} (mem : mark ∈ attemptCalls task attempts) : mark.2.duration? = none := by
  obtain ⟨a, _, mem⟩ := List.mem_flatMap.mp mem
  simp only [List.mem_cons, List.not_mem_nil, or_false] at mem
  rcases mem with rfl | rfl <;> rfl

theorem duration?_postCall (task : C.Task) (tried : Option (Outcome C.Task)) (hook : C.Hook) :
    (Mark.made (Processing.postCall task tried hook)).duration? = none := by
  unfold Processing.postCall
  split <;> rfl

/-- A call that completes a task is handed the duration of its run. -/
theorem duration?_terminal (run : TaskRun C) (d : Duration)
    (carries : (Mark.made run.terminal).duration? = some d) : d = run.duration := by
  unfold terminal at carries
  split at carries
  · exact (Option.some.inj carries).symm
  · cases carries

/-- The duration that is told is that of the run. -/
theorem duration?_of_mem_report {worker : String} {mark : Nat × Mark C} (mem : mark ∈ run.report worker) :
    mark.2.duration? = some run.duration := by
  unfold report at mem
  split at mem
  · obtain rfl := List.mem_singleton.mp mem
    unfold metric
    split <;> rfl
  · cases mem

/-- No other duration is handed to a call or told to the collector than that of the task. -/
theorem duration?_of_mem_timed (worker : String) (run : TaskRun C) :
    ∀ mark ∈ run.timed worker, ∀ d, mark.2.duration? = some d → d = run.duration := by
  intro mark mem d carries
  have untimed (none : mark.2.duration? = none) : d = run.duration := by
    rw [none] at carries
    cases carries
  simp only [timed, calls, List.mem_append, List.mem_cons, List.not_mem_nil, or_false] at mem
  rcases mem with (((((rfl | rfl) | pre) | attempt) | post) | rfl | rfl) | report
  · cases carries
  · cases carries
  · exact untimed (duration?_of_mem_passMarks (fun _ => rfl) pre)
  · exact untimed (duration?_of_mem_attemptCalls attempt)
  · exact untimed (duration?_of_mem_passMarks (duration?_postCall _ _) post)
  · exact run.duration?_terminal d carries
  · cases carries
  · exact Option.some.inj (carries.symm.trans (duration?_of_mem_report report))

/-- A run that follows the iteration took the time that is told of it. -/
theorem Follows.timed (h : run.Follows it T) (worker : String) : run.Timed it T worker := by
  have goes := h.processed
  constructor
  case isOf =>
    intro a mem
    obtain ⟨i, lt, rfl⟩ := List.getElem_of_mem mem
    obtain ⟨_, _, _, _, course⟩ := goes.tries (List.ne_nil_of_mem mem)
    exact course.isOf i _ (List.getElem?_eq_getElem lt)
  case first =>
    intro a at_zero
    obtain ⟨_, _, _, _, course⟩ := goes.tries (List.ne_nil_of_mem (List.mem_of_getElem? at_zero))
    exact course.first a at_zero
  case between =>
    intro i a b at_i at_next
    obtain ⟨_, _, _, _, course⟩ := goes.tries (List.ne_nil_of_mem (List.mem_of_getElem? at_i))
    exact (course.between i a b at_i at_next).2.1
  case cut =>
    intro cancelled
    obtain ⟨_, last, course⟩ := goes.tries_of_tried cancelled
    obtain ⟨_, _, moment, mem, le, resumed_eq⟩ := course.cancelled_iff.mp rfl
    refine ⟨last, moment, course.last_eq, mem, resumed_eq, ?_⟩
    rw [resumed_eq]
    exact Nat.max_le.mpr ⟨Nat.le_add_right .., le⟩
  case duration_eq => rw [duration, goes.time_eq, Nat.add_sub_cancel_left]
  case alike => exact run.duration?_of_mem_timed worker

end TaskRun

/-- What there is to say of the time that an iteration took, if it came to work. -/
def Round.Timed (it : Iteration C) (T : Option Nat) (worker : String) : Round C → Prop
  | worked run => run.Timed it T worker
  | idle _ _ | panicked _ _ => True

/-- An iteration that follows what it should took the time that is told of it. -/
theorem Round.Follows.timed {it : Iteration C} {round : Round C} (h : round.Follows it T) (worker : String) :
    round.Timed it T worker := by
  cases round with
  | worked run => exact TaskRun.Follows.timed h worker
  | idle | panicked => exact trivial

/-! ## What the collector adds up -/

namespace Pool

variable {p : Pool C} {events : List (Nat × Step C)}

/-- The durations that the collector was told, in nanoseconds. -/
def toldNanos (steps : List (Step C)) : Nat :=
  Duration.sumNanos (durationsOf (recordings steps))

/-- The durations told in all are the sum of those told in each step. -/
theorem toldNanos_eq_sum (steps : List (Step C)) : toldNanos steps = (steps.map fun step => toldNanos [step]).sum := by
  induction steps with
  | nil => rfl
  | cons step rest ih =>
    rw [List.map_cons, List.sum_cons, ← ih, ← List.singleton_append, toldNanos, recordings_append,
      durationsOf_append, Duration.sumNanos_append]
    rfl

/-- The durations told in all are the sum of those told by each worker. -/
theorem toldNanos_eq_sum_workers (b : PoolBuilder C) (state : C.State) (runs : (build b state).Runs events p) :
    toldNanos (events.map (·.2)) = ∑ n ∈ Finset.range b.plan.workers, toldNanos (history n events) := by
  rw [toldNanos_eq_sum, List.map_map]
  simp only [toldNanos_eq_sum (history _ events)]
  exact sum_eq_sum (fun step => toldNanos [step]) (runs.index_lt b state)

/-- After any run of a pool the total is that of the durations that the workers told the collector, if a word
holds it. -/
theorem runs_totalDuration (b : PoolBuilder C) (state : C.State) (runs : (build b state).Runs events p)
    {counters : Counters} (counts : b.collector.counters? = some counters)
    (fits : counters.totalNanos.toNat +
      ∑ n ∈ Finset.range b.plan.workers, toldNanos (history n events) < 2 ^ 64) :
    p.shared.snapshot.totalDuration.toNanos = counters.totalNanos.toNat +
      ∑ n ∈ Finset.range b.plan.workers, toldNanos (history n events) := by
  obtain ⟨since, counts'⟩ := runs.counters?_eq (p := build b state) counts
  rw [← toldNanos_eq_sum_workers b state runs] at fits ⊢
  have alone : Duration.sumNanos (durationsOf (recordings (events.map (·.2)))) < 2 ^ 64 :=
    Nat.lt_of_le_of_lt (Nat.le_add_left ..) fits
  rw [Shared.snapshot, Collector.snapshot_eq counts', Counters.toNanos_totalDuration]
  change (counters.recordAll (recordings (events.map (·.2)))).totalNanos.toNat = _
  rw [Counters.totalNanos_recordAll, Duration.sum_wordNanos alone]
  exact Nat.mod_eq_of_lt fits

/-! ## Whole runs -/

/-- In every run of a pool, whatever the workers, the owner and the code of the client do, what shows of each
worker's calls and of the durations it tells the collector is the beginning of what shows of rounds, and all
of it when the run has returned; every task that was checked out in a round took the time of its attempts
and backoffs, which is the one duration that is handed over and told. A collector that counts has added up
what it was told, as long as a word holds it. -/
theorem runs_timed (b : PoolBuilder C) (state : C.State) (runs : (build b state).Runs events p) :
    (∀ n, ∃ (rounds : List (Round C)) (ahead : List (Nat × Mark C)),
      (∀ round ∈ rounds, round.Timed b.plan.iteration p.shared.cancelledSince (b.plan.worker (n + 1)).id) ∧
      timedIn (marks (history n events)) ++ ahead =
        rounds.flatMap (·.timed (b.plan.worker (n + 1)).id) ∧
      (p.returned.isSome = true → ahead = [])) ∧
    ∀ counters, b.collector.counters? = some counters →
      counters.totalNanos.toNat + ∑ n ∈ Finset.range b.plan.workers, toldNanos (history n events) < 2 ^ 64 →
      p.shared.snapshot.totalDuration.toNanos =
        counters.totalNanos.toNat + ∑ n ∈ Finset.range b.plan.workers, toldNanos (history n events) := by
  refine ⟨fun n => ?_, fun counters counts fits => runs_totalDuration b state runs counts fits⟩
  obtain ⟨rounds, ahead, follows, shown, whole⟩ :=
    runs_rounds b state runs n (fun mark => mark.isCall || mark.reports) fun _ => ⟨rfl, rfl, rfl⟩
  refine ⟨rounds, ahead, fun round mem => (follows round mem).timed _, shown.trans ?_, whole⟩
  exact congrArg (rounds.flatMap ·) (funext fun round => round.timedIn_marks ..)

/-- Fails at every task after five milliseconds, and has the pool stopped when one is given up. -/
def plodding : Processor .bare :=
  { hasty with
    process := fun _ => .wait 5 false fun _ => .done (.error .noWork)
    fail := fun _ _ => .ask (I := Client.interface .bare) .stop fun _ => .done (.ok ()) }

/-- A pool of one worker that attempts each task twice, ten milliseconds apart, and counts. -/
def patient : PoolBuilder .bare :=
  { lonely with
    processor := plodding
    maxRetries := 2
    retryBaseDelay := .ofMillis 10
    collector := .counting {} }

/-- A run with one task that took twenty milliseconds. -/
theorem runs_timed_of_patient :
    ∃ events p, (build patient ()).Runs events p ∧ p.returned.isSome = true ∧
      (∃ rounds : List (Round .bare),
        (∀ round ∈ rounds, round.Timed patient.plan.iteration p.shared.cancelledSince "lonely-worker-1") ∧
        timedIn (marks (history 0 events)) = rounds.flatMap (·.timed "lonely-worker-1")) ∧
      toldNanos (history 0 events) = 20000000 ∧ p.shared.snapshot.totalDuration.toNanos = 20000000 := by
  obtain ⟨events, runs⟩ := runs_perform patient () [.start, .advance 40]
  let p := (build patient ()).perform [.start, .advance 40]
  have returned : p.returned.isSome = true := by decide +kernel
  have fresh : patient.collector.counters? = some {} := rfl
  obtain ⟨all, total⟩ := runs_timed patient () runs
  obtain ⟨rounds, ahead, timed, shown, whole⟩ := all 0
  rw [whole returned, List.append_nil] at shown
  -- One task, which took twenty milliseconds at most, cannot make the total wrap around.
  obtain ⟨since, counts⟩ := runs.counters?_eq (p := build patient ()) fresh
  have counted : p.shared.collector.counters?.map (fun c => (c.tasksProcessed, c.longest.toNanos)) =
      some (1, 20000000) := by
    decide +kernel
  rw [counts] at counted
  obtain ⟨one, longest⟩ := Prod.mk.inj (Option.some.inj counted)
  have le : toldNanos (events.map (·.2)) ≤ _ := Counters.sumNanos_le_recordAll {} (recordings (events.map (·.2)))
  have alone : toldNanos (events.map (·.2)) = toldNanos (history 0 events) :=
    (toldNanos_eq_sum_workers patient () runs).trans (Finset.sum_range_one _)
  have sum_eq : ({} : Counters).totalNanos.toNat +
      ∑ n ∈ Finset.range patient.plan.workers, toldNanos (history n events) = toldNanos (history 0 events) :=
    (Nat.zero_add _).trans (Finset.sum_range_one _)
  have shown_total := total {} fresh
  rw [sum_eq] at shown_total
  have twenty : p.shared.snapshot.totalDuration.toNanos = 20000000 := by decide +kernel
  have fits : toldNanos (history 0 events) < 2 ^ 64 := by
    rw [← alone]
    refine Nat.lt_of_le_of_lt le ?_
    rw [show (({} : Counters).recordAll (recordings (events.map (·.2)))).tasksProcessed = 1 from one,
      show (({} : Counters).recordAll (recordings (events.map (·.2)))).longest.toNanos = 20000000 from longest]
    decide
  exact ⟨events, p, runs, returned, ⟨rounds, timed, shown⟩, (shown_total fits).symm.trans twenty, twenty⟩

end Pool

end WorkerPool
