import Mathlib.Algebra.BigOperators.Ring.Finset
import Mathlib.Algebra.Order.BigOperators.Group.Finset
import WorkerPool.Proofs.Histories
import WorkerPool.Proofs.Reporting

/-!
# What the collector has counted

A collector that counts has a number for each kind of recording. Nothing but recordings changes what it has
counted (`Pool.Runs.counters?_eq`), so after any run of a pool these numbers are what they were before, and the
recordings of that kind (`Pool.runs_counters`). Every mark was left by some worker, so that whatever shows may
be counted worker by worker (`Pool.countMarks_eq_sum`). No number is greater than there are steps
(`Pool.count_le_length`).
-/

namespace WorkerPool

variable {C : Client}

/-! ## Kinds of recordings -/

/-- What a recording counts towards. -/
inductive MetricKind where
  | workerStarted
  | workerStopped
  | workerPanicked
  | taskCheckedOut
  | taskCompleted
  | taskFailed
  | checkoutError
  | retryAttempt
  | retrySuccess
  | retryExhausted
deriving DecidableEq, Repr

/-- The kind of a recording. -/
def Metric.kind : Metric → MetricKind
  | .workerStarted _ => .workerStarted
  | .workerStopped _ => .workerStopped
  | .workerPanicked _ => .workerPanicked
  | .taskCheckedOut _ => .taskCheckedOut
  | .taskCompleted _ _ => .taskCompleted
  | .taskFailed _ _ => .taskFailed
  | .checkoutError _ => .checkoutError
  | .retryAttempt _ => .retryAttempt
  | .retrySuccess _ => .retrySuccess
  | .retryExhausted _ => .retryExhausted

namespace Counters

/-- How many recordings of a kind have been counted. -/
def count (c : Counters) : MetricKind → Nat
  | .workerStarted => c.workersStarted
  | .workerStopped => c.workersStopped
  | .workerPanicked => c.workerPanics
  | .taskCheckedOut => c.tasksCheckedOut
  | .taskCompleted => c.tasksCompleted
  | .taskFailed => c.tasksFailed
  | .checkoutError => c.checkoutErrors
  | .retryAttempt => c.retryAttempts
  | .retrySuccess => c.retrySuccesses
  | .retryExhausted => c.retriesExhausted

/-- A recording is counted once, under its own kind. -/
theorem count_record (c : Counters) (metric : Metric) (kind : MetricKind) :
    (c.record metric).count kind = c.count kind + if metric.kind = kind then 1 else 0 := by
  cases metric <;> cases kind <;> rfl

/-- The effect of recordings, one after another. -/
def recordAll (c : Counters) (metrics : List Metric) : Counters :=
  metrics.foldl record c

/-- Recordings can be counted in two portions. -/
theorem recordAll_append (c : Counters) (before after : List Metric) :
    c.recordAll (before ++ after) = (c.recordAll before).recordAll after :=
  List.foldl_append

/-- Counting does not look at the time since which it is done. -/
theorem record_withSince (c : Counters) (metric : Metric) (since : Nat) :
    { c with since }.record metric = { c.record metric with since } := by
  cases metric <;> rfl

/-- Since when has no bearing on what is counted. -/
theorem recordAll_withSince (c : Counters) (metrics : List Metric) (since : Nat) :
    { c with since }.recordAll metrics = { c.recordAll metrics with since } := by
  induction metrics generalizing c with
  | nil => rfl
  | cons metric rest ih =>
    rw [recordAll, List.foldl_cons, record_withSince, ← recordAll, ih]
    rfl

/-- After recordings, each count has grown by the recordings of its kind. -/
theorem count_recordAll (c : Counters) (metrics : List Metric) (kind : MetricKind) :
    (c.recordAll metrics).count kind = c.count kind + metrics.countP (·.kind = kind) := by
  induction metrics generalizing c with
  | nil => rfl
  | cons metric rest ih =>
    rw [recordAll, List.foldl_cons, ← recordAll, ih, count_record, List.countP_cons]
    simp only [decide_eq_true_eq]
    omega

end Counters

/-! ## The counters of a collector -/

namespace Collector

/-- What a collector has counted, if it counts. -/
def counters? : Collector → Option Counters
  | discarding => none
  | counting counters => some counters
  | reporting r => some r.counters

variable (c : Collector) (now : Nat)

/-- A collector that counts shows what its counters show. -/
theorem snapshot_eq {c : Collector} {counters : Counters} (counts : c.counters? = some counters) (now : Nat) :
    c.snapshot now = counters.snapshot now := by
  cases c with
  | discarding => cases counts
  | counting | reporting => cases counts; rfl

/-- Any collector counts a recording as its counters do. -/
theorem counters?_record (metric : Metric) : (c.record metric).counters? = c.counters?.map (·.record metric) := by
  cases c <;> rfl

/-- A start counts the uptime anew, whatever else it does. -/
theorem counters?_start (background : Bool) :
    (c.start background now).1.counters? = c.counters?.map ({ · with since := now }) := by
  cases c with
  | discarding | counting => rfl
  | reporting r => exact congrArg some (r.counters_start background now)

/-- Stopping a collector counts nothing. -/
theorem counters?_stop : (c.stop now).1.counters? = c.counters? := by
  cases c with
  | discarding | counting => rfl
  | reporting r => exact congrArg some (r.counters_stop now)

/-- Writing a report counts nothing. -/
theorem counters?_reportNow : (c.reportNow now).1.counters? = c.counters? := by
  cases c <;> rfl

/-- Reports that fall due count nothing. -/
theorem counters?_fire : (c.fire now).1.counters? = c.counters? := by
  cases c with
  | discarding | counting => rfl
  | reporting r => exact congrArg some (r.counters_fire now)

/-- Nor does the passing of time. -/
theorem counters?_advance (target : Nat) : (c.advance now target).1.counters? = c.counters? := by
  fun_induction advance now target c with
  | case1 | case3 => rfl
  | case2 now c due _ _ _ _ _ fired _ _ rest ih =>
    rw [← c.counters?_fire due, fired, ← ih, rest]

end Collector

/-! ## Counting marks -/

/-- How many marks of a sort a transcript leaves. -/
def countMarks (sort : Mark C → Bool) (steps : List (Step C)) : Nat :=
  (marks steps).countP fun mark => sort mark.2

section

variable (sort : Mark C → Bool)

@[simp] theorem countMarks_nil : countMarks sort ([] : List (Step C)) = 0 := rfl

@[simp] theorem countMarks_append (first second : List (Step C)) :
    countMarks sort (first ++ second) = countMarks sort first + countMarks sort second := by
  rw [countMarks, marks_append, List.countP_append]
  rfl

/-- Counting marks is counting the steps that leave them. -/
theorem countMarks_eq_countP (steps : List (Step C)) :
    countMarks sort steps = steps.countP fun step => step.deed.mark?.any sort := by
  rw [countMarks, marks, List.countP_filterMap]
  refine congrArg (List.countP · steps) (funext fun step => ?_)
  cases step.deed.mark? <;> rfl

/-- A step leaves one mark at most. -/
theorem countMarks_cons (step : Step C) (rest : List (Step C)) :
    countMarks sort (step :: rest) =
      (if step.deed.mark?.any sort then 1 else 0) + countMarks sort rest := by
  rw [countMarks_eq_countP, countMarks_eq_countP, List.countP_cons, Nat.add_comm]

/-- The log leaves no marks, so leaving it out changes no count. -/
@[simp] theorem countMarks_unlogged (steps : List (Step C)) :
    countMarks sort (unlogged steps) = countMarks sort steps := by
  rw [countMarks, marks_unlogged, countMarks]

end

/-- Whether the collector was told something of that kind. -/
def Mark.tells (kind : MetricKind) (mark : Mark C) : Bool :=
  mark.metric?.any fun metric => metric.kind = kind

/-- How often the collector was told something of that kind. -/
def told (kind : MetricKind) (steps : List (Step C)) : Nat :=
  countMarks (Mark.tells kind) steps

/-- What the collector was told of a kind is what is recorded of it. -/
theorem told_eq_countP (kind : MetricKind) (steps : List (Step C)) :
    told kind steps = (recordings steps).countP (·.kind = kind) := by
  rw [told, countMarks, recordings, List.countP_filterMap]
  refine List.countP_congr fun mark _ => ?_
  cases told : mark.2.metric? <;> simp [Mark.tells, told]

/-- Each step tells the collector one thing at most. -/
theorem told_le_length (kind : MetricKind) (steps : List (Step C)) : told kind steps ≤ steps.length := by
  rw [told, countMarks_eq_countP]
  exact List.countP_le_length

namespace Pool

variable {p q : Pool C} {events more : List (Nat × Step C)}

/-- Every step was taken by some worker, so that what steps weigh together is a sum over the workers. -/
theorem sum_eq_sum (weigh : Step C → Nat) {workers : Nat} (bound : ∀ event ∈ events, event.1 < workers) :
    (events.map fun event => weigh event.2).sum =
      ∑ n ∈ Finset.range workers, ((history n events).map weigh).sum := by
  induction events with
  | nil => simp [history]
  | cons event rest ih =>
    have own (n : Nat) : ((history n (event :: rest)).map weigh).sum =
        (if n = event.1 then weigh event.2 else 0) + ((history n rest).map weigh).sum := by
      by_cases same : event.1 = n
      · simp [history, same]
      · simp [history, same, Ne.symm same]
    have mem : event.1 ∈ Finset.range workers := Finset.mem_range.mpr (bound event (by simp))
    rw [List.map_cons, List.sum_cons, ih fun other mem => bound other (by simp [mem])]
    simp only [own, Finset.sum_add_distrib, Finset.sum_ite_eq', mem, if_true]

/-- Every step was taken by some worker, so that steps can be counted worker by worker. -/
theorem countP_eq_sum (sort : Step C → Bool) {workers : Nat} (bound : ∀ event ∈ events, event.1 < workers) :
    events.countP (fun event => sort event.2) =
      ∑ n ∈ Finset.range workers, (history n events).countP sort := by
  have counted {α : Type} (sort : α → Bool) (items : List α) :
      (items.map fun item => if sort item then 1 else 0).sum = items.countP sort := by
    induction items with
    | nil => rfl
    | cons item rest ih => rw [List.map_cons, List.sum_cons, ih, List.countP_cons, Nat.add_comm]
  have weighed := sum_eq_sum (fun step => if sort step then 1 else 0) bound
  simpa only [counted, counted fun event : Nat × Step C => sort event.2] using weighed

/-- The same goes for marks. -/
theorem countMarks_eq_sum (sort : Mark C → Bool) {workers : Nat}
    (bound : ∀ event ∈ events, event.1 < workers) :
    countMarks sort (events.map (·.2)) =
      ∑ n ∈ Finset.range workers, countMarks sort (history n events) := by
  simp only [countMarks_eq_countP, List.countP_map]
  exact countP_eq_sum (fun step => step.deed.mark?.any sort) bound

/-! ## A pool's collector -/

theorem collector_opened (p : Pool C) :
    p.opened.collector = (p.shared.collector.start true p.shared.clock).1 := by
  rw [opened_eq]
  rfl

theorem collector_closed (p : Pool C) :
    p.closed.collector = (p.shared.collector.stop p.shared.clock).1 := by
  rw [closed_eq]
  rfl

/-- Writing the reports that are due is all that happens to the collector then. -/
theorem collector_fireReports (p : Pool C) :
    p.fireReports.shared.collector = (p.shared.collector.fire p.shared.clock).1 := by
  rw [fireReports_eq]
  rfl

/-- Stopping a pool does nothing to its collector, which goes on until the run is over. -/
theorem collector_stop (s : Shared C) (worker : Option String) : (s.stop worker).collector = s.collector := by
  unfold Shared.stop
  split <;> rfl

/-- What a request leaves in the transcript is what the collector counts of it. -/
theorem counters?_answer (s : Shared C) (worker : Option String) (time : Nat) (request : Request C)
    (answer : request.Answer) {c : Counters} (counts : s.collector.counters? = some c) :
    (s.answer worker request).2.collector.counters? =
      some (c.recordAll (recordings [⟨time, .asked request answer⟩])) := by
  cases request with
  | record metric =>
    refine (s.collector.counters?_record metric).trans ?_
    rw [counts]
    rfl
  | client request =>
    cases request with
    | stop => exact (congrArg (·.counters?) (collector_stop s worker)).trans counts
    | cancel token => cases token <;> exact counts
    | update | note => exact counts
  | now | enter | ended | log | registered | register | tally | escalate => exact counts

/-- Nothing that the owner does is counted; starting a run only sets the time since which it is counted. -/
theorem OwnerActs.counters?_eq (acts : p.OwnerActs q) {c : Counters}
    (counts : p.shared.collector.counters? = some c) :
    ∃ since, q.shared.collector.counters? = some { c with since } := by
  cases acts with
  | start started =>
    obtain rfl := start_eq started
    rw [collector_opened, Collector.counters?_start, counts]
    exact ⟨_, rfl⟩
  | stop => exact ⟨c.since, by rw [Pool.stop, collector_stop, counts]⟩
  | cancelParent | addHooks | update | takeErrors | dropErrors | readErrors => exact ⟨c.since, counts⟩
  | receiveError =>
    refine ⟨c.since, ?_⟩
    unfold Pool.receiveError
    split <;> exact counts

/-- A thread changes what is counted by what it tells the collector, and by nothing else. -/
theorem counters?_acts {w : Worker C} {thread thread' : Thread C} {s s' : Shared C}
    {steps : List (Step C)} (acts : thread.Acts w s steps thread' s') {c : Counters}
    (counts : s.collector.counters? = some c) :
    s'.collector.counters? = some (c.recordAll (recordings steps)) := by
  cases acts with
  | ask request next => exact counters?_answer s (some w.id) s.clock request _ counts
  | skip | notice | elapse | wake | sleep | proceed | leave | crash => exact counts

/-- So each step of a pool makes of the counters what its recordings make of them. -/
theorem Acts.counters?_eq (acts : p.Acts more q) {c : Counters}
    (counts : p.shared.collector.counters? = some c) :
    ∃ since, q.shared.collector.counters? =
      some { c.recordAll (recordings (more.map (·.2))) with since } := by
  cases acts with
  | owner acts => exact acts.counters?_eq counts
  | report => exact ⟨c.since, by rw [collector_fireReports, Collector.counters?_fire, counts]; rfl⟩
  | conclude finished =>
    refine ⟨c.since, ?_⟩
    rw [Pool.conclude, if_pos finished, collector_closed, Collector.counters?_stop, counts]
    rfl
  | tick => exact ⟨c.since, counts⟩
  | @work n _ _ s steps at_n acts =>
    refine ⟨(c.recordAll (recordings steps)).since, ?_⟩
    rw [List.map_map, show (fun event : Nat × Step C => event.2) ∘ (n, ·) = id from rfl, List.map_id]
    exact counters?_acts acts counts

/-- A collector that counts has recorded everything that the workers told it, and nothing else. -/
theorem Runs.counters?_eq (runs : p.Runs events q) {c : Counters}
    (counts : p.shared.collector.counters? = some c) :
    ∃ since, q.shared.collector.counters? =
      some { c.recordAll (recordings (events.map (·.2))) with since } := by
  induction runs with
  | refl => exact ⟨c.since, counts⟩
  | @snoc events more _ _ _ acts ih =>
    obtain ⟨since, before⟩ := ih
    obtain ⟨later, after⟩ := acts.counters?_eq before
    refine ⟨later, ?_⟩
    rw [after, Counters.recordAll_withSince, List.map_append, recordings_append, Counters.recordAll_append]

/-- There are no events but those of the workers that the pool has. -/
theorem Runs.index_lt (b : PoolBuilder C) (state : C.State) (runs : (build b state).Runs events p) :
    ∀ event ∈ events, event.1 < b.plan.workers := by
  induction runs with
  | refl => exact List.forall_mem_nil _
  | snoc runs acts ih =>
    intro event mem
    rcases List.mem_append.mp mem with mem | mem
    · exact ih event mem
    · cases acts with
      | owner | report | conclude | tick => cases mem
      | work at_n _ =>
        obtain ⟨_, _, rfl⟩ := List.mem_map.mp mem
        exact (runs_at b state runs at_n).1

/-- After any run of a pool, its collector has counted what the workers told it. -/
theorem runs_counters (b : PoolBuilder C) (state : C.State) (runs : (build b state).Runs events p)
    {counters : Counters} (counts : b.collector.counters? = some counters) :
    ∃ c, p.shared.collector.counters? = some c ∧ ∀ kind, c.count kind =
      counters.count kind + ∑ n ∈ Finset.range b.plan.workers, told kind (history n events) := by
  obtain ⟨since, counts'⟩ := runs.counters?_eq (p := build b state) counts
  refine ⟨_, counts', fun kind => ?_⟩
  calc (counters.recordAll (recordings (events.map (·.2)))).count kind
      = counters.count kind + told kind (events.map (·.2)) := by
        rw [Counters.count_recordAll, told_eq_countP]
    _ = counters.count kind + ∑ n ∈ Finset.range b.plan.workers, told kind (history n events) :=
        congrArg _ (countMarks_eq_sum _ (runs.index_lt b state))

/-- Counters that began at zero have counted nothing more often than there were steps. -/
theorem count_le_length (b : PoolBuilder C) (state : C.State) (runs : (build b state).Runs events p) {c : Counters}
    (count : ∀ kind, c.count kind = ∑ n ∈ Finset.range b.plan.workers, told kind (history n events))
    (kind : MetricKind) : c.count kind ≤ events.length := by
  calc c.count kind
      = told kind (events.map (·.2)) :=
        (count kind).trans (countMarks_eq_sum _ (runs.index_lt b state)).symm
    _ ≤ (events.map (·.2)).length := told_le_length kind _
    _ = events.length := List.length_map _

end Pool

end WorkerPool
