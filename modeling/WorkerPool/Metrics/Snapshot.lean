import WorkerPool.Duration

/-!
# What a collector is told, and what it shows

A `Metric` is one recording. A `MetricsSnapshot` is everything a collector knows at one moment: its
counters and the figures worked out from them. Rates are percentages, throughput is the number of
terminal tasks per second of uptime, and a figure whose denominator is zero is zero.
-/

namespace WorkerPool

/-- One recording, with the worker or the attempt it is about. -/
inductive Metric where
  | workerStarted (worker : String)
  | workerStopped (worker : String)
  | workerPanicked (worker : String)
  | taskCheckedOut (worker : String)
  | taskCompleted (worker : String) (duration : Duration)
  | taskFailed (worker : String) (duration : Duration)
  | checkoutError (worker : String)
  | retryAttempt (attempt : Nat)
  | retrySuccess (attempts : Nat)
  | retryExhausted (attempts : Nat)
deriving DecidableEq, Repr

/-- Everything a collector knows at one moment. -/
structure MetricsSnapshot where
  workersStarted : Nat := 0
  workersStopped : Nat := 0
  workersActive : Nat := 0
  workerPanics : Nat := 0
  tasksCheckedOut : Nat := 0
  tasksCompleted : Nat := 0
  tasksFailed : Nat := 0
  tasksInProgress : Nat := 0
  checkoutErrors : Nat := 0
  retryAttempts : Nat := 0
  retrySuccesses : Nat := 0
  retriesExhausted : Nat := 0
  retryRate : Float := 0.0
  totalDuration : Duration := .zero
  averageDuration : Duration := .zero
  minDuration : Duration := .zero
  maxDuration : Duration := .zero
  throughputPerSecond : Float := 0.0
  errorRate : Float := 0.0
  uptime : Duration := .zero

/-- Tasks that were completed or failed. -/
def MetricsSnapshot.tasksProcessed (s : MetricsSnapshot) : Nat :=
  s.tasksCompleted + s.tasksFailed

/-- A count as a floating-point number. -/
def countToFloat (n : Nat) : Float :=
  n.toUInt64.toFloat

/-- The percentage of `part` in `whole`, zero for an empty whole. -/
def percentage (part whole : Nat) : Float :=
  if whole = 0 then 0.0 else countToFloat part / countToFloat whole * 100.0

end WorkerPool
