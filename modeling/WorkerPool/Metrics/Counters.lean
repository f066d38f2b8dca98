import WorkerPool.Metrics.Snapshot

/-!
# Counting

The counters of the collector that keeps everything in memory. `Counters.record` is the effect of one
recording and `Counters.snapshot` the figures worked out at a moment of the clock.

Counts are natural numbers. None of them is ever more than the recordings that were made, so that for fewer
than `UInt64.size` recordings they are what counters of 64 bits show, and only after that would such counters
have wrapped around. The total of all durations is kept in nanoseconds in a 64-bit word: each duration is first
cut to the greatest word, and the sum wraps around.
-/

namespace WorkerPool

/-- What has been counted, and since which millisecond. The counts are exact; see the bound above on what a word
of 64 bits would hold of them. -/
structure Counters where
  workersStarted : Nat := 0
  workersStopped : Nat := 0
  workerPanics : Nat := 0
  tasksCheckedOut : Nat := 0
  tasksCompleted : Nat := 0
  tasksFailed : Nat := 0
  checkoutErrors : Nat := 0
  retryAttempts : Nat := 0
  retrySuccesses : Nat := 0
  retriesExhausted : Nat := 0
  totalNanos : UInt64 := 0
  shortest : Option Duration := none
  longest : Duration := .zero
  since : Nat := 0

namespace Counters

/-- Tasks that were completed or failed. -/
def tasksProcessed (c : Counters) : Nat :=
  c.tasksCompleted + c.tasksFailed

/-- A duration in nanoseconds as a word; one that does not fit is the greatest word. -/
def nanosWord (d : Duration) : UInt64 :=
  (min d.toNanos 18446744073709551615).toUInt64

/-- Add a duration to the total and to the extremes. -/
def addDuration (d : Duration) (c : Counters) : Counters :=
  { c with
    totalNanos := c.totalNanos + nanosWord d
    shortest := some ((c.shortest.map (·.min d)).getD d)
    longest := c.longest.max d }

/-- The effect of one recording. -/
def record (c : Counters) : Metric → Counters
  | .workerStarted _ => { c with workersStarted := c.workersStarted + 1 }
  | .workerStopped _ => { c with workersStopped := c.workersStopped + 1 }
  | .workerPanicked _ => { c with workerPanics := c.workerPanics + 1 }
  | .taskCheckedOut _ => { c with tasksCheckedOut := c.tasksCheckedOut + 1 }
  | .taskCompleted _ d => { c with tasksCompleted := c.tasksCompleted + 1 }.addDuration d
  | .taskFailed _ d => { c with tasksFailed := c.tasksFailed + 1 }.addDuration d
  | .checkoutError _ => { c with checkoutErrors := c.checkoutErrors + 1 }
  | .retryAttempt _ => { c with retryAttempts := c.retryAttempts + 1 }
  | .retrySuccess _ => { c with retrySuccesses := c.retrySuccesses + 1 }
  | .retryExhausted _ => { c with retriesExhausted := c.retriesExhausted + 1 }

/-- The mean duration in whole nanoseconds, zero if no task was processed. -/
def averageDuration (c : Counters) : Duration :=
  if c.tasksProcessed = 0 then .zero else .ofNanos (c.totalNanos.toNat / c.tasksProcessed)

/-- Everything known at millisecond `now`. -/
def snapshot (c : Counters) (now : Nat) : MetricsSnapshot :=
  let uptime := Duration.ofMillis (now - c.since)
  { workersStarted := c.workersStarted
    workersStopped := c.workersStopped
    workersActive := c.workersStarted - c.workersStopped
    workerPanics := c.workerPanics
    tasksCheckedOut := c.tasksCheckedOut
    tasksCompleted := c.tasksCompleted
    tasksFailed := c.tasksFailed
    tasksInProgress := c.tasksCheckedOut - c.tasksProcessed
    checkoutErrors := c.checkoutErrors
    retryAttempts := c.retryAttempts
    retrySuccesses := c.retrySuccesses
    retriesExhausted := c.retriesExhausted
    retryRate := percentage c.retryAttempts c.tasksCheckedOut
    totalDuration := .ofNanos c.totalNanos.toNat
    averageDuration := c.averageDuration
    minDuration := c.shortest.getD .zero
    maxDuration := c.longest
    throughputPerSecond :=
      if uptime.isZero then 0.0 else countToFloat c.tasksProcessed / uptime.toSecsFloat
    errorRate := percentage c.tasksFailed c.tasksProcessed
    uptime := uptime }

end Counters

end WorkerPool
