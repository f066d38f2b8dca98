import WorkerPool.Config
import WorkerPool.Iteration
import WorkerPool.Layer
import WorkerPool.Worker

/-!
# Planning a pool

A `PoolBuilder` holds what a pool is asked to be, a `PoolPlan` what it will be. `PoolBuilder.plan`
replaces what no pool can work with, so that a plan has at least one worker, makes at least one
attempt and never waits for no time at all between two iterations. `PoolPlan.ofConfig` plans from a
configuration.
-/

namespace WorkerPool

/-- What a pool is asked to be. -/
structure PoolBuilder (C : Client) where
  name : String
  processor : Processor C
  workers : Nat := by exact Machine.processors.toNat
  pollInterval : Duration := .ofMillis defaultPollMillis.toNat
  idleInterval : Duration := .ofMillis defaultIdleMillis.toNat
  maxRetries : Nat := defaultMaxRetries.toNat
  retryBaseDelay : Duration := .ofMillis defaultRetryBaseMillis.toNat
  /-- Whether the owner chose the parent of the workers' spans. -/
  customSpan : Bool := false
  /-- The layers around the work, the first outermost. -/
  layers : List (Layer C) := []
  collector : Collector := .discarding

/-- What a pool is. -/
structure PoolPlan (C : Client) where
  name : String
  workers : Nat
  schedule : PollSchedule
  iteration : Iteration C
  layers : List (Layer C)
  customSpan : Bool
  workers_pos : 0 < workers
  active_ne_zero : schedule.active ≠ .zero
  idle_ne_zero : schedule.idle ≠ .zero

/-- A duration, or that many milliseconds if it is no time at all. -/
def Duration.nonZeroOr (d : Duration) (default : UInt64) : Duration :=
  if d.isZero then .ofMillis default.toNat else d

/-- Replacing no time at all by a default that takes time leaves some time. -/
theorem Duration.nonZeroOr_ne_zero (d : Duration) {default : UInt64}
    (h : Duration.ofMillis default.toNat ≠ .zero) : d.nonZeroOr default ≠ .zero := by
  unfold nonZeroOr
  split
  · exact h
  · next notZero => exact fun zero => notZero (isZero_iff.mpr zero)

variable {C : Client}

namespace PoolBuilder

/-- The pool that comes of what is asked. -/
def plan (b : PoolBuilder C) : PoolPlan C where
  name := b.name
  workers := max b.workers 1
  schedule := {
    active := b.pollInterval.nonZeroOr defaultPollMillis
    idle := b.idleInterval.nonZeroOr defaultIdleMillis }
  iteration := {
    processor := b.processor
    retry := .new b.maxRetries (b.retryBaseDelay.nonZeroOr defaultRetryBaseMillis) }
  layers := b.layers
  customSpan := b.customSpan
  workers_pos := by omega
  active_ne_zero := Duration.nonZeroOr_ne_zero _ (by decide)
  idle_ne_zero := Duration.nonZeroOr_ne_zero _ (by decide)

/-- What a pool of that many workers with default settings is asked to be. -/
def new (name : String) (workers : Nat) (processor : Processor C) : PoolBuilder C :=
  { name, workers, processor }

/-- What a configuration asks for, which is normalized first; made at millisecond `now`. -/
def ofConfig (config : PoolConfig) (processor : Processor C) (now : Nat) : PoolBuilder C :=
  let c := config.normalized
  { name := c.name
    processor
    workers := c.numWorkers.toNat
    pollInterval := c.pollInterval
    idleInterval := c.idleInterval
    maxRetries := c.maxRetries.toNat
    retryBaseDelay := c.retryBaseDelay
    collector := c.metrics.build c.name now }

end PoolBuilder

namespace PoolPlan

/-- The work of a worker: an iteration within the layers. -/
def work (plan : PoolPlan C) : Work C :=
  Layer.compose plan.layers plan.iteration.work

/-- The worker with that number, the first of which is 1. -/
def worker (plan : PoolPlan C) (n : Nat) : Worker C where
  id := plan.name ++ "-worker-" ++ toString n
  schedule := plan.schedule
  work := plan.work

/-- All workers. -/
def crew (plan : PoolPlan C) : List (Worker C) :=
  (List.range plan.workers).map fun n => plan.worker (n + 1)

end PoolPlan

end WorkerPool
