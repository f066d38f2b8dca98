import Mathlib.Logic.Function.Iterate
import WorkerPool.Proofs.Chronicles

/-!
# Two ways to plan a pool

What no pool can work with is replaced twice: on milliseconds, when a configuration is normalized, and on
durations, when a builder plans its pool. `PoolBuilder.coerced` is what a plan makes of its builder, as a
builder again, so that planning from it changes nothing (`plan_coerced`). To normalize a configuration and to
write its fields into a builder comes to the same as to write them as they are and to coerce the builder
(`asWritten_normalized`): the two rules are one rule.

It follows that a configuration makes one pool, whichever way it is made, and however often it is normalized on
the way (`config_makes_one_pool`). Which pool that is, `Pool.Follows` says of the configuration's own numbers.
-/

namespace WorkerPool

namespace Duration

/-- So many milliseconds last that many million nanoseconds, if a word holds their number. -/
theorem toNanos_ofMillis (ms : UInt64) : (ofMillis ms.toNat).toNanos = ms.toNat * nanosPerMilli := by
  have fits := ms.toNat_lt
  rw [ofMillis, toNanos_ofPartsSaturating]
  simp only [toNanos, longest, nanosPerSecond, nanosPerMilli]
  omega

/-- Only zero milliseconds are a duration of zero. -/
theorem ofMillis_eq_zero_iff {ms : UInt64} : ofMillis ms.toNat = .zero ↔ ms = 0 := by
  constructor
  · intro none
    have nanos := toNanos_ofMillis ms
    rw [none, toNanos_zero, nanosPerMilli] at nanos
    exact UInt64.toNat_inj.mp (by simp; omega)
  · rintro rfl
    decide

/-- Replacing no time at all by a default is the same on milliseconds and on durations. -/
theorem ofMillis_nonZeroOr (ms default : UInt64) :
    ofMillis (PoolConfig.nonZeroOr ms default).toNat = (ofMillis ms.toNat).nonZeroOr default := by
  unfold PoolConfig.nonZeroOr nonZeroOr
  by_cases none : ms = 0
  · rw [if_pos none, if_pos (isZero_iff.mpr (ofMillis_eq_zero_iff.mpr none))]
  · have some : ¬ (ofMillis ms.toNat).isZero = true := fun h => none (ofMillis_eq_zero_iff.mp (isZero_iff.mp h))
    rw [if_neg none, if_neg some]

/-- A duration that is not zero is kept. -/
theorem nonZeroOr_of_ne_zero {d : Duration} (some : d ≠ .zero) (default : UInt64) : d.nonZeroOr default = d :=
  if_neg (mt isZero_iff.mp some)

/-- A number of milliseconds of which zero stands for a default, as nanoseconds. -/
theorem toNanos_nonZeroOr (ms default : UInt64) :
    ((ofMillis ms.toNat).nonZeroOr default).toNanos =
      (if ms = 0 then default.toNat else ms.toNat) * nanosPerMilli := by
  rw [← ofMillis_nonZeroOr, toNanos_ofMillis, PoolConfig.nonZeroOr, apply_ite UInt64.toNat]

/-- What was replaced need not be replaced again. -/
theorem nonZeroOr_nonZeroOr (d : Duration) (default : UInt64) (some : ofMillis default.toNat ≠ .zero) :
    (d.nonZeroOr default).nonZeroOr default = d.nonZeroOr default :=
  nonZeroOr_of_ne_zero (d.nonZeroOr_ne_zero some) default

end Duration

/-- A policy makes at least one attempt, whatever number it is given. -/
theorem RetryPolicy.new_max (maxAttempts : Nat) (baseDelay : Duration) :
    new (max maxAttempts 1) baseDelay = new maxAttempts baseDelay := by
  simp [new]

namespace PoolConfig

theorem toNat_max_one (n : UInt64) : (max n 1).toNat = max n.toNat 1 :=
  (apply_ite UInt64.toNat ..).trans (Nat.max_def ..).symm

theorem toNat_max_one₃₂ (n : UInt32) : (max n 1).toNat = max n.toNat 1 :=
  (apply_ite UInt32.toNat ..).trans (Nat.max_def ..).symm

end PoolConfig

variable {C : Client}

namespace PoolBuilder

/-- A builder with every value that no pool can work with replaced. -/
def coerced (b : PoolBuilder C) : PoolBuilder C :=
  { b with
    workers := max b.workers 1
    pollInterval := b.pollInterval.nonZeroOr defaultPollMillis
    idleInterval := b.idleInterval.nonZeroOr defaultIdleMillis
    maxRetries := max b.maxRetries 1
    retryBaseDelay := b.retryBaseDelay.nonZeroOr defaultRetryBaseMillis }

/-- A plan coerces its builder, which makes no difference to a coerced one. -/
theorem plan_coerced (b : PoolBuilder C) : b.coerced.plan = b.plan := by
  have poll := b.pollInterval.nonZeroOr_nonZeroOr defaultPollMillis (by decide)
  have idle := b.idleInterval.nonZeroOr_nonZeroOr defaultIdleMillis (by decide)
  have delay := b.retryBaseDelay.nonZeroOr_nonZeroOr defaultRetryBaseMillis (by decide)
  simp only [plan, coerced, poll, idle, delay, RetryPolicy.new_max, Nat.max_assoc, Nat.max_self]

/-- A builder into which the fields of a configuration were written as they are, with the collector that the
configuration asks for; made at millisecond `now`. -/
def asWritten (config : PoolConfig) (processor : Processor C) (now : Nat) : PoolBuilder C where
  name := config.name
  processor := processor
  workers := config.numWorkers.toNat
  pollInterval := config.pollInterval
  idleInterval := config.idleInterval
  maxRetries := config.maxRetries.toNat
  retryBaseDelay := config.retryBaseDelay
  collector := config.metrics.build config.name now

/-- Normalizing a configuration is coercing its builder. -/
theorem asWritten_normalized (config : PoolConfig) (processor : Processor C) (now : Nat) :
    asWritten config.normalized processor now = (asWritten config processor now).coerced := by
  simp only [asWritten, coerced, PoolConfig.normalized, PoolConfig.pollInterval, PoolConfig.idleInterval,
    PoolConfig.retryBaseDelay, PoolConfig.toNat_max_one, PoolConfig.toNat_max_one₃₂, Duration.ofMillis_nonZeroOr]

end PoolBuilder

namespace Pool

/-- A pool as a configuration asks for it. A zero asks for one worker or one attempt, or for the default wait. -/
structure Follows (p : Pool C) (config : PoolConfig) (processor : Processor C) (now : Nat) : Prop where
  name : p.plan.name = config.name
  announced : p.shared.pool = config.name
  workers : p.plan.workers = max config.numWorkers.toNat 1
  /-- The escalation channel holds one entry for each worker. -/
  capacity : p.shared.channel.capacity = max config.numWorkers.toNat 1
  active : p.plan.schedule.active.toNanos =
    (if config.pollIntervalMs = 0 then 100 else config.pollIntervalMs.toNat) * nanosPerMilli
  idle : p.plan.schedule.idle.toNanos =
    (if config.idleIntervalMs = 0 then 5000 else config.idleIntervalMs.toNat) * nanosPerMilli
  processor : p.plan.iteration.processor = processor
  attempts : p.plan.iteration.retry.maxAttempts = max config.maxRetries.toNat 1
  baseDelay : p.plan.iteration.retry.baseDelay.toNanos =
    (if config.retryBaseDelayMs = 0 then 1000 else config.retryBaseDelayMs.toNat) * nanosPerMilli
  layers : p.plan.layers = []
  span : p.plan.customSpan = false
  collector : p.shared.collector = config.metrics.build config.name now

variable (config : PoolConfig) (processor : Processor C) (now : Nat) (state : C.State)

/-- A builder whose values have been replaced already builds the same pool: building replaces them in the same
way. -/
theorem build_coerced (b : PoolBuilder C) : build b.coerced state = build b state := by
  unfold build
  rw [b.plan_coerced]
  rfl

/-- A pool from the fields as they are written is what the configuration asks for. -/
theorem follows_asWritten : (build (.asWritten config processor now) state).Follows config processor now where
  name := rfl
  announced := rfl
  workers := rfl
  capacity := rfl
  active := Duration.toNanos_nonZeroOr config.pollIntervalMs defaultPollMillis
  idle := Duration.toNanos_nonZeroOr config.idleIntervalMs defaultIdleMillis
  processor := rfl
  attempts := rfl
  baseDelay := Duration.toNanos_nonZeroOr config.retryBaseDelayMs defaultRetryBaseMillis
  layers := rfl
  span := rfl
  collector := rfl

/-- Normalizing a configuration, however often, makes no difference to the pool. -/
theorem build_normalized (k : Nat) :
    build (.asWritten (PoolConfig.normalized^[k] config) processor now) state =
      build (.asWritten config processor now) state := by
  induction k generalizing config with
  | zero => rfl
  | succ k ih =>
    rw [Function.iterate_succ_apply, ih, PoolBuilder.asWritten_normalized, build_coerced]

/-- A configuration makes one pool, and that is the pool it asks for. Normalized any number of times, not at all
included, it makes the same pool if it is taken as a configuration as if its fields are written into a builder as
they are, and so whatever happens may happen to the one as well as to the other. -/
theorem config_makes_one_pool :
    (build (.ofConfig config processor now) state).Follows config processor now ∧
    ∀ k : Nat,
      build (.ofConfig (PoolConfig.normalized^[k] config) processor now) state =
        build (.ofConfig config processor now) state ∧
      build (.asWritten (PoolConfig.normalized^[k] config) processor now) state =
        build (.ofConfig config processor now) state ∧
      ∀ (story : List (Occurrence C)) (p : Pool C),
        (build (.asWritten (PoolConfig.normalized^[k] config) processor now) state).Chronicle story p ↔
          (build (.ofConfig config processor now) state).Chronicle story p := by
  -- A configuration is normalized once before its fields are written.
  have written (k : Nat) : build (.ofConfig (PoolConfig.normalized^[k] config) processor now) state =
      build (.asWritten config processor now) state := by
    rw [← build_normalized config processor now state (k + 1), Function.iterate_succ_apply']
    rfl
  have once : build (.ofConfig config processor now) state = build (.asWritten config processor now) state :=
    written 0
  rw [once]
  refine ⟨follows_asWritten config processor now state, fun k => ⟨written k, ?_, fun story p => ?_⟩⟩
  · exact build_normalized config processor now state k
  · rw [build_normalized]

end Pool

end WorkerPool
