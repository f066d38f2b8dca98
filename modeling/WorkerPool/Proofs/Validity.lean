import WorkerPool.Proofs.Planning

/-!
# Validity and normal form

`PoolConfig.validate` lists what is wrong with a configuration, and `PoolConfig.normalized` replaces what no pool can
work with. Each of them has its own list of what is out of range. The two lists are compared here.

A configuration is in normal form just if none of its complaints is about a zero and the delay before the second
attempt is not zero (`normalized_eq_self_iff`): among the numbers that are replaced at zero, that delay is the one that
no complaint is about. So a valid configuration may still have its delay replaced, and nothing else
(`normalized_of_valid`).

What was normalized is in normal form (`normalized_normalized`). To replace a zero clears the complaint about it, and
leaves every other complaint about one number as it was (`has_normalized`). Each of the two intervals is replaced
without a look at the one that it is then compared with, so the complaint about both may be new
(`normalized_idleBelowPoll_iff`, `validate_normalized`).
-/

namespace WorkerPool

/-- Whether the flaw is that a number is zero. -/
def ConfigFlaw.isZero : ConfigFlaw → Bool
  | noWorkers | noRetries | zeroInterval => true
  | blankName | tooManyWorkers | idleBelowPoll | reportsWithoutLogging => false

/-- A pool with the settings of a configuration as they are written, and with the given delay before a second attempt.
-/
structure Pool.Keeps {C : Client} (p : Pool C) (config : PoolConfig) (processor : Processor C) (now : Nat)
    (delay : Duration) : Prop where
  name : p.plan.name = config.name
  announced : p.shared.pool = config.name
  workers : p.plan.workers = config.numWorkers.toNat
  /-- The escalation channel holds one entry for each worker. -/
  capacity : p.shared.channel.capacity = config.numWorkers.toNat
  schedule : p.plan.schedule = { active := config.pollInterval, idle := config.idleInterval }
  processor : p.plan.iteration.processor = processor
  attempts : p.plan.iteration.retry.maxAttempts = config.maxRetries.toNat
  baseDelay : p.plan.iteration.retry.baseDelay = delay
  layers : p.plan.layers = []
  collector : p.shared.collector = config.metrics.build config.name now

namespace PoolConfig

/-- A value is kept just when it is not zero. -/
theorem nonZeroOr_eq_self_iff {default : UInt64} (some : default ≠ 0) (value : UInt64) :
    nonZeroOr value default = value ↔ value ≠ 0 := by
  unfold nonZeroOr
  by_cases zero : value = 0
  · subst zero
    rw [if_pos rfl]
    exact ⟨fun same => absurd same some, fun other => absurd rfl other⟩
  · rw [if_neg zero]
    exact ⟨fun _ => zero, fun _ => rfl⟩

/-- A default that is not zero keeps zero away. -/
theorem nonZeroOr_ne_zero {default : UInt64} (some : default ≠ 0) (value : UInt64) :
    nonZeroOr value default ≠ 0 := by
  unfold nonZeroOr
  by_cases zero : value = 0
  · rwa [if_pos zero]
  · rwa [if_neg zero]

theorem max_one_eq_self_iff {n : UInt64} : max n 1 = n ↔ n ≠ 0 := by
  rw [← UInt64.toNat_inj, toNat_max_one, Ne, ← UInt64.toNat_inj, UInt64.toNat_zero]
  omega

theorem max_one_eq_self_iff₃₂ {n : UInt32} : max n 1 = n ↔ n ≠ 0 := by
  rw [← UInt32.toNat_inj, toNat_max_one₃₂, Ne, ← UInt32.toNat_inj, UInt32.toNat_zero]
  omega

theorem max_one_ne_zero (n : UInt64) : max n 1 ≠ 0 := by
  rw [Ne, ← UInt64.toNat_inj, toNat_max_one, UInt64.toNat_zero]
  omega

theorem max_one_ne_zero₃₂ (n : UInt32) : max n 1 ≠ 0 := by
  rw [Ne, ← UInt32.toNat_inj, toNat_max_one₃₂, UInt32.toNat_zero]
  omega

/-- If all complaints or none are about zeros, the flaws of the other kind are not there. -/
theorem has_eq_false {c : PoolConfig} {zero : Bool} (all : ∀ flaw ∈ c.validate, flaw.isZero = zero)
    {flaw : ConfigFlaw} (other : flaw.isZero ≠ zero) : c.has flaw = false :=
  Bool.eq_false_iff.mpr fun found => other (all flaw (mem_validate.mpr found))

variable (c : PoolConfig)

/-- A configuration is in normal form just if none of the numbers that are replaced at zero is zero. -/
theorem normalized_eq_self_iff_ne_zero :
    c.normalized = c ↔
      c.numWorkers ≠ 0 ∧ c.pollIntervalMs ≠ 0 ∧ c.idleIntervalMs ≠ 0 ∧ c.maxRetries ≠ 0 ∧ c.retryBaseDelayMs ≠ 0 := by
  have poll := nonZeroOr_eq_self_iff (show defaultPollMillis ≠ 0 by decide) c.pollIntervalMs
  have idle := nonZeroOr_eq_self_iff (show defaultIdleMillis ≠ 0 by decide) c.idleIntervalMs
  have delay := nonZeroOr_eq_self_iff (show defaultRetryBaseMillis ≠ 0 by decide) c.retryBaseDelayMs
  rw [← max_one_eq_self_iff, ← max_one_eq_self_iff₃₂, ← poll, ← idle, ← delay]
  cases c
  simp only [normalized, PoolConfig.mk.injEq, true_and, and_true]

/-- What was normalized is in normal form. -/
theorem normalized_normalized : c.normalized.normalized = c.normalized := by
  refine c.normalized.normalized_eq_self_iff_ne_zero.mpr ⟨max_one_ne_zero _, ?_, ?_, max_one_ne_zero₃₂ _, ?_⟩
  · exact nonZeroOr_ne_zero (show defaultPollMillis ≠ 0 by decide) _
  · exact nonZeroOr_ne_zero (show defaultIdleMillis ≠ 0 by decide) _
  · exact nonZeroOr_ne_zero (show defaultRetryBaseMillis ≠ 0 by decide) _

/-- What the complaints about zeros leave out is the delay. -/
theorem noZeros_iff :
    (∀ flaw ∈ c.validate, flaw.isZero = false) ↔
      c.numWorkers ≠ 0 ∧ c.pollIntervalMs ≠ 0 ∧ c.idleIntervalMs ≠ 0 ∧ c.maxRetries ≠ 0 := by
  constructor
  · intro none
    have workers : c.has .noWorkers = false := has_eq_false none (by decide)
    have retries : c.has .noRetries = false := has_eq_false none (by decide)
    have intervals : c.has .zeroInterval = false := has_eq_false none (by decide)
    simp only [has, decide_eq_false_iff_not, Bool.or_eq_false_iff] at workers retries intervals
    exact ⟨workers, intervals.1, intervals.2, retries⟩
  · rintro ⟨workers, poll, idle, retries⟩ flaw listed
    have found := mem_validate.mp listed
    cases flaw with
    | noWorkers => exact absurd (of_decide_eq_true found) workers
    | noRetries => exact absurd (of_decide_eq_true found) retries
    | zeroInterval =>
      simp only [has, Bool.or_eq_true, decide_eq_true_eq] at found
      exact absurd found (not_or.mpr ⟨poll, idle⟩)
    | blankName | tooManyWorkers | idleBelowPoll | reportsWithoutLogging => rfl

/-- A configuration is in normal form just if none of its complaints is about a zero and its delay is not zero. -/
theorem normalized_eq_self_iff :
    c.normalized = c ↔ (∀ flaw ∈ c.validate, flaw.isZero = false) ∧ c.retryBaseDelayMs ≠ 0 := by
  rw [normalized_eq_self_iff_ne_zero, noZeros_iff]
  simp only [and_assoc]

/-- A pool from a configuration without zeros keeps its settings, but for a delay of zero, for which it takes a
second. -/
theorem keeps_of_noZeros (none : ∀ flaw ∈ c.validate, flaw.isZero = false) {C : Client} (processor : Processor C)
    (now : Nat) (state : C.State) :
    (Pool.build (.ofConfig c processor now) state).Keeps c processor now
      (if c.retryBaseDelayMs = 0 then .ofMillis 1000 else c.retryBaseDelay) := by
  obtain ⟨workers, poll, idle, retries⟩ := c.noZeros_iff.mp none
  have workersPos : c.numWorkers.toNat ≠ 0 := fun zero => workers (UInt64.toNat_inj.mp zero)
  have retriesPos : c.maxRetries.toNat ≠ 0 := fun zero => retries (UInt32.toNat_inj.mp zero)
  have active : c.pollInterval.nonZeroOr defaultPollMillis = c.pollInterval :=
    Duration.nonZeroOr_of_ne_zero (mt Duration.ofMillis_eq_zero_iff.mp poll) defaultPollMillis
  have rest : c.idleInterval.nonZeroOr defaultIdleMillis = c.idleInterval :=
    Duration.nonZeroOr_of_ne_zero (mt Duration.ofMillis_eq_zero_iff.mp idle) defaultIdleMillis
  have written : Pool.build (.ofConfig c processor now) state = Pool.build (.asWritten c processor now) state :=
    Pool.build_normalized c processor now state 1
  rw [written]
  refine ⟨rfl, rfl, ?_, ?_, ?_, rfl, ?_, ?_, rfl, rfl⟩
  · show max c.numWorkers.toNat 1 = c.numWorkers.toNat
    omega
  · show max c.numWorkers.toNat 1 = c.numWorkers.toNat
    omega
  · exact congrArg₂ PollSchedule.mk active rest
  · show max c.maxRetries.toNat 1 = c.maxRetries.toNat
    omega
  · show c.retryBaseDelay.nonZeroOr defaultRetryBaseMillis = _
    rw [retryBaseDelay, ← Duration.ofMillis_nonZeroOr, nonZeroOr]
    by_cases zero : c.retryBaseDelayMs = 0
    · rw [if_pos zero, if_pos zero]
      rfl
    · rw [if_neg zero, if_neg zero]

/-- A valid configuration is normalized by replacing its delay if that is zero, and by nothing else, and a pool from it
keeps its settings but for that delay. So it is in normal form just if the delay is not zero. -/
theorem normalized_of_valid (valid : c.validate = []) :
    c.normalized = { c with retryBaseDelayMs := if c.retryBaseDelayMs = 0 then 1000 else c.retryBaseDelayMs } ∧
    (c.normalized = c ↔ c.retryBaseDelayMs ≠ 0) ∧
    ∀ (C : Client) (processor : Processor C) (now : Nat) (state : C.State),
      (Pool.build (.ofConfig c processor now) state).Keeps c processor now
        (if c.retryBaseDelayMs = 0 then .ofMillis 1000 else c.retryBaseDelay) := by
  have none : ∀ flaw ∈ c.validate, flaw.isZero = false := by
    rw [valid]
    exact fun flaw listed => nomatch listed
  refine ⟨?_, ?_, fun C processor now state => c.keeps_of_noZeros none processor now state⟩
  · -- With another delay the configuration would be in normal form, and the delay is replaced apart from the rest.
    have some : (1000 : UInt64) ≠ 0 := by decide
    have other : { c with retryBaseDelayMs := 1000 }.normalized = { c with retryBaseDelayMs := 1000 } :=
      (normalized_eq_self_iff _).mpr ⟨none, some⟩
    exact congrArg (fun d : PoolConfig => { d with retryBaseDelayMs := c.normalized.retryBaseDelayMs }) other
  · rw [normalized_eq_self_iff]
    exact and_iff_right none

/-- The default configuration with four workers and a delay of zero is valid, and it is changed by being normalized. -/
theorem normalized_of_valid_of_default :
    ({ numWorkers := 4, retryBaseDelayMs := 0 } : PoolConfig).validate = [] ∧
      ({ numWorkers := 4, retryBaseDelayMs := 0 } : PoolConfig).normalized ≠
        { numWorkers := 4, retryBaseDelayMs := 0 } := by
  have valid : ({ numWorkers := 4, retryBaseDelayMs := 0 } : PoolConfig).validate = [] := by decide
  exact ⟨valid, fun same => (normalized_of_valid _ valid).2.1.mp same rfl⟩

/-- To replace a zero clears the complaint about it, and leaves every other complaint about one number as it was. -/
theorem has_normalized {flaw : ConfigFlaw} (one : flaw ≠ .idleBelowPoll) :
    c.normalized.has flaw = (c.has flaw && !flaw.isZero) := by
  obtain ⟨noZeros, -⟩ := c.normalized.normalized_eq_self_iff.mp c.normalized_normalized
  cases zero : flaw.isZero with
  | true =>
    have gone : c.normalized.has flaw = false := has_eq_false noZeros (by rw [zero]; decide)
    rw [gone, Bool.not_true, Bool.and_false]
  | false =>
    rw [Bool.not_false, Bool.and_true]
    cases flaw with
    | blankName | reportsWithoutLogging => rfl
    | idleBelowPoll => exact absurd rfl one
    | noWorkers | noRetries | zeroInterval => cases zero
    | tooManyWorkers =>
      have same : max c.numWorkers 1 > 1000 ↔ c.numWorkers > 1000 := by
        rw [gt_iff_lt, gt_iff_lt, UInt64.lt_iff_toNat_lt, UInt64.lt_iff_toNat_lt, toNat_max_one]
        simp only [UInt64.reduceToNat]
        omega
      exact decide_eq_decide.mpr same

/-- After normalizing, the idle interval is the shorter one if it was so without either of them being zero, if it was
not zero and falls short of the default that the other one got, or if its own default falls short of the other one. -/
theorem normalized_idleBelowPoll_iff :
    c.normalized.has .idleBelowPoll = true ↔
      (if c.idleIntervalMs = 0 then 5000 else c.idleIntervalMs.toNat) <
        (if c.pollIntervalMs = 0 then 100 else c.pollIntervalMs.toNat) := by
  have idle : (nonZeroOr c.idleIntervalMs defaultIdleMillis).toNat =
      if c.idleIntervalMs = 0 then 5000 else c.idleIntervalMs.toNat := apply_ite UInt64.toNat ..
  have poll : (nonZeroOr c.pollIntervalMs defaultPollMillis).toNat =
      if c.pollIntervalMs = 0 then 100 else c.pollIntervalMs.toNat := apply_ite UInt64.toNat ..
  rw [← idle, ← poll, ← UInt64.lt_iff_toNat_lt]
  exact decide_eq_true_iff

/-- What is complained of if no flaw of one number is there. -/
theorem validate_of_one_clear (clear : ∀ flaw, flaw ≠ .idleBelowPoll → c.has flaw = false) :
    c.validate = if c.has .idleBelowPoll = true then [.idleBelowPoll] else [] := by
  unfold validate allFlaws
  simp [List.filter_cons, clear]

/-- If all complaints about a configuration are about zeros, one complaint at most remains when it is normalized: the
idle interval is too short if the other interval was zero and the idle interval is shorter than the default that
replaces it. -/
theorem validate_normalized (zeros : ∀ flaw ∈ c.validate, flaw.isZero = true) :
    c.normalized.validate =
      if c.pollIntervalMs = 0 ∧ c.idleIntervalMs ≠ 0 ∧ c.idleIntervalMs < defaultPollMillis then [.idleBelowPoll]
      else [] := by
  have rest : ∀ flaw, flaw ≠ .idleBelowPoll → c.normalized.has flaw = false := by
    intro flaw one
    rw [c.has_normalized one]
    cases zero : flaw.isZero with
    | false => rw [has_eq_false zeros (by rw [zero]; decide), Bool.false_and]
    | true => exact Bool.and_false _
  -- The idle interval is not the shorter one as it is given, so that it is zero only if both are.
  have long : c.has .idleBelowPoll = false := has_eq_false zeros (by decide)
  have ordered : ¬ c.idleIntervalMs < c.pollIntervalMs := of_decide_eq_false long
  have short : c.normalized.has .idleBelowPoll = true ↔
      c.pollIntervalMs = 0 ∧ c.idleIntervalMs ≠ 0 ∧ c.idleIntervalMs < defaultPollMillis := by
    rw [normalized_idleBelowPoll_iff, defaultPollMillis, UInt64.lt_iff_toNat_lt]
    rw [UInt64.lt_iff_toNat_lt] at ordered
    simp only [Ne, ← UInt64.toNat_inj, UInt64.toNat_zero, UInt64.reduceToNat]
    grind
  rw [c.normalized.validate_of_one_clear rest, if_congr short rfl rfl]

/-- Normalizing repairs zeros everywhere. It does not repair a zero poll interval beside an idle interval of 50 ms. -/
theorem validate_normalized_of_zeros :
    (({ numWorkers := 0, pollIntervalMs := 0, idleIntervalMs := 0, maxRetries := 0 } : PoolConfig).validate =
        [.noWorkers, .noRetries, .zeroInterval] ∧
      ({ numWorkers := 0, pollIntervalMs := 0, idleIntervalMs := 0, maxRetries := 0 } :
        PoolConfig).normalized.validate = []) ∧
    ({ numWorkers := 4, pollIntervalMs := 0, idleIntervalMs := 50 } : PoolConfig).validate = [.zeroInterval] ∧
      ({ numWorkers := 4, pollIntervalMs := 0, idleIntervalMs := 50 } : PoolConfig).normalized.validate =
        [.idleBelowPoll] :=
  ⟨⟨by decide, validate_normalized _ (by decide)⟩, by decide, validate_normalized _ (by decide)⟩

end PoolConfig

end WorkerPool
