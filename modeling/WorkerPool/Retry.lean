import WorkerPool.Code

/-!
# Retrying

A `RetryPolicy` says how often an operation is attempted and how long to wait in between: nothing
before the first attempt, the base delay before the second, and twice as long before each further
one. `RetryPolicy.run` attempts an operation until it succeeds or the attempts are used up; the wait
between two attempts ends early when the token is cancelled. Panics pass through it.
-/

namespace WorkerPool

/-- How often an operation is attempted, and the delay before the second attempt. -/
structure RetryPolicy where
  maxAttempts : Nat
  baseDelay : Duration
  maxAttempts_pos : 0 < maxAttempts
deriving DecidableEq, Repr

namespace RetryPolicy

/-- The policy of that many attempts, of one if there are none. -/
def new (maxAttempts : Nat) (baseDelay : Duration) : RetryPolicy where
  maxAttempts := max maxAttempts 1
  baseDelay := baseDelay
  maxAttempts_pos := by omega

/-- How often the base delay is doubled before an attempt after the first: once for each attempt
since the second, and at most 31 times. -/
def doublings (attempt : Nat) : Nat :=
  min (attempt - 2) 31

/-- The wait before an attempt, the first of which has the number 1. -/
def delayFor (policy : RetryPolicy) (attempt : Nat) : Duration :=
  if attempt ≤ 1 then .zero else policy.baseDelay.saturatingMul (1 <<< doublings attempt)

variable {C : Client} {α : Type}

/-- Make an attempt that at most `left` further ones may follow. -/
def runFrom (policy : RetryPolicy) (operation : Nat → Code C (PoolResult α)) :
    (attempt left : Nat) → Code C (PoolResult α)
  | attempt, left => do
    match ← operation attempt with
    | .ok value =>
      if 1 < attempt then
        Code.log .debug "Task succeeded after retry" [("attempt", .number attempt)]
        Code.record (.retrySuccess attempt)
      return .ok value
    | .error e =>
      Code.log .debug "Attempt failed" [
        ("attempt", .number attempt),
        ("max_attempts", .number policy.maxAttempts),
        ("error", .text e.message)]
      match left with
      | 0 =>
        if 1 < policy.maxAttempts then
          Code.record (.retryExhausted policy.maxAttempts)
        return .error (.retriesExhausted policy.maxAttempts e)
      | left + 1 =>
        let delay := policy.delayFor (attempt + 1)
        Code.log .debug "Backing off before next attempt" [
          ("attempt", .number (attempt + 1)),
          ("delay_ms", .number (delay.toMillis % UInt64.size))]
        match ← Program.sleepUnlessCancelled delay.ceilMillis with
        | .cancelled => return .error .cancelled
        | .elapsed =>
          Code.record (.retryAttempt (attempt + 1))
          policy.runFrom operation (attempt + 1) left
  termination_by structural _ left => left

/-- Attempt an operation until it succeeds or the attempts are used up. -/
def run (policy : RetryPolicy) (operation : Nat → Code C (PoolResult α)) : Code C (PoolResult α) :=
  policy.runFrom operation 1 (policy.maxAttempts - 1)

/-- From the second attempt on, the delay is the base delay doubled as often as `doublings` says, up to the
longest duration. -/
theorem toNanos_delayFor (policy : RetryPolicy) {attempt : Nat} (h : 1 < attempt) :
    (policy.delayFor attempt).toNanos =
      min (policy.baseDelay.toNanos * (1 <<< doublings attempt)) Duration.longest.toNanos := by
  rw [delayFor, if_neg (by omega), Duration.toNanos_saturatingMul]

end RetryPolicy

end WorkerPool
