import WorkerPool.Code

/-!
# The loop of a worker

A worker waits, works once, and lets the outcome decide how long it waits next. Its loop is given
here as the programs it strings together: `Worker.opening` once, then `Worker.segment` after segment,
each from one wait to the next, until a segment closes the loop. A panic anywhere in the work is caught
by `Worker.iterate` and counts as an error.
-/

namespace WorkerPool

/-- What a worker is up to. -/
inductive WorkerState where
  /-- There was nothing to do last time. -/
  | idle
  /-- There was something to do last time. -/
  | active
  /-- A request to shut the pool down is being handed over. -/
  | shuttingDown
  /-- The loop is over. -/
  | terminated
deriving DecidableEq, Repr, Inhabited

namespace WorkerState

/-- The state as log lines show it. -/
def label : WorkerState → String
  | idle => "Idle"
  | active => "Active"
  | shuttingDown => "ShuttingDown"
  | terminated => "Terminated"

/-- The state after an error, which the error beneath any wrapping decides. -/
def afterError (error : PoolError) : WorkerState :=
  match error.innermost with
  | .noWork => idle
  | .workerShutdown _ | .cancelled => terminated
  | .poolShutdown _ => shuttingDown
  | _ => active

/-- The state after an iteration. -/
def after : PoolResult Unit → WorkerState
  | .ok () => active
  | .error e => afterError e

/-- Wrapping makes no difference to the state that an error leads to. -/
@[simp] theorem afterError_wrap (attempts : List Nat) (error : PoolError) :
    afterError (.wrap attempts error) = afterError error := by
  simp [afterError]

end WorkerState

/-- How long a worker waits between two iterations. -/
structure PollSchedule where
  /-- After an iteration that found work. -/
  active : Duration
  /-- After an iteration that found nothing. -/
  idle : Duration
deriving DecidableEq, Repr

/-- The wait in a state, `none` where the loop is over. -/
def PollSchedule.interval? (schedule : PollSchedule) : WorkerState → Option Duration
  | .active => some schedule.active
  | .idle => some schedule.idle
  | .shuttingDown | .terminated => none

/-- A worker. -/
structure Worker (C : Client) where
  id : String
  schedule : PollSchedule
  work : Work C

namespace Worker

variable {C : Client} (w : Worker C)

/-- One iteration, with a panic turned into an error. -/
def iterate : Code C (PoolResult Unit) := do
  match ← (w.work w.id).guarded with
  | .ok () => return .ok ()
  | .error e => return .error e
  | .panic p =>
    let e := PoolError.ofPanic p
    Code.log .error "🔨 Worker iteration panicked" [
      ("worker", .text w.id),
      ("error", .text e.message)]
    Code.record (.workerPanicked w.id)
    return .error e

/-- Hand a request to shut the pool down to its owner. -/
def escalate (error : PoolError) : Code C Unit := do
  if ← Code.escalate error then
    pure ()
  else
    Code.log .warn "Escalation channel unavailable, dropping pool shutdown request" [
      ("worker", .text w.id),
      ("error", .text error.message)]

/-- What a worker makes of an error that leads to `next`. -/
def react (next : WorkerState) (error : PoolError) : Code C Unit :=
  match next with
  | .shuttingDown => do
    Code.log .error ("🔨 Worker " ++ w.id ++ " requested pool shutdown") [
      ("error", .text error.message)]
    w.escalate error
  | .terminated =>
    Code.log .info ("🔨 Worker " ++ w.id ++ " shutting down") [("reason", .text error.message)]
  | .active | .idle =>
    if error.isNoWork then
      pure ()
    else
      Code.log .debug ("Worker " ++ w.id ++ " iteration failed") [("error", .text error.message)]

/-- One iteration in a state, with everything that follows from its outcome; the value is the state
after it. -/
def round (state : WorkerState) : Code C WorkerState := do
  let outcome ← w.iterate
  let next := WorkerState.after outcome
  match outcome with
  | .ok () => pure ()
  | .error e => w.react next e
  if next ≠ state then
    Code.log .debug ("Worker " ++ w.id ++ " changed state") [
      ("from", .text state.label),
      ("to", .text next.label)]
  return next

/-- What a worker does when its loop begins. -/
def opening : Code C Unit := do
  Code.record (.workerStarted w.id)
  Code.log .info ("🔨 Worker " ++ w.id ++ " starting")

/-- What a worker does when its loop is over. -/
def closing : Code C Unit := do
  Code.record (.workerStopped w.id)
  Code.log .info ("🔨 Worker " ++ w.id ++ " finished")

/-- The loop from one wait to the next, begun in a state; the value is the state in which it goes on,
`none` once it is over. -/
def segment (state : WorkerState) : Code C (Option WorkerState) :=
  match w.schedule.interval? state with
  | none => do
    w.closing
    return none
  | some delay => do
    match ← Program.sleepUnlessCancelled delay.ceilMillis with
    | .cancelled =>
      Code.log .debug ("🔨 Worker " ++ w.id ++ " observed cancellation")
      w.closing
      return none
    | .elapsed =>
      return some (← w.round state)

/-- The loop from its beginning to the first wait, and on to the second. -/
def start : Code C (Option WorkerState) := do
  w.opening
  w.segment .active

end Worker

end WorkerPool
