import WorkerPool.Hooks
import WorkerPool.Retry

/-!
# One iteration of work

An iteration checks a task out, processes it between the hooks, and disposes of it: a task that was
processed is completed, one that failed or panicked is failed. A panic in a hook or in processing is
caught here, so that the task is still failed; a panic in checking out, completing or failing goes on
outwards.
-/

namespace WorkerPool

/-- What an iteration consists of. -/
structure Iteration (C : Client) where
  processor : Processor C
  retry : RetryPolicy

namespace Iteration

variable {C : Client} (it : Iteration C)

/-- Make one attempt at processing a task. -/
def attempt (task : C.Task) : Code C (PoolResult C.Task) := do
  Code.enter (.process task)
  Code.call .process (Code.act (it.processor.process task))

/-- Process a task, retrying, between its hooks. -/
def processWithHooks (worker : String) (task : C.Task) : Code C (PoolResult C.Task) := do
  it.processor.runPre worker task
  let result ← it.retry.run fun _ => it.attempt task
  match result with
  | .ok done =>
    it.processor.runPost worker done none
    return .ok done
  | .error e =>
    it.processor.runPost worker task (some e)
    return .error e

/-- Process a task and turn a panic into an error. -/
def processGuarded (worker : String) (task : C.Task) : Code C (PoolResult C.Task) := do
  match ← (it.processWithHooks worker task).guarded with
  | .ok done => return .ok done
  | .error e => return .error e
  | .panic p =>
    let e := PoolError.ofPanic p
    Code.log .error "🔨 Task processing panicked" [
      ("worker", .text worker),
      ("task_id", .text (it.processor.taskId task)),
      ("error", .text e.message)]
    Code.record (.workerPanicked worker)
    return .error e

/-- Dispose of a task that was processed into `done`. -/
def completeTask (worker taskId : String) (done : C.Task) (duration : Duration) :
    Code C (PoolResult Unit) := do
  Code.enter (.complete done duration)
  let completed ← Code.call .complete (Code.act (it.processor.complete done duration))
  Code.record (.taskCompleted worker duration)
  match completed with
  | .ok () =>
    Code.log .debug "Task completed" [
      ("worker", .text worker),
      ("task_id", .text taskId),
      ("duration_ms", .number (duration.toMillis % UInt64.size))]
  | .error e =>
    Code.log .warn "Marking task complete failed" [
      ("worker", .text worker),
      ("task_id", .text taskId),
      ("error", .text e.message)]
  return completed

/-- Dispose of a task that failed with an error, which is the result. -/
def failTask (worker taskId : String) (task : C.Task) (error : PoolError) (duration : Duration) :
    Code C (PoolResult Unit) := do
  Code.enter (.fail task error)
  match ← Code.call .fail (Code.act (it.processor.fail task error)) with
  | .ok () => pure ()
  | .error e =>
    Code.log .warn "Marking task failed returned an error" [
      ("worker", .text worker),
      ("task_id", .text taskId),
      ("error", .text e.message)]
  Code.record (.taskFailed worker duration)
  Code.log .warn "Task failed" [
    ("worker", .text worker),
    ("task_id", .text taskId),
    ("error", .text error.message)]
  return .error error

/-- Work on a task that a worker has checked out. -/
def workOn (worker : String) (task : C.Task) : Code C (PoolResult Unit) := do
  let taskId := it.processor.taskId task
  Code.record (.taskCheckedOut worker)
  Code.log .debug "Task checked out" [("worker", .text worker), ("task_id", .text taskId)]
  let started ← Code.now
  let processed ← it.processGuarded worker task
  let duration := Duration.ofMillis ((← Code.now) - started)
  match processed with
  | .ok done => it.completeTask worker taskId done duration
  | .error e => it.failTask worker taskId task e duration

/-- Whether an error of a checkout is a signal, which is passed on in silence. -/
def isSignal (error : PoolError) : Bool :=
  error.isNoWork || error.isShutdownSignal || error = .cancelled

/-- One iteration of a worker. -/
def work : Work C := fun worker => do
  let result ← Code.call .checkout (Code.act (it.processor.checkout worker))
  Code.enter (.checkout result)
  match result with
  | .ok task => it.workOn worker task
  | .error e =>
    if isSignal e then
      return .error e
    else
      Code.log .warn "Checkout failed" [("worker", .text worker), ("error", .text e.message)]
      Code.record (.checkoutError worker)
      return .error e

end Iteration

end WorkerPool
