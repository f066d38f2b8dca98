/-!
# What can go wrong

`PoolError` is every way in which an operation of the pool, or of the code it runs, can end without
a result. Besides failures it carries the signals that steer a worker: `noWork` makes it idle,
`workerShutdown` retires it, and `poolShutdown` is handed to whoever owns the pool.

Three views of one error are defined here. `message` is its text, `chain` the texts of what lies
beneath it, and `innermost` the error beneath the wrapping that the retry policy adds, which any
further wrapping leaves unchanged (`innermost_wrap`).
-/

namespace WorkerPool

/-- What a panic carries: a text, or something that is not a text. -/
inductive Panic where
  | text (message : String)
  | other
deriving DecidableEq, Repr, Inhabited

/-- The text shown for a panic. -/
def Panic.message : Panic → String
  | .text message => message
  | .other => "unknown panic payload"

mutual
/-- A failure, or a signal to the worker that meets it. -/
inductive PoolError where
  /-- There is nothing to do right now. -/
  | noWork
  /-- The worker that meets this leaves its loop. -/
  | workerShutdown (reason : String)
  /-- The owner of the pool is asked to stop it. -/
  | poolShutdown (reason : String)
  /-- The token was cancelled. -/
  | cancelled
  /-- A panic was caught. -/
  | panicked (message : String)
  /-- Every attempt at a task failed; `source` is the failure of the last one. -/
  | retriesExhausted (attempts : Nat) (source : PoolError)
  /-- The processor failed. -/
  | processor (message : String) (cause : Cause)
  /-- A hook failed. -/
  | hook (message : String)
  /-- The pool had been started before. -/
  | alreadyStarted
  /-- The configuration is unusable. -/
  | config (message : String)

/-- What a failure of the processor goes back to. -/
inductive Cause where
  /-- Nothing is known. -/
  | unknown
  /-- An error that is none of the pool's, known by its text and by the texts of what it goes back to
  in its turn. -/
  | foreign (text : String) (beneath : List String := [])
  /-- An error of the pool. -/
  | error (error : PoolError)
end

deriving instance DecidableEq for PoolError, Cause

instance : Inhabited PoolError := ⟨.noWork⟩

/-- The result of an operation that can fail. -/
abbrev PoolResult (α : Type) := Except PoolError α

namespace PoolError

/-- The text of an error. -/
def message : PoolError → String
  | noWork => "no work available"
  | workerShutdown reason => "worker shutdown requested: " ++ reason
  | poolShutdown reason => "pool shutdown requested: " ++ reason
  | cancelled => "operation cancelled"
  | panicked message => "panic recovered: " ++ message
  | retriesExhausted attempts source =>
    "task failed after " ++ toString attempts ++ " attempts: " ++ source.message
  | processor message _ => "processor error: " ++ message
  | hook message => "hook error: " ++ message
  | alreadyStarted => "pool has already been started"
  | config message => "configuration error: " ++ message

end PoolError

mutual
/-- The texts of the errors beneath an error, from the outside in. -/
def PoolError.chain : PoolError → List String
  | .retriesExhausted _ source => source.message :: source.chain
  | .processor _ cause => cause.chain
  | _ => []

/-- The texts that a cause adds to the errors above it. -/
def Cause.chain : Cause → List String
  | .unknown => []
  | .foreign text beneath => text :: beneath
  | .error error => error.message :: error.chain
end

namespace PoolError

/-- The error that a caught panic becomes. -/
def ofPanic (panic : Panic) : PoolError :=
  panicked panic.message

/-- Whether this very error says that there is nothing to do. -/
def isNoWork : PoolError → Bool
  | noWork => true
  | _ => false

/-- Whether this very error asks a worker or the pool to shut down. -/
def isShutdownSignal : PoolError → Bool
  | workerShutdown _ | poolShutdown _ => true
  | _ => false

/-- The error beneath any number of `retriesExhausted` wrappings. -/
def innermost : PoolError → PoolError
  | retriesExhausted _ source => source.innermost
  | error => error

/-- Whether the error is a `retriesExhausted` wrapping. -/
def isWrapped : PoolError → Bool
  | retriesExhausted _ _ => true
  | _ => false

/-- An error wrapped once for each of `attempts`, the first of them outermost. -/
def wrap : List Nat → PoolError → PoolError
  | [], error => error
  | n :: rest, error => retriesExhausted n (wrap rest error)

/-- What wraps nothing is its own innermost error. -/
theorem innermost_of_not_isWrapped {error : PoolError} (h : error.isWrapped = false) :
    error.innermost = error := by
  cases error with
  | retriesExhausted => cases h
  | _ => rfl

/-- Unwrapping goes on until there is nothing to unwrap. -/
theorem isWrapped_innermost : ∀ error : PoolError, error.innermost.isWrapped = false
  | retriesExhausted _ source => isWrapped_innermost source
  | noWork | workerShutdown _ | poolShutdown _ | cancelled | panicked _ | processor _ _ | hook _
  | alreadyStarted | config _ => rfl

/-- However often an error is wrapped, the error beneath stays the same. -/
@[simp] theorem innermost_wrap (attempts : List Nat) (error : PoolError) :
    (wrap attempts error).innermost = error.innermost := by
  induction attempts with
  | nil => rfl
  | cons _ _ ih => exact ih

end PoolError

end WorkerPool
