import WorkerPool.Client
import WorkerPool.Log
import WorkerPool.Metrics.Snapshot

/-!
# The journal of a run

Everything that can be seen of a run is an `Entry` of its journal, in the order in which it happened:
the calls of the processor and the hooks, the recordings of the collector, the lines of the log and
the notes of the client. An entry says at which millisecond it happened and in which worker, or
outside of any.
-/

namespace WorkerPool

/-- A call that the pool makes of client code. A checkout is entered when it has returned, every other
call when it is made. -/
inductive Call (C : Client) where
  | checkout (result : PoolResult C.Task)
  | process (task : C.Task)
  | complete (task : C.Task) (duration : Duration)
  | fail (task : C.Task) (error : PoolError)
  | preHook (hook : C.Hook) (task : C.Task)
  | postHook (hook : C.Hook) (task : C.Task) (error : Option PoolError)

/-- How a call of client code ended. -/
inductive Ending (C : Client) where
  | checkout (outcome : Outcome C.Task)
  | process (outcome : Outcome C.Task)
  | complete (outcome : Outcome Unit)
  | fail (outcome : Outcome Unit)
  | preHook (outcome : Outcome Unit)
  | postHook (outcome : Outcome Unit)

/-- What happened. -/
inductive Event (C : Client) where
  | call (call : Call C)
  | metric (metric : Metric)
  | collectorStarted
  | collectorStopped
  | log (line : LogLine)
  /-- A span was opened for a worker; `custom` says whether its parent is one that the owner chose. -/
  | span (custom : Bool) (pool : String)
  | note (note : C.Note)

/-- What happened when, and in which worker. -/
structure Entry (C : Client) where
  time : Nat
  worker : Option String
  event : Event C

end WorkerPool
