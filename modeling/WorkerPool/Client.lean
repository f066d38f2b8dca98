import WorkerPool.Duration
import WorkerPool.Program

/-!
# The code that uses a pool

A `Client` is the four types that the users of a pool bring along: the tasks, the hooks they
register, the state that their code works on, and the notes it leaves in the journal. Their code
itself comes as `Act`s, programs over a small interface: an act reads and changes the client's state
in one step, leaves notes, cancels a token, stops the pool, and waits. A hook is given as what it does
in one step, so that it cannot wait.
-/

namespace WorkerPool

/-- The types that the users of a pool bring along. -/
structure Client where
  Task : Type
  Hook : Type
  State : Type
  Note : Type

/-- The two cancellation tokens in reach of running code. Cancelling the parent cancels the pool's
own token; the parent does not notice the pool's own. -/
inductive Token where
  | parent
  | own
deriving DecidableEq, Repr

/-- What client code may ask for. -/
inductive ClientRequest (C : Client) where
  /-- Change the client's state; the answer is the state before. -/
  | update (change : C.State → C.State)
  /-- Leave a note in the journal. -/
  | note (note : C.Note)
  /-- Cancel a token. -/
  | cancel (token : Token)
  /-- Ask the pool to stop. -/
  | stop

/-- The answer to a request of client code. -/
def ClientRequest.Answer {C : Client} : ClientRequest C → Type
  | update _ => C.State
  | note _ => Unit
  | cancel _ => Unit
  | stop => Unit

/-- What client code may ask for, and what it is told. -/
def Client.interface (C : Client) : Interface where
  Request := ClientRequest C
  Answer := ClientRequest.Answer

/-- Code of the client: a program that ends with a result or an error, or panics. -/
abbrev Act (C : Client) (α : Type) := Program C.interface (PoolResult α)

/-- The two occasions on which hooks run. -/
inductive HookSide where
  | pre
  | post
deriving DecidableEq, Repr

/-- One thing a hook does while it runs. -/
inductive HookStep (C : Client) where
  | note (note : C.Note)
  | register (side : HookSide) (hooks : List C.Hook)
  | cancel (token : Token)
  | stop

/-- What a hook does in one step: the state it leaves, the things it does, and how it ends. -/
structure HookReply (C : Client) where
  state : C.State
  steps : List (HookStep C) := []
  outcome : Outcome Unit := .ok ()

/-- Supplies and disposes of the tasks of a pool, and says what its hooks do. -/
structure Processor (C : Client) where
  /-- The identifier of a task. -/
  taskId : C.Task → String
  /-- Claim the next task for a worker. -/
  checkout : (worker : String) → Act C C.Task
  /-- Transform a task; may be called several times for the same task. -/
  process : C.Task → Act C C.Task
  /-- Dispose of a processed task. -/
  complete : C.Task → Duration → Act C Unit
  /-- Dispose of a task that could not be processed. -/
  fail : C.Task → PoolError → Act C Unit
  /-- What a hook does before a task is processed. -/
  preHook : C.Hook → (worker : String) → C.Task → C.State → HookReply C
  /-- What a hook does after a task was processed, or failed with an error. -/
  postHook : C.Hook → (worker : String) → C.Task → Option PoolError → C.State → HookReply C

end WorkerPool
