import WorkerPool.Journal

/-!
# The code of a pool

What the pool itself runs is `Code`, programs over the pool's interface. It may ask for everything
that client code may ask for, and for what only the pool has: the clock, the journal, the collector,
the registered hooks, the counts of consecutive errors and the escalation channel. `Code.act` runs
client code.
-/

namespace WorkerPool

/-- What the code of a pool may ask for. -/
inductive Request (C : Client) where
  /-- A request of client code. -/
  | client (request : ClientRequest C)
  /-- The millisecond of the clock. -/
  | now
  /-- Enter a call into the journal. -/
  | enter (call : Call C)
  /-- Say how a call of client code has ended. Nothing in the pool hangs on it. -/
  | ended (ending : Ending C)
  /-- Write a line to the log. -/
  | log (line : LogLine)
  /-- Tell the collector. -/
  | record (metric : Metric)
  /-- The hooks registered on one side. -/
  | registered (side : HookSide)
  /-- Register further hooks on one side. -/
  | register (side : HookSide) (hooks : List C.Hook)
  /-- Change the count that an error limit keeps for a worker; the answer is the count before. -/
  | tally (limit worker : String) (change : Nat → Nat)
  /-- Put a request to shut down on the escalation channel; the answer says whether it took it. -/
  | escalate (error : PoolError)

/-- The answer to a request of the pool's code. -/
def Request.Answer {C : Client} : Request C → Type
  | client request => request.Answer
  | now => Nat
  | enter _ => Unit
  | ended _ => Unit
  | log _ => Unit
  | record _ => Unit
  | registered _ => List C.Hook
  | register _ _ => Unit
  | tally _ _ _ => Nat
  | escalate _ => Bool

/-- What the code of a pool may ask for, and what it is told. -/
def Client.poolInterface (C : Client) : Interface where
  Request := Request C
  Answer := Request.Answer

/-- Code of the pool. -/
abbrev Code (C : Client) (α : Type) := Program C.poolInterface α

/-- One iteration of work for a worker. -/
abbrev Work (C : Client) := (worker : String) → Code C (PoolResult Unit)

namespace Code

variable {C : Client} {α : Type}

/-- Run client code. -/
def act (code : Act C α) : Code C (PoolResult α) :=
  Program.interpret (J := C.poolInterface) (fun request => .ask (.client request) .done) code

/-- The millisecond of the clock. -/
def now : Code C Nat :=
  .ask (I := C.poolInterface) .now .done

/-- Enter a call into the journal. -/
def enter (call : Call C) : Code C Unit :=
  .ask (I := C.poolInterface) (.enter call) .done

/-- Say how a call of client code has ended. -/
def ended (ending : Ending C) : Code C Unit :=
  .ask (I := C.poolInterface) (.ended ending) .done

/-- Run a call of client code and say how it ended; a panic goes on outwards. -/
def call (ending : Outcome α → Ending C) (code : Code C (PoolResult α)) : Code C (PoolResult α) := do
  let outcome ← code.guarded
  ended (ending outcome)
  .ofOutcome outcome

/-- Write a line to the log. -/
def log (level : LogLevel) (text : String) (fields : List (String × LogValue) := []) : Code C Unit :=
  .ask (I := C.poolInterface) (.log { level, text, fields }) .done

/-- Tell the collector. -/
def record (metric : Metric) : Code C Unit :=
  .ask (I := C.poolInterface) (.record metric) .done

/-- The hooks registered on one side. -/
def registered (side : HookSide) : Code C (List C.Hook) :=
  .ask (I := C.poolInterface) (.registered side) .done

/-- Change the count that an error limit keeps for a worker; the value is the count before. -/
def tally (limit worker : String) (change : Nat → Nat) : Code C Nat :=
  .ask (I := C.poolInterface) (.tally limit worker change) .done

/-- Put a request to shut down on the escalation channel; the value says whether it took it. -/
def escalate (error : PoolError) : Code C Bool :=
  .ask (I := C.poolInterface) (.escalate error) .done

end Code

end WorkerPool
