import WorkerPool.Error

/-!
# The escalation channel

A worker that meets a request to shut the pool down puts it, with its own name, on a channel of fixed
capacity for the owner of the pool to read. The channel takes an entry unless it is full or nobody
can read it any more; entries are read in the order in which they were put there.
-/

namespace WorkerPool

/-- A request to shut the pool down, and the worker that raised it. -/
structure Escalation where
  worker : String
  error : PoolError
deriving DecidableEq

/-- Where the reading end of the channel is. -/
inductive Receiver where
  /-- With the pool, for the owner to take. -/
  | kept
  /-- With the owner. -/
  | taken
  /-- Gone. -/
  | dropped
deriving DecidableEq, Repr

/-- A channel, with what waits in it to be read. -/
structure Channel where
  capacity : Nat
  queue : List Escalation := []
  receiver : Receiver := .kept
  /-- Whether the reading end takes nothing more. -/
  closed : Bool := false

namespace Channel

/-- Whether the channel takes another entry. -/
def accepts (ch : Channel) : Bool :=
  !ch.closed && ch.queue.length < ch.capacity

/-- Put an entry on the channel if it takes one. -/
def send (ch : Channel) (entry : Escalation) : Bool × Channel :=
  if ch.accepts then (true, { ch with queue := ch.queue ++ [entry] }) else (false, ch)

/-- Put entries on the channel as long as it takes them. -/
def fill (ch : Channel) : List Escalation → Channel
  | [] => ch
  | entry :: rest => ((ch.send entry).2).fill rest

/-- Read everything there is. -/
def drain (ch : Channel) : List Escalation × Channel :=
  (ch.queue, { ch with queue := [] })

/-- Read the first entry there is. -/
def receive (ch : Channel) : Option Escalation × Channel :=
  match ch.queue with
  | [] => (none, ch)
  | entry :: rest => (some entry, { ch with queue := rest })

/-- Hand the reading end to the owner, once; says whether it was there. -/
def take (ch : Channel) : Bool × Channel :=
  match ch.receiver with
  | .kept => (true, { ch with receiver := .taken })
  | _ => (false, ch)

/-- Take nothing more; what is there can still be read. -/
def close (ch : Channel) : Channel :=
  { ch with closed := true }

/-- Drop the reading end with everything unread, which only an owner who has it can do. -/
def drop (ch : Channel) : Channel :=
  match ch.receiver with
  | .taken => { ch.close with receiver := .dropped, queue := [] }
  | _ => ch

end Channel

end WorkerPool
