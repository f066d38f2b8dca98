import WorkerPool.Progress

/-!
# The threads of a pool

Each worker of a running pool has a `Thread`: it is ready to run, waits, or has exited. A thread that
can run is given a turn, which takes it to its next wait; a loop that begins another segment on the way
goes on into it. `Seat.pass` gives one turn to each thread in the order of the workers.
-/

namespace WorkerPool

/-- Where a worker's loop stands. -/
inductive Thread (C : Client) where
  | ready (code : Code C (Option WorkerState))
  | waiting (due : Nat) (heedsCancel : Bool) (next : Wake → Code C (Option WorkerState))
  | exited

namespace Thread

variable {C : Client}

/-- The code that a thread can run now. -/
def wake? (t : Thread C) (s : Shared C) : Option (Code C (Option WorkerState)) :=
  match t with
  | ready code => some code
  | waiting due heeds next =>
    if heeds && s.cancelled then some (next .cancelled)
    else if due ≤ s.clock then some (next .elapsed)
    else none
  | exited => none

/-- The millisecond at which a waiting thread goes on. -/
def due? : Thread C → Option Nat
  | waiting due _ _ => some due
  | _ => none

/-- Whether the loop is over. -/
def isExited : Thread C → Bool
  | exited => true
  | _ => false

/-- Run code of a worker's loop up to its next wait or the end of its segment. -/
def run (w : Worker C) (code : Code C (Option WorkerState)) (s : Shared C) :
    Thread C × Shared C :=
  match code.resume (some w.id) s with
  | (.waiting due heeds next, s) => (.waiting due heeds next, s)
  | (.done (some state), s) => (.ready (w.segment state), s)
  | (.done none, s) => (.exited, s)
  | (.panic _, s) => (.exited, s)

/-- Give a thread a turn if it can run. A thread that comes to the end of a segment goes on into the
next one, which in a pool begins with a wait. -/
def turn (w : Worker C) (t : Thread C) (s : Shared C) : Thread C × Shared C :=
  match t.wake? s with
  | none => (t, s)
  | some code =>
    match run w code s with
    | (.ready code, s) => run w code s
    | other => other

end Thread

/-- A worker and its thread. -/
structure Seat (C : Client) where
  worker : Worker C
  thread : Thread C

namespace Seat

variable {C : Client}

/-- Give a turn to the thread of each seat. -/
def pass : List (Seat C) → Shared C → List (Seat C) × Shared C
  | [], s => ([], s)
  | seat :: rest, s =>
    let (thread, s) := seat.thread.turn seat.worker s
    let (rest, s) := pass rest s
    ({ seat with thread } :: rest, s)

end Seat

end WorkerPool
