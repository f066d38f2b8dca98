import WorkerPool.Shared
import WorkerPool.Worker

/-!
# Running a program

A program is run against what the workers share. `Program.resume` runs it up to its next wait: that is
all a worker does before another one has its turn. `Program.playAlone` runs it to its end when nothing
else is going on, on a clock that jumps from wait to wait, with the token cancelled from outside at a
given millisecond after everything else due then.
-/

namespace WorkerPool

/-- How far a program has got. -/
inductive Progress (I : Interface) (α : Type) where
  | done (value : α)
  | panic (panic : Panic)
  /-- It waits until the clock shows `due`, or for the token to be cancelled if it heeds that. -/
  | waiting (due : Nat) (heedsCancel : Bool) (next : Wake → Program I α)

namespace Program

variable {C : Client} {α : Type}

/-- Run a program up to its next wait. A wait that heeds cancellation and finds the token cancelled
ends at once, and so does a wait of no length. -/
def resume (worker : Option String) :
    Program C.poolInterface α → Shared C → Progress C.poolInterface α × Shared C
  | done value, s => (.done value, s)
  | panic p, s => (.panic p, s)
  | ask request next, s => (next (s.answer worker request).1).resume worker (s.answer worker request).2
  | wait ms heeds next, s =>
    if heeds && s.cancelled then (next .cancelled).resume worker s
    else if ms = 0 then (next .elapsed).resume worker s
    else (.waiting (s.clock + waited ms) heeds next, s)

end Program

namespace Shared

variable {C : Client}

/-- Let a wait pass on a clock of its own. `cancelAt` is the millisecond at which the token is
cancelled from outside; a wait that is over by then ends first. -/
def sleepAlone (s : Shared C) (cancelAt : Option Nat) (ms : Nat) (heeds : Bool) : Wake × Shared C :=
  if heeds && s.cancelled then (.cancelled, s)
  else if ms = 0 then (.elapsed, s)
  else
    let due := s.clock + waited ms
    match (cancelAt.map waited).filter (fun moment => !s.cancelled && moment < due) with
    | some moment =>
      let s := { s with clock := max s.clock moment }.cancel .own
      if heeds then (.cancelled, s) else (.elapsed, { s with clock := due })
    | none => (.elapsed, { s with clock := due })

end Shared

namespace Program

variable {C : Client} {α : Type}

/-- Run a program to its end, with nothing else going on. -/
def playAlone (worker : Option String) (cancelAt : Option Nat) :
    Program C.poolInterface α → Shared C → Except Panic α × Shared C
  | done value, s => (.ok value, s)
  | panic p, s => (.error p, s)
  | ask request next, s =>
    (next (s.answer worker request).1).playAlone worker cancelAt (s.answer worker request).2
  | wait ms heeds next, s =>
    (next (s.sleepAlone cancelAt ms heeds).1).playAlone worker cancelAt
      (s.sleepAlone cancelAt ms heeds).2

end Program

namespace Worker

variable {C : Client}

/-- Run a worker's loop from a program on, for at most that many segments, with nothing else going on;
`none` if it is not over by then. -/
def loopAlone (w : Worker C) (cancelAt : Option Nat) :
    (segments : Nat) → Code C (Option WorkerState) → Shared C → Option (Shared C)
  | 0, _, _ => none
  | segments + 1, code, s =>
    match code.playAlone (some w.id) cancelAt s with
    | (.ok (some state), s) => w.loopAlone cancelAt segments (w.segment state) s
    | (_, s) => some s

/-- Run a worker's loop to its end, with nothing else going on. -/
def runAlone (w : Worker C) (cancelAt : Option Nat) (segments : Nat) (s : Shared C) :
    Option (Shared C) :=
  w.loopAlone cancelAt segments w.start s

end Worker

end WorkerPool
