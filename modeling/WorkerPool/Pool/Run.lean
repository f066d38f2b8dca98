import WorkerPool.Pool.Plan
import WorkerPool.Pool.Thread

/-!
# Running a pool

A `Pool` is a plan, what its workers share, and a seat for each worker of its run. Its owner starts
it, stops it, cancels the parent token, registers hooks and reads the escalation channel, and lets
time pass.

In each millisecond `Pool.settle` does everything that is due: the tickers of the collector go off,
every worker that can run has its turn, those that a cancellation on the way has woken have another
one, and when the last worker has left the run is concluded. `Pool.advance` goes from one due
millisecond to the next.
-/

namespace WorkerPool

/-- What a reader of the escalation channel is told. -/
inductive Reception where
  | entry (entry : Escalation)
  /-- Nothing is there yet. -/
  | pending
  /-- Nothing is there, and nothing will be. -/
  | closed
deriving DecidableEq

/-- A pool and its run. -/
structure Pool (C : Client) where
  plan : PoolPlan C
  shared : Shared C
  crew : List (Seat C) := []
  /-- When the run was started. -/
  startedAt : Option Nat := none
  /-- When the run was over, and its result. -/
  returned : Option (Nat × PoolResult Unit) := none

namespace Pool

variable {C : Client}

/-- The pool that comes of what is asked, with the state that its client's code works on. -/
def build (b : PoolBuilder C) (state : C.State) : Pool C where
  plan := b.plan
  shared := {
    pool := b.name
    collector := b.collector
    channel := { capacity := b.plan.workers }
    state }

/-- Whether a run is going on. -/
def isRunning (p : Pool C) : Bool :=
  p.shared.running

/-- The time since the run was started, none before that. -/
def uptime (p : Pool C) : Duration :=
  match p.startedAt with
  | none => .zero
  | some started => .ofMillis (p.shared.clock - started)

/-- Open the span of each worker. -/
def openSpans (plan : PoolPlan C) (s : Shared C) : Shared C :=
  plan.crew.foldl (fun s w => s.enter (some w.id) (.span plan.customSpan plan.name)) s

/-- What is shared when a run has been started. -/
def opened (p : Pool C) : Shared C :=
  let s := { p.shared with running := true }
  let s := s.log none .info "🔨 Starting worker pool" [
    ("pool", .text p.plan.name),
    ("workers", .number p.plan.workers)]
  let (collector, lines) := s.collector.start true s.clock
  openSpans p.plan (({ s with collector }.enter none .collectorStarted).enterLines none lines)

/-- Start the run, which is possible once. -/
def start (p : Pool C) : PoolResult (Pool C) :=
  match p.startedAt with
  | some _ => .error .alreadyStarted
  | none =>
    .ok { p with
      shared := p.opened
      crew := p.plan.crew.map fun w => { worker := w, thread := .ready w.start }
      startedAt := some p.shared.clock }

/-- Ask every worker to exit. -/
def stop (p : Pool C) : Pool C :=
  { p with shared := p.shared.stop none }

/-- Cancel the token that the run was started under. -/
def cancelParent (p : Pool C) : Pool C :=
  { p with shared := p.shared.cancel .parent }

/-- Register further hooks. -/
def addHooks (p : Pool C) (side : HookSide) (hooks : List C.Hook) : Pool C :=
  { p with shared := { p.shared with hooks := p.shared.hooks.add side hooks } }

/-- Change the state that the client's code works on. -/
def update (p : Pool C) (change : C.State → C.State) : Pool C :=
  { p with shared := { p.shared with state := change p.shared.state } }

/-- Take the reading end of the escalation channel; says whether it was there. -/
def takeErrors (p : Pool C) : Bool × Pool C :=
  let (there, channel) := p.shared.channel.take
  (there, { p with shared := { p.shared with channel } })

/-- Drop the reading end of the escalation channel. -/
def dropErrors (p : Pool C) : Pool C :=
  { p with shared := { p.shared with channel := p.shared.channel.drop } }

/-- Read everything on the escalation channel. -/
def readErrors (p : Pool C) : List Escalation × Pool C :=
  let (entries, channel) := p.shared.channel.drain
  (entries, { p with shared := { p.shared with channel } })

/-- The number of those who can put something on the escalation channel: the pool itself before its
run, and then every worker that has not left. -/
def senders (p : Pool C) : Nat :=
  match p.startedAt with
  | none => 1
  | some _ => p.crew.countP fun seat => !seat.thread.isExited

/-- Read the first entry on the escalation channel; without one, say whether there may still be any. -/
def receiveError (p : Pool C) : Reception × Pool C :=
  match p.shared.channel.receive with
  | (some entry, channel) => (.entry entry, { p with shared := { p.shared with channel } })
  | (none, _) => (if p.senders = 0 then .closed else .pending, p)

/-- Whether nobody can put anything on the escalation channel any more: the run is over. -/
def errorsClosed (p : Pool C) : Bool :=
  p.returned.isSome

/-- Let the tickers of the collector go off. -/
def fireReports (p : Pool C) : Pool C :=
  let (collector, lines) := p.shared.collector.fire p.shared.clock
  { p with shared := { p.shared with collector }.enterLines none lines }

/-- Give every worker that can run a turn. -/
def pass (p : Pool C) : Pool C :=
  let (crew, shared) := Seat.pass p.crew p.shared
  { p with crew, shared }

/-- Whether the run is going on and the last worker has left. -/
def isOver (p : Pool C) : Bool :=
  p.shared.running && p.crew.all (·.thread.isExited)

/-- What is shared when the run has ended. -/
def closed (p : Pool C) : Shared C :=
  let s := p.shared.cancel .own
  let (collector, lines) := s.collector.stop s.clock
  let s := ({ s with collector }.enter none .collectorStopped).enterLines none lines
  { s with running := false }.log none .info "🔨 Worker pool stopped" [
    ("pool", .text p.plan.name),
    ("uptime_ms", .number (p.uptime.toMillis % UInt64.size))]

/-- End the run if the last worker has left. -/
def conclude (p : Pool C) : Pool C :=
  if p.isOver then
    { p with
      shared := p.closed
      returned := some
        (p.shared.clock, if p.shared.parentCancelled then .error .cancelled else .ok ()) }
  else
    p

/-- Do everything that is due in this millisecond. The second pass is for the workers that were woken
by a cancellation in the first. -/
def settle (p : Pool C) : Pool C :=
  p.fireReports.pass.pass.conclude

/-- The pool with the clock at a millisecond. -/
def withClock (p : Pool C) (now : Nat) : Pool C :=
  { p with shared := { p.shared with clock := now } }

/-- The milliseconds at which something will be due. -/
def dues (p : Pool C) : List Nat :=
  p.crew.filterMap (·.thread.due?) ++ p.shared.collector.dues

/-- The first millisecond after `now` at which something will be due. -/
def nextDue? (p : Pool C) (now : Nat) : Option Nat :=
  (p.dues.filter (now < ·)).min?

/-- Nothing in a pool is due next at or before the present millisecond. -/
theorem lt_of_nextDue? {p : Pool C} {now due : Nat} (h : p.nextDue? now = some due) : now < due :=
  lt_of_min?_later h

/-- Let time pass from millisecond `now` to `target`. -/
def advanceFrom (now target : Nat) (p : Pool C) : Pool C :=
  match h : p.nextDue? now with
  | none => p.withClock target
  | some due =>
    have := lt_of_nextDue? h
    if due ≤ target then advanceFrom due target (p.withClock due).settle else p.withClock target
termination_by target - now

/-- Let that many milliseconds pass, or as many as a wait may last. -/
def advance (p : Pool C) (ms : Nat) : Pool C :=
  p.advanceFrom p.shared.clock (p.shared.clock + waited ms)

/-- Whether a run is under way that has not returned. -/
def isPending (p : Pool C) : Bool :=
  p.startedAt.isSome && p.returned.isNone

/-- Let time pass from millisecond `now` until the run has returned, to `target` at the latest. -/
def joinFrom (now target : Nat) (p : Pool C) : Pool C :=
  if p.isPending then
    match h : p.nextDue? now with
    | none => p.withClock target
    | some due =>
      have := lt_of_nextDue? h
      if due ≤ target then joinFrom due target (p.withClock due).settle else p.withClock target
  else
    p
termination_by target - now

/-- Let time pass until the run has returned, for that many milliseconds at most. -/
def join (p : Pool C) (ms : Nat) : Pool C :=
  p.joinFrom p.shared.clock (p.shared.clock + waited ms)

end Pool

end WorkerPool
