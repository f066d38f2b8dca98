import WorkerPool.Channel
import WorkerPool.Code
import WorkerPool.Hooks
import WorkerPool.Metrics.Collector
import WorkerPool.Tally

/-!
# What the workers of a pool share

`Shared` is the clock, the tokens, the collector, the hooks, the counts, the channel, the client's
state and the journal. `Shared.answer` says what each request of the pool's code does to it and what
it is answered; a request takes no time and is done in one step.
-/

namespace WorkerPool

/-- Everything that running code can reach. -/
structure Shared (C : Client) where
  /-- The name of the pool. -/
  pool : String
  /-- The milliseconds that have passed. -/
  clock : Nat := 0
  /-- Whether the parent token is cancelled. -/
  parentCancelled : Bool := false
  /-- The millisecond since which the pool's own token is cancelled; it is whenever the parent is. -/
  cancelledSince : Option Nat := none
  /-- Whether the pool is between the start of its run and the end. -/
  running : Bool := false
  collector : Collector := .discarding
  hooks : Hooks C.Hook := {}
  tally : Tally := {}
  channel : Channel
  state : C.State
  journal : Array (Entry C) := #[]

namespace Shared

variable {C : Client}

/-- Whether the pool's own token is cancelled. -/
def cancelled (s : Shared C) : Bool :=
  s.cancelledSince.isSome

/-- Enter an event into the journal. -/
def enter (s : Shared C) (worker : Option String) (event : Event C) : Shared C :=
  { s with journal := s.journal.push { time := s.clock, worker, event } }

/-- Enter lines of the log into the journal. -/
def enterLines (s : Shared C) (worker : Option String) (lines : List LogLine) : Shared C :=
  lines.foldl (fun s line => s.enter worker (.log line)) s

/-- Write a line to the log. -/
def log (s : Shared C) (worker : Option String) (level : LogLevel) (text : String)
    (fields : List (String × LogValue)) : Shared C :=
  s.enter worker (.log { level, text, fields })

/-- Cancel a token. -/
def cancel (s : Shared C) : Token → Shared C
  | .own => { s with cancelledSince := s.cancelledSince.or (some s.clock) }
  | .parent =>
    { s with cancelledSince := s.cancelledSince.or (some s.clock), parentCancelled := true }

/-- Ask the pool to stop: its token is cancelled, unless it is not running or already stopping. -/
def stop (s : Shared C) (worker : Option String) : Shared C :=
  if s.running && !s.cancelled then
    (s.log worker .info "🔨 Stopping worker pool" [("pool", .text s.pool)]).cancel .own
  else
    s

/-- What a request of client code does, and its answer. -/
def answerClient (s : Shared C) (worker : Option String) :
    (request : ClientRequest C) → request.Answer × Shared C
  | .update change => (s.state, { s with state := change s.state })
  | .note n => ((), s.enter worker (.note n))
  | .cancel token => ((), s.cancel token)
  | .stop => ((), s.stop worker)

/-- What a request does, and its answer. -/
def answer (s : Shared C) (worker : Option String) :
    (request : Request C) → request.Answer × Shared C
  | .client request => s.answerClient worker request
  | .now => (s.clock, s)
  | .enter call => ((), s.enter worker (.call call))
  | .ended _ => ((), s)
  | .log line => ((), s.enter worker (.log line))
  | .record metric =>
    ((), { s with collector := s.collector.record metric }.enter worker (.metric metric))
  | .registered side => (s.hooks.of side, s)
  | .register side hooks => ((), { s with hooks := s.hooks.add side hooks })
  | .tally limit name change =>
    let count := s.tally.count limit name
    (count, { s with tally := s.tally.set limit name (change count) })
  | .escalate error =>
    let (taken, channel) := s.channel.send { worker := worker.getD "", error }
    (taken, { s with channel })

/-- Everything the collector knows. -/
def snapshot (s : Shared C) : MetricsSnapshot :=
  s.collector.snapshot s.clock

end Shared

end WorkerPool
