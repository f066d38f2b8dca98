import WorkerPool.Metrics.Collector

/-!
# A collector on a clock

A `Station` is a collector and the clock it goes by. Whoever owns it records, starts and stops it, asks
for a report or lets time pass; each of these is a `Station.Command`. `Station.command` says what a
command makes of the station and what is written to the log meanwhile, each line with its millisecond.
Only the passing of time moves the clock, and then the tickers of the collector go off on the way.
-/

namespace WorkerPool

/-- A collector and the clock it goes by. -/
structure Station where
  clock : Nat := 0
  collector : Collector

namespace Station

/-- What the owner of a collector may do. -/
inductive Command where
  | record (metric : Metric)
  /-- `background` says whether tickers can run. -/
  | start (background : Bool)
  | stop
  | reportNow
  | advance (ms : Nat)
deriving DecidableEq, Repr

/-- How long a command takes. -/
def Command.millis : Command → Nat
  | advance ms => ms
  | _ => 0

/-- The station at this millisecond with the collector changed, and the lines that the change wrote. -/
def tell (s : Station) (change : Collector × List LogLine) : Station × List (Nat × LogLine) :=
  ({ s with collector := change.1 }, change.2.map (s.clock, ·))

/-- What a command makes of the station, and what is written meanwhile. -/
def command (s : Station) : Command → Station × List (Nat × LogLine)
  | .record metric => ({ s with collector := s.collector.record metric }, [])
  | .start background => s.tell (s.collector.start background s.clock)
  | .stop => s.tell (s.collector.stop s.clock)
  | .reportNow => s.tell (s.collector.reportNow s.clock)
  | .advance ms =>
    let (collector, lines) := s.collector.advance s.clock (s.clock + ms)
    ({ clock := s.clock + ms, collector }, lines)

/-- What commands make of the station one after the other, and all that is written meanwhile. -/
def perform (s : Station) : List Command → Station × List (Nat × LogLine)
  | [] => (s, [])
  | first :: rest =>
    let (s, lines) := s.command first
    let (s, more) := s.perform rest
    (s, lines ++ more)

/-- The clock of a station is moved by its owner alone, who lets time pass. -/
theorem clock_command (s : Station) (command : Command) :
    (s.command command).1.clock = s.clock + command.millis := by
  cases command <;> rfl

theorem perform_cons (s : Station) (first : Command) (rest : List Command) :
    s.perform (first :: rest) = (((s.command first).1.perform rest).1,
      (s.command first).2 ++ ((s.command first).1.perform rest).2) := rfl

/-- Commands can be given in two portions. -/
theorem perform_append (s : Station) (before after : List Command) :
    s.perform (before ++ after) = (((s.perform before).1.perform after).1,
      (s.perform before).2 ++ ((s.perform before).1.perform after).2) := by
  induction before generalizing s with
  | nil => rfl
  | cons first rest ih => simp only [List.cons_append, perform_cons, ih, List.append_assoc]

end Station

end WorkerPool
