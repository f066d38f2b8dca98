import WorkerPool.Log
import WorkerPool.Metrics.Counters

/-!
# Reports

A `Reporter` counts like `Counters` and writes what it has counted to the log: at a fixed interval,
whenever enough tasks have finished since the last report, when it is asked to, and when it stops.

While it is running it has two clocks of its own, `Ticker`s, which go off a period apart. A ticker
keeps its due time in nanoseconds and goes off in the first whole millisecond that is not before it.
The interval ticker reports each time. The threshold ticker looks whether `everyTasks` more tasks
have finished since the last report and reports if so; with a period of zero it never goes off. Of two
tickers that go off in the same millisecond, the one that has waited longer goes first.
-/

namespace WorkerPool

/-- When a reporter writes its reports. -/
structure ReportSettings where
  /-- Report on this fixed interval. -/
  interval : Option Duration := some (.ofSecs 60)
  /-- Report once this many tasks finished since the last report. -/
  everyTasks : Option Nat := none
  /-- Write a last report on stopping. -/
  onStop : Bool := true
  /-- How often the number of finished tasks is looked at. -/
  thresholdPoll : Duration := .ofSecs 1
deriving DecidableEq, Repr

namespace ReportSettings

/-- Report every `interval`. -/
def every (interval : Duration) : ReportSettings :=
  { interval := some interval }

/-- Also report whenever `tasks` more tasks have finished. -/
def withTaskThreshold (s : ReportSettings) (tasks : Nat) : ReportSettings :=
  { s with everyTasks := some tasks }

/-- Write the last report or leave it out. -/
def withFinalReport (s : ReportSettings) (enabled : Bool) : ReportSettings :=
  { s with onStop := enabled }

end ReportSettings

/-- Why a report was written. -/
inductive ReportReason where
  | interval
  | taskThreshold
  | manual
  | final
deriving DecidableEq, Repr

/-- The reason as a report shows it. -/
def ReportReason.label : ReportReason → String
  | interval => "interval"
  | taskThreshold => "task_threshold"
  | manual => "manual"
  | final => "final"

/-- A clock that goes off every `period` nanoseconds, next when `due` nanoseconds have passed. -/
structure Ticker where
  due : Nat
  period : Nat
  /-- The millisecond since which it has been waiting. -/
  since : Nat
deriving DecidableEq, Repr

namespace Ticker

/-- The ticker of that period, or of the longest wait if that is shorter, set off at millisecond `now`;
there is none of period zero. -/
def startAt? (now : Nat) (period : Duration) : Option Ticker :=
  let nanos := min period.toNanos (longestWait * nanosPerMilli)
  if nanos = 0 then none else some ⟨now * nanosPerMilli + nanos, nanos, now⟩

/-- The first whole millisecond at which the ticker may go off. -/
def dueMillis (t : Ticker) : Nat :=
  (t.due + (nanosPerMilli - 1)) / nanosPerMilli

/-- How often the ticker goes off up to and including millisecond `now`. -/
def countAt (t : Ticker) (now : Nat) : Nat :=
  if t.due ≤ now * nanosPerMilli ∧ 0 < t.period then
    (now * nanosPerMilli - t.due) / t.period + 1
  else 0

/-- Whether the ticker goes off at millisecond `now`. -/
def isDue (t : Ticker) (now : Nat) : Bool :=
  0 < t.countAt now

/-- The ticker once it has gone off as often as it does up to millisecond `now`. -/
def passed (t : Ticker) (now : Nat) : Ticker where
  due := t.due + t.countAt now * t.period
  period := t.period
  since := if t.isDue now then now else t.since

end Ticker

/-- The tickers of a reporter that is running. -/
structure ReportClocks where
  interval : Option Ticker
  threshold : Option Ticker
deriving DecidableEq, Repr

/-- Whether the threshold ticker has waited longer than the interval ticker. -/
def ReportClocks.thresholdFirst (clocks : ReportClocks) : Bool :=
  match clocks with
  | { interval := some interval, threshold := some threshold } => threshold.since < interval.since
  | _ => false

/-- A collector that reports what it counts. -/
structure Reporter where
  name : String
  settings : ReportSettings
  counters : Counters := {}
  /-- How many tasks had finished at the last report. It is no more than have finished by now, so what bounds
  the counts bounds it too. -/
  lastReported : Nat := 0
  /-- How many reports were written. -/
  reports : Nat := 0
  /-- The tickers while the reporter is running. -/
  clocks : Option ReportClocks := none

namespace Reporter

/-- A reporter made at millisecond `now`. -/
def new (name : String) (settings : ReportSettings) (now : Nat) : Reporter :=
  { name, settings, counters := { since := now } }

/-- The text of a report on a snapshot. -/
def reportLine (name : String) (reason : ReportReason) (s : MetricsSnapshot) : LogLine where
  level := .info
  text := "🔨 Pool metrics"
  fields := [
    ("pool", .text name),
    ("reason", .text reason.label),
    ("workers_active", .number s.workersActive),
    ("worker_panics", .number s.workerPanics),
    ("tasks_checked_out", .number s.tasksCheckedOut),
    ("tasks_completed", .number s.tasksCompleted),
    ("tasks_failed", .number s.tasksFailed),
    ("tasks_in_progress", .number s.tasksInProgress),
    ("checkout_errors", .number s.checkoutErrors),
    ("retry_attempts", .number s.retryAttempts),
    ("retry_rate", .rate s.retryRate),
    ("error_rate", .rate s.errorRate),
    ("throughput_per_second", .rate s.throughputPerSecond),
    ("average_duration_ms", .number (s.averageDuration.toMillis % UInt64.size)),
    ("max_duration_ms", .number (s.maxDuration.toMillis % UInt64.size)),
    ("uptime_secs", .number s.uptime.secs)]

/-- Write a report. -/
def report (r : Reporter) (reason : ReportReason) (now : Nat) : Reporter × List LogLine :=
  let snapshot := r.counters.snapshot now
  ({ r with lastReported := snapshot.tasksProcessed, reports := r.reports + 1 },
    [reportLine r.name reason snapshot])

/-- The tickers that the settings ask for, set off at millisecond `now`. -/
def clocksAt (settings : ReportSettings) (now : Nat) : ReportClocks where
  interval := settings.interval.bind (Ticker.startAt? now)
  threshold :=
    match settings.everyTasks with
    | some (_ + 1) => Ticker.startAt? now settings.thresholdPoll
    | _ => none

/-- Start counting the uptime anew and, unless they are running, set the tickers off. Where nothing
can run in the background there are no tickers, which is warned about. -/
def start (r : Reporter) (background : Bool) (now : Nat) : Reporter × List LogLine :=
  let r := { r with counters := { r.counters with since := now } }
  match r.clocks, background with
  | some _, _ => (r, [])
  | none, true => ({ r with clocks := some (clocksAt r.settings now) }, [])
  | none, false =>
    (r, [{
      level := .warn
      text := "No tokio runtime available, periodic metrics reports disabled"
      fields := [("pool", .text r.name)] }])

/-- Stop the tickers, and write the last report if the settings ask for it. -/
def stop (r : Reporter) (now : Nat) : Reporter × List LogLine :=
  let r := { r with clocks := none }
  if r.settings.onStop then r.report .final now else (r, [])

/-- The reports of the interval ticker, one for each time it goes off. -/
def reportTimes (r : Reporter) (now : Nat) : Nat → Reporter × List LogLine
  | 0 => (r, [])
  | times + 1 =>
    let (r, lines) := r.report .interval now
    let (r, more) := r.reportTimes now times
    (r, lines ++ more)

/-- What the interval ticker does at millisecond `now`. -/
def fireInterval (r : Reporter) (now : Nat) : Reporter × List LogLine :=
  match r.clocks with
  | some { interval := some ticker, threshold } =>
    let clocks := { interval := some (ticker.passed now), threshold }
    { r with clocks := some clocks }.reportTimes now (ticker.countAt now)
  | _ => (r, [])

/-- Whether enough tasks have finished since the last report. -/
def thresholdReached (r : Reporter) : Bool :=
  match r.settings.everyTasks with
  | some tasks => tasks ≤ r.counters.tasksProcessed - r.lastReported
  | none => false

/-- What the threshold ticker does at millisecond `now`. -/
def fireThreshold (r : Reporter) (now : Nat) : Reporter × List LogLine :=
  match r.clocks with
  | some { interval, threshold := some ticker } =>
    let clocks := { interval, threshold := some (ticker.passed now) }
    let gone := { r with clocks := some clocks }
    if ticker.isDue now && r.thresholdReached then gone.report .taskThreshold now else (gone, [])
  | _ => (r, [])

/-- What both tickers do at millisecond `now`, in their order. -/
def fire (r : Reporter) (now : Nat) : Reporter × List LogLine :=
  if r.clocks.any (·.thresholdFirst) then
    let (r, lines) := r.fireThreshold now
    let (r, more) := r.fireInterval now
    (r, lines ++ more)
  else
    let (r, lines) := r.fireInterval now
    let (r, more) := r.fireThreshold now
    (r, lines ++ more)

/-- The tickers that are running. -/
def tickers (r : Reporter) : List Ticker :=
  match r.clocks with
  | none => []
  | some clocks => clocks.interval.toList ++ clocks.threshold.toList

/-- The milliseconds at which a ticker goes off next. -/
def dues (r : Reporter) : List Nat :=
  r.tickers.map (·.dueMillis)

end Reporter

end WorkerPool
