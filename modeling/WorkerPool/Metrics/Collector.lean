import WorkerPool.Metrics.Reports

/-!
# Collectors

A pool records into one of three interchangeable collectors: one that keeps nothing, one that
counts, and one that counts and reports. They differ in what they show and write, never in what the
pool does.
-/

namespace WorkerPool

section Dues

variable {dues : List Nat} {now due : Nat}

/-- What is due next is due later than now. -/
theorem lt_of_min?_later (h : (dues.filter (now < ·)).min? = some due) : now < due := by
  have mem := List.min?_mem h
  simpa using (List.mem_filter.mp mem).2

/-- Nothing else that is due later is due before what is due next. -/
theorem le_of_min?_later (h : (dues.filter (now < ·)).min? = some due) :
    ∀ other ∈ dues, now < other → due ≤ other := by
  intro other mem lt
  have least := (List.min?_eq_some_iff.mp h).2
  exact least other (List.mem_filter.mpr ⟨mem, by simpa using lt⟩)

/-- If nothing is due next, nothing is due later than now. -/
theorem not_lt_of_min?_later_eq_none (h : (dues.filter (now < ·)).min? = none) :
    ∀ due ∈ dues, ¬ now < due := by
  intro due mem lt
  have none_left := List.min?_eq_none_iff.mp h
  have later : due ∈ dues.filter (now < ·) := List.mem_filter.mpr ⟨mem, by simpa using lt⟩
  rw [none_left] at later
  cases later

end Dues

/-- Where recordings go. -/
inductive Collector where
  | discarding
  | counting (counters : Counters)
  | reporting (reporter : Reporter)

namespace Collector

/-- The effect of one recording. -/
def record (metric : Metric) : Collector → Collector
  | discarding => discarding
  | counting counters => counting (counters.record metric)
  | reporting r => reporting { r with counters := r.counters.record metric }

/-- Everything known at millisecond `now`. -/
def snapshot (now : Nat) : Collector → MetricsSnapshot
  | discarding => {}
  | counting counters => counters.snapshot now
  | reporting r => r.counters.snapshot now

/-- What is written when the owner starts; `background` says whether tickers can run. -/
def start (background : Bool) (now : Nat) : Collector → Collector × List LogLine
  | discarding => (discarding, [])
  | counting counters => (counting { counters with since := now }, [])
  | reporting r => ((r.start background now).map reporting id)

/-- What is written when the owner has stopped. -/
def stop (now : Nat) : Collector → Collector × List LogLine
  | discarding => (discarding, [])
  | counting counters => (counting counters, [])
  | reporting r => (r.stop now).map reporting id

/-- Write a report at once, where reports are written. -/
def reportNow (now : Nat) : Collector → Collector × List LogLine
  | reporting r => (r.report .manual now).map reporting id
  | other => (other, [])

/-- What the tickers do at millisecond `now`. -/
def fire (now : Nat) : Collector → Collector × List LogLine
  | reporting r => (r.fire now).map reporting id
  | other => (other, [])

/-- The milliseconds at which a ticker goes off next. -/
def dues : Collector → List Nat
  | reporting r => r.dues
  | _ => []

/-- The first millisecond after `now` at which a ticker goes off. -/
def nextDue? (c : Collector) (now : Nat) : Option Nat :=
  (c.dues.filter (now < ·)).min?

/-- A collector has nothing due next at or before the present millisecond. -/
theorem lt_of_nextDue? {c : Collector} {now due : Nat} (h : c.nextDue? now = some due) : now < due :=
  lt_of_min?_later h

/-- Let time pass from millisecond `now` to `target` while nothing is recorded; what is written, with
the millisecond of each line. -/
def advance (now target : Nat) (c : Collector) : Collector × List (Nat × LogLine) :=
  match h : c.nextDue? now with
  | none => (c, [])
  | some due =>
    have := lt_of_nextDue? h
    if due ≤ target then
      let (c, lines) := c.fire due
      let (c, more) := advance due target c
      (c, lines.map (due, ·) ++ more)
    else
      (c, [])
termination_by target - now

/-- The number of reports written, where reports are written. -/
def reports? : Collector → Option Nat
  | reporting r => some r.reports
  | _ => none

end Collector

end WorkerPool
