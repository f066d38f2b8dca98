import WorkerPool.Proofs.Counting

/-!
# Collectors count alike

What a collector has counted depends on the recordings and the starts alone (`Station.Command.count`):
stops, reports and the passing of time leave its counters as they are. A collector that reports therefore
shows the same as one that only counts and is told of the same recordings and starts
(`Station.reporting_counts_alike`), whatever it was asked to write besides.
-/

namespace WorkerPool

namespace Station

/-- What a command at this millisecond makes of counters. -/
def Command.count (clock : Nat) (counters : Counters) : Command → Counters
  | record metric => counters.record metric
  | start _ => { counters with since := clock }
  | _ => counters

/-- Whether a command is about what is counted, or lets time pass: no stop, and no report. -/
def Command.isPlain : Command → Bool
  | stop | reportNow => false
  | _ => true

/-- What commands from this millisecond on make of counters. -/
def countAll (clock : Nat) (counters : Counters) : List Command → Counters
  | [] => counters
  | first :: rest => countAll (clock + first.millis) (first.count clock counters) rest

/-- What a command makes of the counters is said by `Command.count`, whatever kind of collector keeps them. -/
theorem counters?_command (s : Station) (command : Command) :
    (s.command command).1.collector.counters? = s.collector.counters?.map (command.count s.clock) := by
  have same : s.collector.counters? = s.collector.counters?.map fun counters => counters :=
    Option.map_id'.symm
  cases command with
  | record metric => exact s.collector.counters?_record metric
  | start background => exact s.collector.counters?_start s.clock background
  | stop => exact (s.collector.counters?_stop s.clock).trans same
  | reportNow => exact (s.collector.counters?_reportNow s.clock).trans same
  | advance ms => exact (s.collector.counters?_advance s.clock (s.clock + ms)).trans same

/-- So is what a whole history makes of them, if the clock is taken along. -/
theorem counters?_perform (s : Station) (commands : List Command) :
    (s.perform commands).1.collector.counters? = s.collector.counters?.map (countAll s.clock · commands) := by
  induction commands generalizing s with
  | nil => exact Option.map_id'.symm
  | cons first rest ih =>
    rw [perform_cons, ih, counters?_command, clock_command, Option.map_map]
    rfl

/-- The clock of a station after a history is what the commands in it have let pass. -/
theorem clock_perform (s : Station) (commands : List Command) :
    (s.perform commands).1.clock = s.clock + millisIn commands := by
  induction commands generalizing s with
  | nil => rfl
  | cons first rest ih => rw [perform_cons, ih, clock_command, millisIn_cons, Nat.add_assoc]

/-- Only plain commands count, and only plain commands take time. -/
theorem count_of_not_plain {command : Command} (other : command.isPlain = false) :
    command.millis = 0 ∧ ∀ clock counters, command.count clock counters = counters := by
  cases command with
  | stop | reportNow => exact ⟨rfl, fun _ _ => rfl⟩
  | record | start | advance => cases other

/-- Commands that are not plain can be left out where only counters are at stake. -/
theorem countAll_plain (clock : Nat) (counters : Counters) (commands : List Command) :
    countAll clock counters (commands.filter (·.isPlain)) = countAll clock counters commands := by
  induction commands generalizing clock counters with
  | nil => rfl
  | cons first rest ih =>
    cases plain : first.isPlain with
    | true => rw [List.filter_cons_of_pos plain, countAll, countAll, ih]
    | false =>
      obtain ⟨brief, none_counted⟩ := count_of_not_plain plain
      rw [List.filter_cons_of_neg (by simp [plain]), countAll, ih, brief, none_counted, Nat.add_zero]

/-- Commands that are not plain take no time. -/
theorem millisIn_plain (commands : List Command) :
    millisIn (commands.filter (·.isPlain)) = millisIn commands := by
  induction commands with
  | nil => rfl
  | cons first rest ih =>
    cases plain : first.isPlain with
    | true => rw [List.filter_cons_of_pos plain, millisIn_cons, millisIn_cons, ih]
    | false =>
      obtain ⟨brief, _⟩ := count_of_not_plain plain
      rw [List.filter_cons_of_neg (by simp [plain]), millisIn_cons, ih, brief, Nat.zero_add]

/-- A collector that reports shows the same as one that only counts and was told of the same recordings
and starts at the same times. What a further command makes of its counters is what it makes of any
counters: only recordings and starts change them, and a start only the time since which it is up. -/
theorem reporting_counts_alike (name : String) (settings : ReportSettings) (opened : Nat)
    (commands : List Command) :
    let reporting := ((Station.reporting name settings opened).perform commands).1
    let plain : Station := ⟨opened, .counting { since := opened }⟩
    let counting := (plain.perform (commands.filter (·.isPlain))).1
    reporting.clock = counting.clock ∧
      (∀ now, reporting.collector.snapshot now = counting.collector.snapshot now) ∧
      ∃ counters, reporting.collector.counters? = some counters ∧ ∀ command,
        (reporting.command command).1.collector.counters? =
          some (command.count reporting.clock counters) := by
  intro reporting plain counting
  have clocks : reporting.clock = counting.clock := by
    rw [clock_perform, clock_perform, millisIn_plain]
    rfl
  have counts : reporting.collector.counters? = some (countAll opened { since := opened } commands) :=
    counters?_perform _ commands
  have plain_counts : counting.collector.counters? = some (countAll opened { since := opened } commands) := by
    rw [counters?_perform, ← countAll_plain opened { since := opened } commands]
    rfl
  refine ⟨clocks, fun now => ?_, _, counts, fun command => ?_⟩
  · rw [Collector.snapshot_eq counts, Collector.snapshot_eq plain_counts]
  · rw [counters?_command, counts]
    rfl

end Station

end WorkerPool
