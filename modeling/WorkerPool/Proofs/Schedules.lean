import WorkerPool.Proofs.Reporting

/-!
# Reports on schedule

When a collector has been running is read off what its owner did (`Station.spans`): a start that finds it
at rest, and finds that tickers can run, begins a span, and the next stop ends it. The tickers of a
reporter go by these spans (`Reporter.OnTime`), whatever else is asked of it, and so the reports on its
fixed interval are the beats of the spans and nothing else (`Station.reports_on_schedule`). A start that
finds the reporter running sets off no second pair of tickers.
-/

namespace WorkerPool

namespace Station

/-! ## When a collector has been running -/

/-- A stretch of time in which a collector has been running. -/
structure Span where
  start : Nat
  stop : Nat
deriving DecidableEq, Repr

/-- The multiples of a period since a span began, up to its end. -/
def Span.beats (period : Nat) (span : Span) : List Nat :=
  (List.range' 1 ((span.stop - span.start) / period)).map (span.start + · * period)

/-- When a ticker goes off in a span. -/
def Span.ticks (nanos : Nat) (span : Span) : List Nat :=
  Ticker.ticks nanos span.start span.start span.stop

/-- The span so far, of a collector that has been running since then. -/
def Span.sofar (clock : Nat) (since : Option Nat) : List Span :=
  since.toList.map (⟨·, clock⟩)

/-- Since when a collector is running after a command at this millisecond. -/
def Command.since (clock : Nat) (since : Option Nat) : Command → Option Nat
  | start true => some (since.getD clock)
  | stop => none
  | _ => since

/-- The span that a command at this millisecond ends. -/
def Command.ends (clock : Nat) (since : Option Nat) : Command → List Span
  | stop => Span.sofar clock since
  | _ => []

/-- Since when a collector is running after commands from this millisecond on. -/
def runningSince (clock : Nat) (since : Option Nat) : List Command → Option Nat
  | [] => since
  | first :: rest => runningSince (clock + first.millis) (first.since clock since) rest

/-- When a collector is running while commands are performed from this millisecond on; the last span
lasts until now if no stop has ended it. -/
def spans (clock : Nat) (since : Option Nat) : List Command → List Span
  | [] => Span.sofar clock since
  | first :: rest => first.ends clock since ++ spans (clock + first.millis) (first.since clock since) rest

/-- The milliseconds of the stops. -/
def stops (clock : Nat) : List Command → List Nat
  | [] => []
  | first :: rest => (if first = .stop then [clock] else []) ++ stops (clock + first.millis) rest

/-- A ticker of whole milliseconds goes off at the multiples of its period. -/
theorem Span.ticks_eq_beats {p : Nat} (span : Span) :
    span.ticks (p * nanosPerMilli) = span.beats p :=
  Ticker.ticks_of_millis span.start span.stop

/-- For a collector that is running, the span so far is the only one. -/
theorem Span.flatMap_sofar {α : Type} (clock start : Nat) (f : Span → List α) :
    (Span.sofar clock (some start)).flatMap f = f ⟨start, clock⟩ :=
  List.flatMap_singleton ..

/-- Of what belongs to the span so far nothing is lost by a command: either it ends the span, or the span
goes on. -/
theorem Command.flatMap_sofar {α : Type} (f : Span → List α) (nothing : ∀ clock, f ⟨clock, clock⟩ = [])
    (command : Command) (clock : Nat) (since : Option Nat) :
    (Span.sofar clock since).flatMap f = (command.ends clock since).flatMap f ++
      (Span.sofar clock (command.since clock since)).flatMap f := by
  cases command with
  | record | reportNow | advance => rfl
  | stop => exact (List.append_nil _).symm
  | start background =>
    cases background with
    | false => rfl
    | true =>
      cases since with
      | none =>
        have begins : (Span.sofar clock (some clock)).flatMap f = [] := by
          rw [Span.flatMap_sofar, nothing]
        exact begins.symm
      | some start => rfl

/-- No ticker goes off in a span that has just begun. -/
theorem Span.ticks_self (nanos clock : Nat) : Span.ticks nanos ⟨clock, clock⟩ = [] := by
  simp [Span.ticks, Ticker.ticks]

/-- Only a stop ends a span. -/
theorem Command.since_of_running (command : Command) {clock start : Nat} (goes_on : command ≠ .stop) :
    command.since clock (some start) = some start := by
  unfold Command.since
  split
  · rfl
  · exact absurd rfl goes_on
  · rfl

/-- A collector that is running stays so for a span that lasts until now at least. -/
theorem exists_span (clock start : Nat) (commands : List Command) :
    ∃ span ∈ spans clock (some start) commands, span.start = start ∧ clock ≤ span.stop := by
  induction commands generalizing clock with
  | nil => exact ⟨⟨start, clock⟩, List.mem_singleton_self _, rfl, Nat.le_refl _⟩
  | cons first rest ih =>
    by_cases ends : first = .stop
    · subst ends
      exact ⟨⟨start, clock⟩, List.mem_append_left _ (List.mem_singleton_self _), rfl, Nat.le_refl _⟩
    · obtain ⟨span, mem, begun, reaches⟩ := ih (clock + first.millis)
      rw [spans, first.since_of_running ends]
      exact ⟨span, List.mem_append_right _ mem, begun, Nat.le_trans (Nat.le_add_right ..) reaches⟩

end Station

/-! ## Tickers that go by the spans -/

/-- The period of the look-outs for the threshold, if there are any. -/
def ReportSettings.lookout (settings : ReportSettings) : Option Duration :=
  match settings.everyTasks with
  | some (_ + 1) => some settings.thresholdPoll
  | _ => none

-- stated for any function, as the kernel would else count a ticker's longest wait down to zero
theorem ReportSettings.bind_lookout {α : Type} (settings : ReportSettings) (set : Duration → Option α) :
    settings.lookout.bind set =
      match settings.everyTasks with
      | some (_ + 1) => set settings.thresholdPoll
      | _ => none := by
  unfold ReportSettings.lookout
  rcases settings.everyTasks with _ | _ | n <;> rfl

namespace Reporter

open Station (Command Span)

variable {r r' : Reporter} {since : Option Nat} {now due target : Nat}

/-- The ticker for the threshold is set off with its period, if there are to be look-outs. -/
theorem threshold_clocksAt (settings : ReportSettings) (now : Nat) :
    (clocksAt settings now).threshold = settings.lookout.bind (Ticker.startAt? now) :=
  (settings.bind_lookout (Ticker.startAt? now)).symm

/-- A reporter has its tickers since it has been running, and none while it is not running. -/
inductive OnTime (r : Reporter) : Option Nat → Nat → Prop
  | idle {now : Nat} (idle : r.clocks = none) : OnTime r none now
  | running {start now : Nat} {clocks : ReportClocks} (there : r.clocks = some clocks) (le : start ≤ now)
      (interval : Ticker.Keeps r.settings.interval start now clocks.interval)
      (threshold : Ticker.Keeps r.settings.lookout start now clocks.threshold) : OnTime r (some start) now

/-- A ticker that is there is among those that may be due. -/
theorem mem_dues {clocks : ReportClocks} {t : Ticker} (there : r.clocks = some clocks)
    (mem : t ∈ clocks.interval ∨ t ∈ clocks.threshold) : t.dueMillis ∈ r.dues := by
  rw [dues, tickers, there]
  refine List.mem_map_of_mem (List.mem_append.mpr ?_)
  exact mem.imp Option.mem_toList.mpr Option.mem_toList.mpr

namespace OnTime

/-- Only tickers and settings count for being on time. -/
theorem congr (onTime : r.OnTime since now) (clocks : r'.clocks = r.clocks)
    (settings : r'.settings = r.settings) : r'.OnTime since now := by
  cases onTime with
  | idle idle => exact .idle (clocks.trans idle)
  | running there le interval threshold =>
    exact .running (clocks.trans there) le (settings ▸ interval) (settings ▸ threshold)

/-- A collector has not been running since later than now. -/
theorem begun {start : Nat} (onTime : r.OnTime (some start) now) : start ≤ now := by
  cases onTime with | running _ le _ _ => exact le

/-- Nothing changes while no ticker is due. -/
theorem still (onTime : r.OnTime since now) (le : now ≤ target)
    (quiet : ∀ due ∈ r.dues, now < due → target < due) : r.OnTime since target := by
  cases onTime with
  | idle idle => exact .idle idle
  | @running start now clocks there begun interval threshold =>
    refine .running there (Nat.le_trans begun le)
      (interval.still begun le fun t mem => ?_) (threshold.still begun le fun t mem => ?_)
    · exact quiet _ (mem_dues there (.inl mem)) ((interval.isOn t mem).lt_dueMillis begun)
    · exact quiet _ (mem_dues there (.inr mem)) ((threshold.isOn t mem).lt_dueMillis begun)

/-- When tickers go off, the reporter stays on time. -/
theorem fire (onTime : r.OnTime since now) (le : now ≤ due) : (r.fire due).1.OnTime since due := by
  obtain ⟨_, _, writes, clocks⟩ := r.fire_writes due
  cases onTime with
  | idle idle => exact .idle (by rw [clocks, idle]; rfl)
  | running there begun interval threshold =>
    refine .running (by rw [clocks, there]; rfl) (Nat.le_trans begun le) ?_ ?_
    · exact writes.settings_eq ▸ interval.passed begun le
    · exact writes.settings_eq ▸ threshold.passed begun le

/-- As time passes, the reporter stays on time. The induction is on the moments at which tickers go off. -/
theorem passes {log : List (Nat × LogLine)} (onTime : r.OnTime since now)
    (passes : Passes now target r log r') (le : now ≤ target) : r'.OnTime since target := by
  induction passes with
  | still later => exact onTime.still le later
  | fire lt le' _ _ ih => exact ih (onTime.fire (Nat.le_of_lt lt)) le'

/-- A start keeps a reporter on time that is running, and sets one that is not off on time. -/
theorem start (onTime : r.OnTime since now) (background : Bool) :
    (r.start background now).1.OnTime (Command.since now since (.start background)) now := by
  cases onTime with
  | idle idle =>
    cases background with
    | false => exact .idle (r.start_of_idle idle false now)
    | true =>
      have set := r.start_of_idle idle true now
      have settings := r.settings_start true now
      refine .running set (Nat.le_refl now) ?_ ?_
      · exact settings ▸ Ticker.keeps_startAt r.settings.interval now
      · rw [threshold_clocksAt, settings]
        exact Ticker.keeps_startAt r.settings.lookout now
  | @running begun now clocks there le interval threshold =>
    have goes_on : Command.since now (some begun) (.start background) = some begun := by
      cases background <;> rfl
    rw [goes_on]
    exact .running (r.start_of_running there background now).1 le
      (r.settings_start background now ▸ interval) (r.settings_start background now ▸ threshold)

/-- Each command leaves the reporter on time. -/
theorem obeys {command : Command} {bulletins : List Bulletin} (onTime : r.OnTime since now)
    (obeys : r.Obeys now command bulletins r') :
    r'.OnTime (command.since now since) (now + command.millis) := by
  cases obeys with
  | record => exact onTime.congr rfl rfl
  | start background => exact onTime.start background
  | stop writes idle => exact .idle idle
  | reportNow writes clocks => exact onTime.congr clocks writes.settings_eq
  | advance passes => exact onTime.passes passes (Nat.le_add_right ..)

/-- Any number of commands leave the reporter on time. -/
theorem serves {commands : List Command} {bulletins : List Bulletin} (onTime : r.OnTime since now)
    (serves : r.Serves now commands bulletins r') :
    r'.OnTime (Station.runningSince now since commands) (now + Station.millisIn commands) := by
  induction serves generalizing since with
  | nil => exact onTime
  | cons first _ ih =>
    have later := ih (onTime.obeys first)
    rwa [Nat.add_assoc] at later

end OnTime

/-! ## What is written in the spans -/

open Bulletin (timesOf posted)

/-- The reports on the fixed interval are the ticks of its ticker. -/
theorem Passes.interval_ticks {log : List (Nat × LogLine)} {start finished : Nat} {d : Duration}
    (passes : Passes now target r log r') (onTime : r.OnTime (some start) now) (le : now ≤ target)
    (wanted : r.settings.interval = some d) (long : d ≠ .zero) :
    timesOf ReportReason.interval.label (Bulletin.ofLines finished log) =
      Ticker.ticks (Ticker.nanosOf d) start now target := by
  induction passes with
  | still later =>
    cases onTime with | running there begun interval _ =>
    obtain ⟨t, is_t, period, on⟩ := (wanted ▸ interval).exists_ticker long
    have early := later _ (mem_dues there (.inl is_t)) (on.lt_dueMillis begun)
    exact (Ticker.ticks_eq_nil (period ▸ on.periods_eq begun le early)).symm
  | @fire now due target r r' log lt le' first _ ih =>
    obtain ⟨reasons, fires, writes, _⟩ := r.fire_writes due
    have onTime' := onTime.fire (Nat.le_of_lt lt)
    cases onTime with | @running _ _ clocks there begun interval _ =>
    obtain ⟨t, is_t, period, on⟩ := (wanted ▸ interval).exists_ticker long
    have count : r.intervalCount due = t.countAt due := by
      simp [intervalCount, intervalTicker, there, is_t]
    have soon := first _ (mem_dues there (.inl is_t)) (on.lt_dueMillis begun)
    rw [on.dueMillis_eq] at soon
    have here : timesOf ReportReason.interval.label (posted due finished reasons) =
        Ticker.ticks (Ticker.nanosOf d) start now due := by
      rw [Bulletin.timesOf_posted, fires.count_interval, count, on.countAt_eq begun (Nat.le_of_lt lt),
        ← period, Ticker.ticks_eq_replicate on.period_pos (Nat.le_trans begun (Nat.le_of_lt lt)) soon]
    rw [Bulletin.ofLines_append, writes.bulletins, Bulletin.timesOf_append, here,
      ih onTime' le' (writes.settings_eq ▸ wanted),
      Ticker.ticks_append _ _ (Nat.le_of_lt lt) le']

section Commands

variable {command : Command} {commands : List Command} {bulletins : List Bulletin} {d : Duration}

-- stated for any function of a span, as the kernel would else count the ticks of one
/-- For any list made of a span to which time, as it passes, adds its reports on the interval: a command adds the
reports that it brings, to the span so far or to the one that it ends. -/
theorem Obeys.interval_sofar (obeys : r.Obeys now command bulletins r') (f : Span → List Nat)
    (nothing : ∀ clock, f ⟨clock, clock⟩ = []) (onTime : r.OnTime since now)
    (onward : ∀ {start ms : Nat} {log : List (Nat × LogLine)} {r' : Reporter}, since = some start →
      Passes now (now + ms) r log r' →
      f ⟨start, now⟩ ++ timesOf ReportReason.interval.label (Bulletin.ofLines r.counters.tasksProcessed log) =
        f ⟨start, now + ms⟩) :
    (Span.sofar now since).flatMap f ++ timesOf ReportReason.interval.label bulletins =
      (command.ends now since).flatMap f ++
        (Span.sofar (now + command.millis) (command.since now since)).flatMap f := by
  have kept := command.flatMap_sofar f nothing now since
  cases obeys with
  | record | start =>
    rw [show timesOf ReportReason.interval.label [] = [] from rfl, List.append_nil]
    exact kept
  | stop =>
    have none_ticked : r.settings.atStop.count .interval = 0 :=
      List.count_eq_zero.mpr fun mem => by cases ReportSettings.eq_final_of_mem_atStop mem
    rw [Bulletin.timesOf_posted, none_ticked, List.replicate_zero, List.append_nil]
    exact kept
  | reportNow =>
    have none_ticked : [ReportReason.manual].count .interval = 0 := by decide
    rw [Bulletin.timesOf_posted, none_ticked, List.replicate_zero, List.append_nil]
    exact kept
  | @advance ms _ _ passes =>
    cases since with
    | none =>
      cases onTime with | idle idle =>
      obtain ⟨rfl, _⟩ := passes.idle idle
      rfl
    | some start =>
      rw [Span.flatMap_sofar, onward rfl passes]
      exact (Span.flatMap_sofar (now + ms) start f).symm

/-- The reports on the interval that a command brings are the ticks that it adds to the span so far. -/
theorem Obeys.interval_ticks (obeys : r.Obeys now command bulletins r') (onTime : r.OnTime since now)
    (wanted : r.settings.interval = some d) (long : d ≠ .zero) :
    (Span.sofar now since).flatMap (Span.ticks (Ticker.nanosOf d)) ++
        timesOf ReportReason.interval.label bulletins =
      (command.ends now since).flatMap (Span.ticks (Ticker.nanosOf d)) ++
        (Span.sofar (now + command.millis) (command.since now since)).flatMap
          (Span.ticks (Ticker.nanosOf d)) := by
  refine obeys.interval_sofar _ (Span.ticks_self _) onTime fun {start ms log r'} runs passes => ?_
  subst runs
  rw [passes.interval_ticks onTime (Nat.le_add_right ..) wanted long]
  exact Ticker.ticks_append _ start onTime.begun (Nat.le_add_right now ms)

/-- The reports on the fixed interval are the ticks of the spans. -/
theorem Serves.interval_ticks (serves : r.Serves now commands bulletins r') (onTime : r.OnTime since now)
    (wanted : r.settings.interval = some d) (long : d ≠ .zero) :
    (Span.sofar now since).flatMap (Span.ticks (Ticker.nanosOf d)) ++
        timesOf ReportReason.interval.label bulletins =
      (Station.spans now since commands).flatMap (Span.ticks (Ticker.nanosOf d)) := by
  induction serves generalizing since with
  | nil => exact List.append_nil _
  | cons first _ ih =>
    have later := ih (onTime.obeys first) (first.settings_eq ▸ wanted)
    rw [Bulletin.timesOf_append, ← List.append_assoc, first.interval_ticks onTime wanted long,
      List.append_assoc, later, Station.spans, List.flatMap_append]

/-- The final report is written by the stop, if it is wanted. -/
theorem Obeys.final_times (obeys : r.Obeys now command bulletins r') :
    timesOf ReportReason.final.label bulletins =
      if r.settings.onStop then (if command = .stop then [now] else []) else [] := by
  cases obeys with
  | record | start | reportNow => simp [timesOf, posted, ReportReason.label]
  | stop =>
    rw [Bulletin.timesOf_posted, ReportSettings.atStop]
    cases r.settings.onStop <;> rfl
  | @advance _ log _ passes =>
    have none_final : ∀ b ∈ Bulletin.ofLines r.counters.tasksProcessed log,
        ¬ decide (b.reason = ReportReason.final.label) = true := by
      intro b mem final
      rcases (passes.within b mem).2 with sort | sort
      · exact absurd (sort.symm.trans (of_decide_eq_true final)) (by decide)
      · exact absurd (sort.symm.trans (of_decide_eq_true final)) (by decide)
    rw [timesOf, List.filter_eq_nil_iff.mpr none_final]
    simp

/-- There is one final report for each stop, if it is wanted. -/
theorem Serves.final_times (serves : r.Serves now commands bulletins r') :
    timesOf ReportReason.final.label bulletins =
      if r.settings.onStop then Station.stops now commands else [] := by
  induction serves with
  | nil => exact (ite_self _).symm
  | cons first _ ih =>
    rw [Bulletin.timesOf_append, first.final_times, ih, first.settings_eq, Station.stops]
    split <;> rfl

/-- The tickers only write while the reporter is running. -/
theorem Obeys.within (obeys : r.Obeys now command bulletins r') (onTime : r.OnTime since now) :
    ∀ b ∈ bulletins, b.Ticked →
      ∃ start, command.since now since = some start ∧ start < b.time ∧ b.time ≤ now + command.millis := by
  intro b mem ticked
  cases obeys with
  | record | start => cases mem
  | stop =>
    rcases ticked.imp (Bulletin.reason_mem mem) (Bulletin.reason_mem mem) with given | given
    · cases ReportSettings.eq_final_of_mem_atStop given
    · cases ReportSettings.eq_final_of_mem_atStop given
  | reportNow =>
    exact absurd (ticked.imp (Bulletin.reason_mem mem) (Bulletin.reason_mem mem)) (by decide)
  | advance passes =>
    cases onTime with
    | idle idle =>
      rw [(passes.idle idle).1] at mem
      cases mem
    | running _ begun =>
      obtain ⟨⟨after, before⟩, _⟩ := passes.within b mem
      exact ⟨_, rfl, Nat.lt_of_le_of_lt begun after, before⟩

/-- Whatever a ticker writes falls into a span in which the collector was running. -/
theorem Serves.within (serves : r.Serves now commands bulletins r') (onTime : r.OnTime since now) :
    ∀ b ∈ bulletins, b.Ticked →
      ∃ span ∈ Station.spans now since commands, span.start < b.time ∧ b.time ≤ span.stop := by
  induction serves generalizing since with
  | nil => exact List.forall_mem_nil _
  | @cons _ _ _ now command commands _ _ first _ ih =>
    intro b mem ticked
    rw [Station.spans]
    rcases List.mem_append.mp mem with mem | mem
    · obtain ⟨start, runs, after, before⟩ := first.within onTime b mem ticked
      obtain ⟨span, there, begun, reaches⟩ :=
        Station.exists_span (now + command.millis) start commands
      rw [runs]
      exact ⟨span, List.mem_append_right _ there, begun ▸ after, Nat.le_trans before reaches⟩
    · obtain ⟨span, there, inside⟩ := ih (onTime.obeys first) b mem ticked
      exact ⟨span, List.mem_append_right _ there, inside⟩

end Commands

end Reporter

/-- The tickers of a collector that reports. -/
def Collector.tickers : Collector → List Ticker
  | reporting r => r.tickers
  | _ => []

namespace Station

open Bulletin (timesOf)

/-- A period of whole milliseconds is kept up to the longest wait. -/
theorem nanosOf_millis {d : Duration} {p : Nat} (whole : d.toNanos = p * nanosPerMilli) :
    Ticker.nanosOf d = min p longestWait * nanosPerMilli := by
  rw [Ticker.nanosOf, whole, Nat.mul_min_mul_right]

variable {d : Duration} {p : Nat}

/-- The reports on the fixed interval are the beats of the spans in which the collector is running, where
an interval does not last longer than the longest wait there is. -/
theorem interval_times (name : String) (settings : ReportSettings) (opened : Nat) (commands : List Command)
    (wanted : settings.interval = some d) (whole : d.toNanos = p * nanosPerMilli) (pos : 0 < p) :
    timesOf ReportReason.interval.label ((Station.reporting name settings opened).bulletins 0 commands) =
      (spans opened none commands).flatMap (Span.beats (min p longestWait)) := by
  obtain ⟨_, _, serves⟩ := Station.perform_reporting opened (.new name settings opened) commands
  have long : d ≠ .zero := by
    rintro rfl
    rw [Duration.toNanos_zero] at whole
    exact Nat.ne_of_lt (Nat.mul_pos pos (by decide)) whole
  have fresh : (Reporter.new name settings opened).OnTime none opened := .idle rfl
  have ticked := serves.interval_ticks fresh wanted long
  have none_yet : Span.sofar opened none = [] := rfl
  rw [nanosOf_millis whole, funext Span.ticks_eq_beats, none_yet, List.flatMap_nil, List.nil_append] at ticked
  exact ticked

/-- Whatever the owner of a collector does, the reports on the fixed interval come at the beats of the
spans and at no other time, no ticker writes anything outside the spans, each stop writes the final report
if it is wanted, and a start that finds the collector running writes nothing and leaves the tickers as they
are. -/
theorem reports_on_schedule (name : String) (settings : ReportSettings) (opened : Nat)
    (commands : List Command) (wanted : settings.interval = some d) (whole : d.toNanos = p * nanosPerMilli)
    (pos : 0 < p) :
    let written := (Station.reporting name settings opened).bulletins 0 commands
    let reached := ((Station.reporting name settings opened).perform commands).1
    timesOf ReportReason.interval.label written =
        (spans opened none commands).flatMap (Span.beats (min p longestWait)) ∧
      (∀ b ∈ written, b.Ticked →
        ∃ span ∈ spans opened none commands, span.start < b.time ∧ b.time ≤ span.stop) ∧
      timesOf ReportReason.final.label written = (if settings.onStop then stops opened commands else []) ∧
      ((runningSince opened none commands).isSome → ∀ background,
        (reached.command (.start background)).2 = [] ∧
          (reached.command (.start background)).1.collector.tickers = reached.collector.tickers) := by
  intro written reached
  obtain ⟨r, reached_eq, serves⟩ := Station.perform_reporting opened (.new name settings opened) commands
  have fresh : (Reporter.new name settings opened).OnTime none opened := .idle rfl
  refine ⟨interval_times name settings opened commands wanted whole pos, serves.within fresh, serves.final_times,
    fun runs background => ?_⟩
  obtain ⟨start, runs⟩ := Option.isSome_iff_exists.mp runs
  have onTime := fresh.serves serves
  rw [runs] at onTime
  cases onTime with | running there =>
  obtain ⟨same, silent⟩ := r.start_of_running there background (opened + millisIn commands)
  rw [show reached = _ from reached_eq]
  refine ⟨congrArg (List.map _) silent, ?_⟩
  show (r.start background _).1.tickers = r.tickers
  rw [Reporter.tickers, Reporter.tickers, same, there]

/-- A restart sets the beats anew. -/
theorem reports_on_schedule_of_restart :
    let ten : Duration := { secs := 0, nanos := 10000000 }
    let settings : ReportSettings := { interval := some ten }
    let commands := [.start true, .advance 25, .stop, .advance 4, .start true, .advance 12]
    let written := (Station.reporting "pool" settings 0).bulletins 0 commands
    settings.interval = some ten ∧ ten.toNanos = 10 * nanosPerMilli ∧
      timesOf ReportReason.interval.label written = [10, 20, 39] ∧
      timesOf ReportReason.final.label written = [25] ∧ (runningSince 0 none commands).isSome := by
  intro ten settings commands written
  have whole : ten.toNanos = 10 * nanosPerMilli := by decide
  obtain ⟨beats, _, finals, _⟩ :=
    reports_on_schedule "pool" settings 0 commands rfl whole (by decide)
  exact ⟨rfl, whole, beats.trans (by decide), finals, by decide⟩

/-- An interval of `2 ^ 63` seconds is over after thirty years. -/
theorem beats_cut_short :
    let ages : Duration := { secs := 9223372036854775808, nanos := 0 }
    let settings : ReportSettings := { interval := some ages }
    let commands := [.start true, .advance 946080000000, .stop]
    ages.toNanos = 9223372036854775808000 * nanosPerMilli ∧
      timesOf ReportReason.interval.label ((Station.reporting "n" settings 0).bulletins 0 commands) =
        [946080000000] ∧
      (spans 0 none commands).flatMap (Span.beats 9223372036854775808000) = [] := by
  intro ages settings commands
  have whole : ages.toNanos = 9223372036854775808000 * nanosPerMilli := by decide
  have times := interval_times "n" settings 0 commands rfl whole (by decide)
  exact ⟨whole, times.trans (by decide), by decide⟩

end Station

end WorkerPool
