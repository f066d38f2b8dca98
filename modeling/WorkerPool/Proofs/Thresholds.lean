import WorkerPool.Proofs.Schedules

/-!
# Reports for the threshold

A reporter may be told to report whenever `n` more tasks have finished. Its ticker looks out for that, and
it does so with two promises. A threshold report is never early: `n` tasks have finished since the report
before it, whatever that was written for, so that no task counts towards two of them
(`Station.threshold_reports_spaced`). And none is missed: once `n` tasks have finished since the last
report, there is another one before the look-out's period is over (`Station.backlog_is_reported`). The
second promise is kept by a ticker; with a period of zero there is none, and no threshold report either.
-/

namespace WorkerPool

/-- How many tasks a collector remembers to have finished at its last report. -/
def Collector.mark : Collector → Nat
  | reporting r => r.lastReported
  | _ => 0

namespace Station

variable {n : Nat}

/-- A threshold report is written when `n` tasks have finished since the report before it. What a collector
remembers of its last report is how many tasks had finished by then, which never becomes less, and so no
task counts towards two threshold reports. No more tasks have finished than there were commands, so that a word
of 64 bits holds all of these numbers for as long as it holds the number of the commands. -/
theorem threshold_reports_spaced (name : String) (settings : ReportSettings) (opened : Nat)
    (commands : List Command) (every : settings.everyTasks = some n) (pos : 0 < n) :
    let written := (Station.reporting name settings opened).bulletins 0 commands
    let mark := ((Station.reporting name settings opened).perform commands).1.collector.mark
    (∀ before b after, written = before ++ b :: after → b.reason = ReportReason.taskThreshold.label →
        Bulletin.markAfter 0 before + n ≤ b.finished) ∧
      (mark = Bulletin.markAfter 0 written ∧ mark ≤ finishedIn commands ∧ finishedIn commands ≤ commands.length ∧
        (written.map (·.finished)).Pairwise (· ≤ ·) ∧
        ∀ more, mark ≤
          ((Station.reporting name settings opened).perform (commands ++ more)).1.collector.mark) ∧
      n * written.countP (·.reason = ReportReason.taskThreshold.label) ≤ finishedIn commands := by
  intro written mark
  obtain ⟨r, reached, serves⟩ := Station.perform_reporting opened (.new name settings opened) commands
  have spaced : Bulletin.Spaced n 0 written := serves.spaced every pos (Nat.le_refl 0)
  have mark_eq : mark = r.lastReported := congrArg (·.collector.mark) reached
  have finished : r.counters.tasksProcessed = finishedIn commands :=
    serves.tasksProcessed_eq.trans (Nat.zero_add _)
  have few : r.lastReported ≤ finishedIn commands := finished ▸ serves.lastReported_le (Nat.le_refl 0)
  have marked : r.lastReported = Bulletin.markAfter 0 written := serves.lastReported_eq
  refine ⟨fun before b after split threshold => ?_,
    ⟨mark_eq.trans marked, mark_eq ▸ few, List.countP_le_length, ?_, fun more => ?_⟩, ?_⟩
  · rw [split] at spaced
    exact spaced.apart threshold
  · exact (List.pairwise_cons.mp spaced.pairwise).2
  · -- More commands go on from the mark that these have left, and spaced reports never set it back.
    obtain ⟨r', reached', serves'⟩ := Station.perform_reporting (opened + millisIn commands) r more
    have still : Reporter.lastReported r ≤ r'.lastReported := by
      have later := serves'.spaced (serves.settings_eq ▸ every) pos (finished ▸ few)
      exact serves'.lastReported_eq ▸ later.le_markAfter
    rw [perform_append, Station.reporting, reached, reached', mark_eq]
    exact still
  · have counted := spaced.count_le
    omega

/-- Three tasks make one threshold report of two. -/
theorem threshold_reports_spaced_of_three :
    let settings : ReportSettings :=
      { interval := none, everyTasks := some 2, thresholdPoll := { secs := 0, nanos := 10000000 } }
    let commands := [.start true, .record (.taskCompleted "w" .zero), .record (.taskFailed "w" .zero),
      .advance 10, .record (.taskCompleted "w" .zero), .advance 10, .reportNow]
    let written := (Station.reporting "pool" settings 0).bulletins 0 commands
    settings.everyTasks = some 2 ∧ finishedIn commands = 3 ∧
      written = [⟨10, "task_threshold", 2⟩, ⟨20, "manual", 3⟩] ∧
      2 * written.countP (·.reason = ReportReason.taskThreshold.label) ≤ finishedIn commands := by
  intro settings commands written
  obtain ⟨_, _, few⟩ :=
    threshold_reports_spaced "pool" settings 0 commands rfl (by decide)
  exact ⟨rfl, by decide, by decide +kernel, few⟩

end Station

namespace Reporter

open Station (Command)

variable {r r' : Reporter} {since : Option Nat} {now start target nanos : Nat} {d : Duration}

/-- There are look-outs for a threshold that is not zero. -/
theorem lookout_of_every {settings : ReportSettings} {n : Nat} (every : settings.everyTasks = some n)
    (pos : 0 < n) : settings.lookout = some settings.thresholdPoll := by
  unfold ReportSettings.lookout
  rw [every]
  cases n with
  | zero => cases pos
  | succ n => rfl

/-- Enough tasks stay finished if no report is written. -/
theorem Writes.thresholdReached {lines : List LogLine} (silent : r.Writes now [] lines r') :
    r'.thresholdReached = r.thresholdReached := by
  rw [Reporter.thresholdReached, silent.settings_eq, silent.counters_eq, silent.lastReported_eq]
  rfl

/-- If enough tasks have finished there is a report by the next look-out. -/
theorem Passes.noticed {log : List (Nat × LogLine)} {finished : Nat} (passes : Passes now target r log r')
    (onTime : r.OnTime (some start) now) (le : now ≤ target) (looks : r.settings.lookout = some d)
    (long : d ≠ .zero) (period : Ticker.nanosOf d = nanos) (reached : r.thresholdReached = true)
    (gone_by : Ticker.periods nanos start now < Ticker.periods nanos start target) :
    Bulletin.ofLines finished log ≠ [] := by
  induction passes with
  | still later =>
    cases onTime with | running there begun _ threshold =>
    obtain ⟨t, is_t, same, on⟩ := (looks ▸ threshold).exists_ticker long
    have early := later _ (mem_dues there (.inr is_t)) (on.lt_dueMillis begun)
    have none_over := on.periods_eq begun le early
    rw [same, period] at none_over
    omega
  | @fire now due target r r' log lt le' _ _ ih =>
    obtain ⟨reasons, fires, writes, _⟩ := r.fire_writes due
    have onTime' := onTime.fire (Nat.le_of_lt lt)
    cases onTime with | running there begun _ threshold =>
    obtain ⟨t, is_t, same, on⟩ := (looks ▸ threshold).exists_ticker long
    rw [Bulletin.ofLines_append, writes.bulletins]
    intro silent
    obtain ⟨none_here, none_later⟩ := List.append_eq_nil_iff.mp silent
    obtain rfl : reasons = [] := List.map_eq_nil_iff.mp none_here
    -- the look-out would have noticed, so it is still to come
    have not_yet : t.isDue due = false := by
      cases goes_off : t.isDue due with
      | false => rfl
      | true =>
        have noticed : r.notices due = true := by
          simp [notices, thresholdTicker, there, is_t, goes_off, reached]
        exact absurd rfl (fires.noticed noticed)
    have none_over : Ticker.periods nanos start due = Ticker.periods nanos start now := by
      have count := on.countAt_eq begun (Nat.le_of_lt lt)
      have mono := Ticker.periods_mono nanos start (Nat.le_of_lt lt)
      have := of_decide_eq_false not_yet
      rw [same, period] at count
      omega
    exact ih onTime' le' (writes.settings_eq ▸ looks) (writes.thresholdReached ▸ reached) (by omega)
      none_later

/-- Without look-outs no report is written for the threshold. -/
theorem Passes.unlooked {log : List (Nat × LogLine)} {finished : Nat} (passes : Passes now target r log r')
    (onTime : r.OnTime since now) (le : now ≤ target) (short : ∀ d ∈ r.settings.lookout, d = .zero) :
    ∀ b ∈ Bulletin.ofLines finished log, b.reason ≠ ReportReason.taskThreshold.label := by
  induction passes with
  | still => exact List.forall_mem_nil _
  | @fire now due target r r' log lt le' _ _ ih =>
    obtain ⟨reasons, fires, writes, _⟩ := r.fire_writes due
    have none_there : r.thresholdTicker = none := by
      cases onTime with
      | idle idle => rw [thresholdTicker, idle]; rfl
      | running there _ _ threshold => rw [thresholdTicker, there]; exact threshold.eq_none short
    rw [Bulletin.ofLines_append, writes.bulletins]
    intro b mem threshold
    rcases List.mem_append.mp mem with mem | mem
    · have looked := fires.looked (Bulletin.reason_mem mem threshold)
      rw [none_there] at looked
      cases looked
    · exact ih (onTime.fire (Nat.le_of_lt lt)) le' (writes.settings_eq ▸ short) b mem threshold

section Commands

variable {command : Command} {commands : List Command} {bulletins : List Bulletin}

/-- Enough tasks stay finished if nothing is reported. -/
theorem Obeys.thresholdReached (silent : r.Obeys now command [] r') (reached : r.thresholdReached = true) :
    r'.thresholdReached = true := by
  have same : r'.lastReported = r.lastReported := silent.lastReported_eq
  revert reached
  rw [Reporter.thresholdReached, Reporter.thresholdReached, silent.settings_eq, silent.tasksProcessed_eq, same]
  cases r.settings.everyTasks with
  | none => exact id
  | some tasks =>
    simp only [decide_eq_true_eq]
    omega

/-- A command in which a look-out falls does not go without a report if enough tasks have finished before it. -/
theorem Obeys.noticed (obeys : r.Obeys now command bulletins r') (onTime : r.OnTime (some start) now)
    (looks : r.settings.lookout = some d) (long : d ≠ .zero) (period : Ticker.nanosOf d = nanos)
    (reached : r.thresholdReached = true)
    (gone_by : Ticker.periods nanos start now < Ticker.periods nanos start (now + command.millis)) :
    bulletins ≠ [] := by
  cases obeys with
  | advance passes => exact passes.noticed onTime (Nat.le_add_right ..) looks long period reached gone_by
  | record | start | stop | reportNow => exact absurd gone_by (Nat.lt_irrefl _)

/-- Nor do any number of commands, as long as none of them stops the collector. A command that reports nothing
leaves the mark where it was, so that enough tasks have still finished for the next. -/
theorem Serves.noticed (serves : r.Serves now commands bulletins r') (onTime : r.OnTime (some start) now)
    (looks : r.settings.lookout = some d) (long : d ≠ .zero) (period : Ticker.nanosOf d = nanos)
    (goes_on : .stop ∉ commands) (reached : r.thresholdReached = true)
    (gone_by : Ticker.periods nanos start now < Ticker.periods nanos start (now + Station.millisIn commands)) :
    bulletins ≠ [] := by
  induction serves with
  | nil => exact absurd gone_by (Nat.lt_irrefl _)
  | @cons r r' r'' now command commands bulletins more first _ ih =>
    have onTime' := onTime.obeys first
    rw [command.since_of_running (List.ne_of_not_mem_cons goes_on).symm] at onTime'
    intro silent
    obtain ⟨rfl, later_silent⟩ := List.append_eq_nil_iff.mp silent
    by_cases soon : Ticker.periods nanos start now < Ticker.periods nanos start (now + command.millis)
    · exact first.noticed onTime looks long period reached soon rfl
    · rw [Station.millisIn_cons, ← Nat.add_assoc] at gone_by
      exact ih onTime' (first.settings_eq ▸ looks) (List.not_mem_of_not_mem_cons goes_on)
        (first.thresholdReached reached) (by omega) later_silent

/-- Without look-outs no command brings a report on the threshold. -/
theorem Obeys.unlooked (obeys : r.Obeys now command bulletins r') (onTime : r.OnTime since now)
    (short : ∀ d ∈ r.settings.lookout, d = .zero) :
    ∀ b ∈ bulletins, b.reason ≠ ReportReason.taskThreshold.label := by
  intro b mem
  cases obeys with
  | record | start => cases mem
  | stop =>
    intro threshold
    cases ReportSettings.eq_final_of_mem_atStop (Bulletin.reason_mem mem threshold)
  | reportNow => exact mt (Bulletin.reason_mem mem) (by decide)
  | advance passes => exact passes.unlooked onTime (Nat.le_add_right ..) short b mem

/-- Nor do any number of commands. -/
theorem Serves.unlooked (serves : r.Serves now commands bulletins r') (onTime : r.OnTime since now)
    (short : ∀ d ∈ r.settings.lookout, d = .zero) :
    ∀ b ∈ bulletins, b.reason ≠ ReportReason.taskThreshold.label := by
  induction serves generalizing since with
  | nil => exact List.forall_mem_nil _
  | cons first _ ih =>
    intro b mem
    rcases List.mem_append.mp mem with mem | mem
    · exact first.unlooked onTime short b mem
    · exact ih (onTime.obeys first) (first.settings_eq ▸ short) b mem

end Commands

end Reporter

namespace Station

variable {n : Nat}

/-- No threshold is missed: once a collector is running and `n` tasks have finished since the last report,
there is another report by the time that the period of the look-outs has passed, if it is not stopped
meanwhile. With a period of zero there is no look-out, and no threshold report at all. -/
theorem backlog_is_reported (name : String) (settings : ReportSettings) (opened : Nat)
    (before later : List Command) (every : settings.everyTasks = some n) (pos : 0 < n) :
    let written := (Station.reporting name settings opened).bulletins 0
    (settings.thresholdPoll ≠ .zero → (runningSince opened none before).isSome →
        Bulletin.markAfter 0 (written before) + n ≤ finishedIn before → .stop ∉ later →
        max settings.thresholdPoll.toNanos nanosPerMilli ≤ millisIn later * nanosPerMilli →
        (written before).length < (written (before ++ later)).length) ∧
      (settings.thresholdPoll = .zero →
        ∀ b ∈ written before, b.reason ≠ ReportReason.taskThreshold.label) := by
  intro written
  obtain ⟨r, reached, serves⟩ := Station.perform_reporting opened (.new name settings opened) before
  have fresh : (Reporter.new name settings opened).OnTime none opened := .idle rfl
  have looks : settings.lookout = some settings.thresholdPoll := Reporter.lookout_of_every every pos
  refine ⟨fun long runs backlog no_stop enough => ?_, fun none_long => ?_⟩
  · obtain ⟨start, runs⟩ := Option.isSome_iff_exists.mp runs
    have onTime := fresh.serves serves
    rw [runs] at onTime
    -- What comes later is served by the reporter that the earlier commands have left, with its backlog.
    obtain ⟨_, _, serves'⟩ := Station.perform_reporting (opened + millisIn before) r later
    have finished : r.counters.tasksProcessed = 0 + finishedIn before := serves.tasksProcessed_eq
    have marked : r.lastReported = Bulletin.markAfter 0 (written before) := serves.lastReported_eq
    have backlogged : r.thresholdReached = true := by
      have every' : r.settings.everyTasks = some n := serves.settings_eq ▸ every
      rw [Reporter.thresholdReached, every', decide_eq_true_eq]
      omega
    -- A look-out falls into the time that passes, since it is no shorter than their period.
    have soon : Ticker.nanosOf settings.thresholdPoll ≤ millisIn later * nanosPerMilli :=
      Nat.le_trans (Nat.min_le_left ..) (Nat.le_trans (Nat.le_max_left ..) enough)
    have gone_by := Ticker.periods_lt (Ticker.nanosOf_pos long) onTime.begun soon
    have noticed := serves'.noticed onTime (serves.settings_eq ▸ looks) long rfl no_stop backlogged gone_by
    have joined : written (before ++ later) = written before ++ _ := bulletins_append _ 0 before later
    rw [joined, Station.reporting, reached, ← finished, List.length_append]
    exact Nat.lt_add_of_pos_right (List.length_pos_iff.mpr noticed)
  · refine serves.unlooked fresh fun d mem => ?_
    have same : d = settings.thresholdPoll := (Option.mem_some.mp (looks ▸ mem)).symm
    exact same.trans none_long

/-- A look-out every ten milliseconds sees two tasks that have finished, though a third comes meanwhile. -/
theorem backlog_is_reported_of_two :
    let settings : ReportSettings :=
      { interval := none, everyTasks := some 2, thresholdPoll := { secs := 0, nanos := 10000000 } }
    let before := [.start true, .advance 3, .record (.taskCompleted "w" .zero), .record (.taskFailed "w" .zero)]
    let later := [.advance 4, .record (.taskCompleted "w" .zero), .start true, .advance 6]
    let written := (Station.reporting "pool" settings 0).bulletins 0
    settings.everyTasks = some 2 ∧ settings.thresholdPoll ≠ .zero ∧ written before = [] ∧
      (written before).length < (written (before ++ later)).length := by
  intro settings before later written
  obtain ⟨noticed, _⟩ :=
    backlog_is_reported "pool" settings 0 before later rfl (by decide)
  have silent : written before = [] := by decide +kernel
  refine ⟨rfl, by decide, silent, noticed (by decide) (by decide) ?_ (by decide) (by decide)⟩
  rw [show (Station.reporting "pool" settings 0).bulletins 0 before = [] from silent]
  decide

end Station

end WorkerPool
