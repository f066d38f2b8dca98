import WorkerPool.Proofs.Bulletins
import WorkerPool.Proofs.Ticking

/-!
# What a reporter writes

Whatever is done to a reporter at one moment, it writes reports for some reasons, one after the other, and
remembers how many tasks had finished at the last of them (`Reporter.Writes`). Which reasons its tickers
give is said by `Reporter.Fires`. While time passes the tickers go off at one due millisecond after the
other (`Reporter.Passes`), and `Reporter.Obeys` says for each command of the owner what the reporter
comes to and which bulletins it writes: `Station.command_reporting` is the only place that looks into
`Station.command`.
-/

namespace WorkerPool

namespace Bulletin

/-- Reports written at one moment, for these reasons. -/
def posted (now finished : Nat) (reasons : List ReportReason) : List Bulletin :=
  reasons.map fun reason => ⟨now, reason.label, finished⟩

variable {now finished : Nat} {reasons : List ReportReason}

/-- Reports for one list of reasons and then for another are reports for both. -/
theorem posted_append (now finished : Nat) (reasons more : List ReportReason) :
    posted now finished (reasons ++ more) = posted now finished reasons ++ posted now finished more :=
  List.map_append ..

/-- Once something has been reported, the mark stands at the tasks finished by then. -/
theorem markAfter_posted (mark now finished : Nat) (reasons : List ReportReason) :
    markAfter mark (posted now finished reasons) = if reasons = [] then mark else finished := by
  induction reasons generalizing mark with
  | nil => rfl
  | cons reason rest ih =>
    have first : markAfter mark (posted now finished (reason :: rest)) =
        markAfter finished (posted now finished rest) := markAfter_cons ..
    rw [first, ih]
    split <;> rfl

/-- A mark is never beyond the tasks finished by then. -/
theorem markAfter_posted_le {mark : Nat} (le : mark ≤ finished) :
    markAfter mark (posted now finished reasons) ≤ finished := by
  rw [markAfter_posted]
  split
  · exact le
  · exact Nat.le_refl finished

end Bulletin

/-- Reasons are told apart by what they are called. -/
theorem ReportReason.label_inj {a b : ReportReason} (h : a.label = b.label) : a = b := by
  revert h
  cases a <;> cases b <;> decide

/-- A reason is reported as often as it is given, each time at that millisecond. -/
theorem Bulletin.timesOf_posted (reason : ReportReason) (now finished : Nat) (reasons : List ReportReason) :
    timesOf reason.label (posted now finished reasons) = List.replicate (reasons.count reason) now := by
  induction reasons with
  | nil => rfl
  | cons first rest ih =>
    have split : posted now finished (first :: rest) =
        [⟨now, first.label, finished⟩] ++ posted now finished rest := rfl
    rw [split, timesOf_append, ih, List.count_cons]
    by_cases same : first = reason
    · simp [timesOf, same, List.replicate_succ]
    · have apart : first.label ≠ reason.label := fun h => same (ReportReason.label_inj h)
      simp [timesOf, same, apart]

/-- A report carries a reason that it was written for. -/
theorem Bulletin.reason_mem {b : Bulletin} {now finished : Nat} {reasons : List ReportReason}
    (mem : b ∈ posted now finished reasons) {reason : ReportReason} (same : b.reason = reason.label) :
    reason ∈ reasons := by
  obtain ⟨given, there, rfl⟩ := List.mem_map.mp mem
  exact ReportReason.label_inj same ▸ there

namespace Reporter

open Bulletin (posted markAfter Spaced)

variable {r r' r'' : Reporter} {now due target : Nat} {reasons more : List ReportReason}
  {lines lines' : List LogLine}

/-- The reason can be read off the line of a report again. -/
theorem reason?_reportLine (name : String) (reason : ReportReason) (s : MetricsSnapshot) :
    (reportLine name reason s).reason? = some reason.label := by
  simp [LogLine.reason?, reportLine, List.lookup_cons]

/-! ## Reports at one moment -/

/-- At millisecond `now` the reporter `r` wrote a report for each of these reasons and became `r'`. -/
structure Writes (r : Reporter) (now : Nat) (reasons : List ReportReason) (lines : List LogLine)
    (r' : Reporter) : Prop where
  lines_eq : lines = reasons.map fun reason => reportLine r.name reason (r.counters.snapshot now)
  name_eq : r'.name = r.name
  settings_eq : r'.settings = r.settings
  counters_eq : r'.counters = r.counters
  lastReported_eq : r'.lastReported =
    markAfter r.lastReported (posted now r.counters.tasksProcessed reasons)
  spaced {n : Nat} (every : r.settings.everyTasks = some n) (pos : 0 < n)
    (le : r.lastReported ≤ r.counters.tasksProcessed) :
    Spaced n r.lastReported (posted now r.counters.tasksProcessed reasons)

namespace Writes

theorem refl (r : Reporter) (now : Nat) : r.Writes now [] [] r :=
  ⟨rfl, rfl, rfl, rfl, rfl, fun _ _ _ => trivial⟩

/-- Reports and then more reports at the same millisecond. The second lot is spaced from the mark that the first
has left, which the first does not put beyond the tasks finished. -/
theorem trans (first : r.Writes now reasons lines r') (second : r'.Writes now more lines' r'') :
    r.Writes now (reasons ++ more) (lines ++ lines') r'' where
  lines_eq := by
    rw [List.map_append, first.lines_eq, second.lines_eq, first.name_eq, first.counters_eq]
  name_eq := second.name_eq.trans first.name_eq
  settings_eq := second.settings_eq.trans first.settings_eq
  counters_eq := second.counters_eq.trans first.counters_eq
  lastReported_eq := by
    rw [Bulletin.posted_append, Bulletin.markAfter_append, second.lastReported_eq, first.counters_eq,
      first.lastReported_eq]
  spaced every pos le := by
    have le' : r'.lastReported ≤ r'.counters.tasksProcessed := by
      rw [first.lastReported_eq, first.counters_eq]
      exact Bulletin.markAfter_posted_le le
    have later := second.spaced (first.settings_eq ▸ every) pos le'
    rw [first.lastReported_eq, first.counters_eq] at later
    rw [Bulletin.posted_append]
    exact (first.spaced every pos le).append later

/-- Tickers are not looked at. -/
theorem of_clocks {clocks : Option ReportClocks} (h : { r with clocks }.Writes now reasons lines r') :
    r.Writes now reasons lines r' :=
  ⟨h.lines_eq, h.name_eq, h.settings_eq, h.counters_eq, h.lastReported_eq, h.spaced⟩

/-- Read back from the log, these reports are the bulletins of their reasons. -/
theorem bulletins (h : r.Writes now reasons lines r') (finished : Nat) :
    Bulletin.ofLines finished (lines.map (now, ·)) = posted now finished reasons := by
  rw [h.lines_eq]
  simp [Bulletin.ofLines, posted, List.filterMap_map, Function.comp_def, reason?_reportLine]

end Writes

/-- One report; for the threshold it is written only if that is reached. -/
theorem writes_report (r : Reporter) (now : Nat) (reason : ReportReason)
    (reached : reason = .taskThreshold → r.thresholdReached = true) :
    r.Writes now [reason] (r.report reason now).2 (r.report reason now).1 where
  lines_eq := rfl
  name_eq := rfl
  settings_eq := rfl
  counters_eq := rfl
  lastReported_eq := rfl
  spaced {n} every pos le := by
    refine ⟨⟨le, fun threshold => ?_⟩, trivial⟩
    have enough := reached (ReportReason.label_inj threshold)
    simp only [thresholdReached, every, decide_eq_true_eq] at enough
    show r.lastReported + n ≤ r.counters.tasksProcessed
    omega

theorem writes_reportTimes (r : Reporter) (now times : Nat) :
    r.Writes now (List.replicate times .interval) (r.reportTimes now times).2
      (r.reportTimes now times).1 := by
  induction times generalizing r with
  | zero => exact .refl r now
  | succ times ih => exact (r.writes_report now .interval (by simp)).trans (ih _)

/-- The ticker of the fixed interval. -/
def intervalTicker (r : Reporter) : Option Ticker :=
  r.clocks.bind (·.interval)

/-- The ticker that looks out for the threshold. -/
def thresholdTicker (r : Reporter) : Option Ticker :=
  r.clocks.bind (·.threshold)

/-- How often the interval ticker goes off. -/
def intervalCount (r : Reporter) (now : Nat) : Nat :=
  (r.intervalTicker.map (·.countAt now)).getD 0

/-- Whether the threshold ticker goes off and finds that enough tasks have finished. -/
def notices (r : Reporter) (now : Nat) : Bool :=
  r.thresholdTicker.any (·.isDue now) && r.thresholdReached

/-- The interval ticker writes a report each time it goes off, and only that ticker is moved on. -/
theorem fireInterval_writes (r : Reporter) (now : Nat) :
    r.Writes now (List.replicate (r.intervalCount now) .interval) (r.fireInterval now).2
        (r.fireInterval now).1 ∧
      (r.fireInterval now).1.clocks =
        r.clocks.map fun clocks => { clocks with interval := clocks.interval.map (·.passed now) } := by
  have clocks_reportTimes (r : Reporter) (times : Nat) : (r.reportTimes now times).1.clocks = r.clocks := by
    induction times generalizing r with
    | zero => rfl
    | succ times ih => exact ih _
  cases clocks : r.clocks with
  | none =>
    simp only [fireInterval, intervalCount, intervalTicker, clocks]
    exact ⟨.refl r now, rfl⟩
  | some both =>
    obtain ⟨_ | ticker, threshold⟩ := both
    · simp only [fireInterval, intervalCount, intervalTicker, clocks]
      exact ⟨.refl r now, rfl⟩
    · simp only [fireInterval, intervalCount, intervalTicker, clocks]
      exact ⟨(writes_reportTimes _ now _).of_clocks, clocks_reportTimes ..⟩

/-- The threshold ticker writes a report if it goes off and enough tasks have finished, and only that ticker is
moved on. -/
theorem fireThreshold_writes (r : Reporter) (now : Nat) :
    r.Writes now (if r.notices now then [.taskThreshold] else []) (r.fireThreshold now).2
        (r.fireThreshold now).1 ∧
      (r.fireThreshold now).1.clocks =
        r.clocks.map fun clocks => { clocks with threshold := clocks.threshold.map (·.passed now) } := by
  cases clocks : r.clocks with
  | none =>
    simp only [fireThreshold, notices, thresholdTicker, clocks]
    exact ⟨.refl r now, rfl⟩
  | some both =>
    obtain ⟨interval, _ | ticker⟩ := both
    · simp only [fireThreshold, notices, thresholdTicker, clocks]
      exact ⟨.refl r now, rfl⟩
    · simp only [fireThreshold, notices, thresholdTicker, clocks, Option.bind_some, Option.any_some]
      split
      · next noticed =>
        have reached := (Bool.and_eq_true_iff.mp noticed).2
        exact ⟨(writes_report { r with clocks := some ⟨interval, some (ticker.passed now)⟩ } now .taskThreshold
          fun _ => reached).of_clocks, rfl⟩
      · exact ⟨(Writes.refl _ now).of_clocks, rfl⟩

/-- What the tickers give as reasons at a millisecond: one report each time that the interval ticker
goes off, none for the threshold unless its ticker goes off, and some report if that finds enough tasks
finished. -/
structure Fires (r : Reporter) (now : Nat) (reasons : List ReportReason) : Prop where
  sort : ∀ reason ∈ reasons, reason = .interval ∨ reason = .taskThreshold
  count_interval : reasons.count .interval = r.intervalCount now
  looked : .taskThreshold ∈ reasons → r.thresholdTicker.any (·.isDue now) = true
  noticed (notices : r.notices now = true) : reasons ≠ []

/-- Reports on the interval and, if the look-out `looks`, one on the threshold, in whichever order. -/
theorem Fires.of_perm {r : Reporter} {now : Nat} {reasons : List ReportReason} {looks : Bool}
    (perm : reasons.Perm (List.replicate (r.intervalCount now) .interval ++
      if looks then [.taskThreshold] else []))
    (looked : looks = true → r.thresholdTicker.any (·.isDue now) = true)
    (noticed : r.notices now = true → reasons ≠ []) : r.Fires now reasons := by
  have either : ∀ reason ∈ reasons, reason = .interval ∨ reason = .taskThreshold ∧ looks = true := by
    intro reason mem
    rcases List.mem_append.mp (perm.mem_iff.mp mem) with mem | mem
    · exact .inl (List.eq_of_mem_replicate mem)
    · cases looks with
      | true => exact .inr ⟨List.mem_singleton.mp mem, rfl⟩
      | false => cases mem
  constructor
  case sort => exact fun reason mem => (either reason mem).imp_right And.left
  case count_interval =>
    have other : (if looks then [ReportReason.taskThreshold] else []).count .interval = 0 := by
      cases looks <;> decide
    rw [perm.count_eq, List.count_append, List.count_replicate_self, other, Nat.add_zero]
  case looked =>
    intro mem
    rcases either _ mem with interval | ⟨-, looks⟩
    · cases interval
    · exact looked looks
  case noticed => exact noticed

/-- At any millisecond the reporter writes a report for each of the reasons that its tickers give, whichever of
them comes first, and both tickers are moved on. -/
theorem fire_writes (r : Reporter) (now : Nat) :
    ∃ reasons, r.Fires now reasons ∧ r.Writes now reasons (r.fire now).2 (r.fire now).1 ∧
      (r.fire now).1.clocks = r.clocks.map fun clocks =>
        ⟨clocks.interval.map (·.passed now), clocks.threshold.map (·.passed now)⟩ := by
  unfold fire
  split
  · obtain ⟨first, clocks⟩ := r.fireThreshold_writes now
    obtain ⟨second, clocks'⟩ := (r.fireThreshold now).1.fireInterval_writes now
    have same : (r.fireThreshold now).1.intervalCount now = r.intervalCount now := by
      simp only [intervalCount, intervalTicker, clocks, Option.bind_map, Function.comp_def]
    rw [same] at second
    refine ⟨_, .of_perm List.perm_append_comm (fun noticed => ?_) (fun notices => ?_), first.trans second, ?_⟩
    · exact (Bool.and_eq_true_iff.mp noticed).1
    · simp [notices]
    · rw [clocks', clocks, Option.map_map]
      rfl
  · obtain ⟨first, clocks⟩ := r.fireInterval_writes now
    obtain ⟨second, clocks'⟩ := (r.fireInterval now).1.fireThreshold_writes now
    have same : (r.fireInterval now).1.thresholdTicker = r.thresholdTicker := by
      simp only [thresholdTicker, clocks, Option.bind_map, Function.comp_def]
    refine ⟨_, .of_perm (.refl _) (fun noticed => ?_) (fun notices => ?_), first.trans second, ?_⟩
    · exact same ▸ (Bool.and_eq_true_iff.mp noticed).1
    · -- without a report on the interval there is still as much to notice
      cases count : r.intervalCount now with
      | succ count => simp [List.replicate_succ]
      | zero =>
        have silent := first.lastReported_eq
        simp only [count, List.replicate_zero, posted, List.map_nil, Bulletin.markAfter_nil] at silent
        have still : (r.fireInterval now).1.notices now = true := by
          rw [← notices]
          simp only [Reporter.notices, same, thresholdReached, first.settings_eq, first.counters_eq, silent]
        simp [still]
    · rw [clocks', clocks, Option.map_map]
      rfl

/-- Reports count nothing. -/
theorem counters_fire (r : Reporter) (now : Nat) : (r.fire now).1.counters = r.counters := by
  obtain ⟨_, _, writes, _⟩ := r.fire_writes now
  exact writes.counters_eq

/-! ## Time passing -/

/-- Time passes from one millisecond to another, the tickers go off whenever one is due, and meanwhile
`r` writes these lines and becomes `r'`. -/
inductive Passes : Nat → Nat → Reporter → List (Nat × LogLine) → Reporter → Prop
  | still {now target : Nat} {r : Reporter} (later : ∀ due ∈ r.dues, now < due → target < due) :
      Passes now target r [] r
  | fire {now due target : Nat} {r r' : Reporter} {lines : List (Nat × LogLine)} (lt : now < due)
      (le : due ≤ target) (first : ∀ other ∈ r.dues, now < other → due ≤ other)
      (rest : Passes due target (r.fire due).1 lines r') :
      Passes now target r ((r.fire due).2.map (due, ·) ++ lines) r'

namespace Passes

variable {log : List (Nat × LogLine)} {finished : Nat}

/-- As time passes, settings and counts stay as they are. -/
theorem kept (passes : Passes now target r log r') :
    r'.settings = r.settings ∧ r'.counters = r.counters := by
  induction passes with
  | still => exact ⟨rfl, rfl⟩
  | fire _ _ _ _ ih =>
    obtain ⟨_, _, writes, _⟩ := fire_writes _ _
    exact ⟨ih.1.trans writes.settings_eq, ih.2.trans writes.counters_eq⟩

/-- The bulletins of a stretch of time leave the reporter with their mark, and are spaced. -/
theorem marks (passes : Passes now target r log r') :
    r'.lastReported =
        markAfter r.lastReported (Bulletin.ofLines r.counters.tasksProcessed log) ∧
      ∀ n, r.settings.everyTasks = some n → 0 < n → r.lastReported ≤ r.counters.tasksProcessed →
        Spaced n r.lastReported (Bulletin.ofLines r.counters.tasksProcessed log) := by
  induction passes with
  | still => exact ⟨rfl, fun _ _ _ _ => trivial⟩
  | @fire now due target r r' log _ _ _ _ ih =>
    obtain ⟨_, _, writes, _⟩ := r.fire_writes due
    rw [writes.counters_eq, writes.lastReported_eq, writes.settings_eq] at ih
    rw [Bulletin.ofLines_append, writes.bulletins, Bulletin.markAfter_append]
    exact ⟨ih.1, fun n every pos le => (writes.spaced every pos le).append
      (ih.2 n every pos (Bulletin.markAfter_posted_le le))⟩

/-- As time passes, the mark does not get beyond the tasks finished. -/
theorem lastReported_le (passes : Passes now target r log r')
    (le : r.lastReported ≤ r.counters.tasksProcessed) : r'.lastReported ≤ r.counters.tasksProcessed := by
  induction passes with
  | still => exact le
  | @fire now due target r r' log _ _ _ _ ih =>
    obtain ⟨_, _, writes, _⟩ := r.fire_writes due
    rw [writes.counters_eq, writes.lastReported_eq] at ih
    exact ih (Bulletin.markAfter_posted_le le)

/-- Only tickers write while time passes, and each report falls into the stretch of time. -/
theorem within (passes : Passes now target r log r') :
    ∀ b ∈ Bulletin.ofLines finished log, (now < b.time ∧ b.time ≤ target) ∧ b.Ticked := by
  induction passes with
  | still => exact List.forall_mem_nil _
  | @fire now due target r r' log lt le _ _ ih =>
    obtain ⟨_, fires, writes, _⟩ := r.fire_writes due
    rw [Bulletin.ofLines_append, writes.bulletins]
    intro b mem
    rcases List.mem_append.mp mem with mem | mem
    · obtain ⟨reason, given, rfl⟩ := List.mem_map.mp mem
      exact ⟨⟨lt, le⟩, (fires.sort reason given).imp (congrArg ReportReason.label)
        (congrArg ReportReason.label)⟩
    · obtain ⟨⟨later, before⟩, sort⟩ := ih b mem
      exact ⟨⟨Nat.lt_trans lt later, before⟩, sort⟩

/-- Without tickers nothing happens. -/
theorem idle (passes : Passes now target r log r') (idle : r.clocks = none) : log = [] ∧ r' = r := by
  induction passes with
  | still => exact ⟨rfl, rfl⟩
  | @fire now due target r r' log _ _ _ _ ih =>
    have still : r.fire due = (r, []) := by
      simp [Reporter.fire, fireInterval, fireThreshold, idle]
    rw [still] at ih ⊢
    exact ih idle

end Passes

end Reporter

namespace Collector

/-- A reporter that is told of the time lets it pass. -/
theorem advance_reporting (now target : Nat) (r : Reporter) :
    ∃ r', ((reporting r).advance now target).1 = reporting r' ∧
      Reporter.Passes now target r ((reporting r).advance now target).2 r' := by
  generalize same : reporting r = c
  fun_induction advance now target c generalizing r with
  | case1 now c none_due =>
    subst same
    exact ⟨r, rfl, .still fun due mem later => absurd later (not_lt_of_min?_later_eq_none none_due due mem)⟩
  | case2 now c due next lt le c' lines fired c'' more rest ih =>
    subst same
    obtain ⟨rfl, rfl⟩ := Prod.ext_iff.mp fired
    obtain ⟨r', there, passes⟩ := ih (r.fire due).1 rfl
    rw [rest] at there passes
    exact ⟨r', there, .fire lt le (le_of_min?_later next) passes⟩
  | case3 now c due next lt beyond =>
    subst same
    refine ⟨r, rfl, .still fun other mem later => ?_⟩
    have := le_of_min?_later next other mem later
    omega

end Collector

/-! ## Commands -/

/-- Why a report is written on stopping, if one is wanted. -/
def ReportSettings.atStop (settings : ReportSettings) : List ReportReason :=
  if settings.onStop then [.final] else []

/-- The only report written at the stop is the final one. -/
theorem ReportSettings.eq_final_of_mem_atStop {settings : ReportSettings} {reason : ReportReason}
    (mem : reason ∈ settings.atStop) : reason = .final := by
  unfold atStop at mem
  split at mem
  · exact List.mem_singleton.mp mem
  · cases mem

namespace Reporter

open Station (Command)
open Bulletin (posted markAfter Spaced)

variable {r r' : Reporter} {now : Nat} {command : Command} {bulletins : List Bulletin}

/-- What the owner of a reporter asks for at millisecond `now`, the bulletins that are written then, and
the reporter afterwards. -/
inductive Obeys (r : Reporter) (now : Nat) : Command → List Bulletin → Reporter → Prop
  | record (metric : Metric) : Obeys r now (.record metric) [] { r with counters := r.counters.record metric }
  | start (background : Bool) : Obeys r now (.start background) [] (r.start background now).1
  | stop {lines : List LogLine} {r' : Reporter}
      (writes : r.Writes now r.settings.atStop lines r') (idle : r'.clocks = none) :
      Obeys r now .stop (posted now r.counters.tasksProcessed r.settings.atStop) r'
  | reportNow {lines : List LogLine} {r' : Reporter} (writes : r.Writes now [.manual] lines r')
      (clocks : r'.clocks = r.clocks) :
      Obeys r now .reportNow (posted now r.counters.tasksProcessed [.manual]) r'
  | advance {ms : Nat} {log : List (Nat × LogLine)} {r' : Reporter} (passes : Passes now (now + ms) r log r') :
      Obeys r now (.advance ms) (Bulletin.ofLines r.counters.tasksProcessed log) r'

/-- At the stop the last reports are written and the tickers taken away. -/
theorem stop_writes (r : Reporter) (now : Nat) :
    r.Writes now r.settings.atStop (r.stop now).2 (r.stop now).1 ∧ (r.stop now).1.clocks = none := by
  simp only [stop, ReportSettings.atStop]
  split
  · exact ⟨(writes_report { r with clocks := none } now .final (by simp)).of_clocks, rfl⟩
  · exact ⟨(Writes.refl { r with clocks := none } now).of_clocks, rfl⟩

theorem counters_stop (r : Reporter) (now : Nat) : (r.stop now).1.counters = r.counters :=
  (r.stop_writes now).1.counters_eq

theorem counters_start (r : Reporter) (background : Bool) (now : Nat) :
    (r.start background now).1.counters = { r.counters with since := now } := by
  unfold start
  dsimp only
  split <;> rfl

theorem settings_start (r : Reporter) (background : Bool) (now : Nat) :
    (r.start background now).1.settings = r.settings := by
  unfold start
  dsimp only
  split <;> rfl

theorem lastReported_start (r : Reporter) (background : Bool) (now : Nat) :
    (r.start background now).1.lastReported = r.lastReported := by
  unfold start
  dsimp only
  split <;> rfl

/-- Starting reports nothing. -/
theorem start_silent (r : Reporter) (background : Bool) (now finished : Nat) :
    Bulletin.ofLines finished ((r.start background now).2.map (now, ·)) = [] := by
  unfold start
  dsimp only
  split
  · rfl
  · rfl
  · simp [Bulletin.ofLines, LogLine.reason?, List.lookup_cons]

/-- A start that finds the reporter running leaves it to its tickers. -/
theorem start_of_running {clocks : ReportClocks} (running : r.clocks = some clocks) (background : Bool)
    (now : Nat) : (r.start background now).1.clocks = some clocks ∧ (r.start background now).2 = [] := by
  unfold start
  dsimp only
  split
  · exact ⟨running, rfl⟩
  · next idle => cases running.symm.trans idle
  · next idle => cases running.symm.trans idle

/-- A start that finds the reporter at rest sets off the tickers, if there can be any. -/
theorem start_of_idle (idle : r.clocks = none) (background : Bool) (now : Nat) :
    (r.start background now).1.clocks = if background then some (clocksAt r.settings now) else none := by
  unfold start
  dsimp only
  split
  · next running => cases idle.symm.trans running
  · rfl
  · exact idle

end Reporter

/-- Each command to a reporter has one of the effects that `Obeys` lists, and takes the time that it says. -/
theorem Station.command_reporting (clock : Nat) (r : Reporter) (command : Command) :
    ∃ r', (Station.command ⟨clock, .reporting r⟩ command).1 = ⟨clock + command.millis, .reporting r'⟩ ∧
      r.Obeys clock command (Bulletin.ofLines r.counters.tasksProcessed
        (Station.command ⟨clock, .reporting r⟩ command).2) r' := by
  cases command with
  | record metric => exact ⟨_, rfl, .record metric⟩
  | start background =>
    refine ⟨(r.start background clock).1, rfl, ?_⟩
    have none_reported : Bulletin.ofLines r.counters.tasksProcessed
        (Station.command ⟨clock, .reporting r⟩ (.start background)).2 = [] :=
      r.start_silent background clock r.counters.tasksProcessed
    rw [none_reported]
    exact .start background
  | stop =>
    obtain ⟨writes, idle⟩ := r.stop_writes clock
    refine ⟨(r.stop clock).1, rfl, ?_⟩
    have reported : Bulletin.ofLines r.counters.tasksProcessed
        (Station.command ⟨clock, .reporting r⟩ .stop).2 = _ := writes.bulletins _
    rw [reported]
    exact .stop writes idle
  | reportNow =>
    have writes := r.writes_report clock .manual (by simp)
    refine ⟨(r.report .manual clock).1, rfl, ?_⟩
    have reported : Bulletin.ofLines r.counters.tasksProcessed
        (Station.command ⟨clock, .reporting r⟩ .reportNow).2 = _ := writes.bulletins _
    rw [reported]
    exact .reportNow writes rfl
  | advance ms =>
    obtain ⟨r', there, passes⟩ := Collector.advance_reporting clock (clock + ms) r
    exact ⟨r', congrArg (Station.mk (clock + ms)) there, .advance passes⟩

namespace Reporter.Obeys

open Station (Command)
open Bulletin (markAfter Spaced)

variable {r r' : Reporter} {now : Nat} {command : Command} {bulletins : List Bulletin}

theorem settings_eq (obeys : r.Obeys now command bulletins r') : r'.settings = r.settings := by
  cases obeys with
  | record => rfl
  | start background => exact r.settings_start background now
  | stop writes | reportNow writes => exact writes.settings_eq
  | advance passes => exact passes.kept.1

/-- A reporter knows how many tasks have finished. -/
theorem tasksProcessed_eq (obeys : r.Obeys now command bulletins r') :
    r'.counters.tasksProcessed = r.counters.tasksProcessed + command.finishes.toNat := by
  cases obeys with
  | record metric => exact r.counters.tasksProcessed_record metric
  | start background => rw [r.counters_start]; rfl
  | stop writes | reportNow writes => rw [writes.counters_eq]; rfl
  | advance passes => rw [passes.kept.2]; rfl

/-- A reporter remembers how many tasks had finished at its last report. -/
theorem lastReported_eq (obeys : r.Obeys now command bulletins r') :
    r'.lastReported = markAfter r.lastReported bulletins := by
  cases obeys with
  | record => rfl
  | start background => exact r.lastReported_start background now
  | stop writes | reportNow writes => exact writes.lastReported_eq
  | advance passes => exact passes.marks.1

/-- The reports that follow a command are spaced from the mark on. -/
theorem spaced (obeys : r.Obeys now command bulletins r') {n : Nat}
    (every : r.settings.everyTasks = some n) (pos : 0 < n)
    (le : r.lastReported ≤ r.counters.tasksProcessed) : Spaced n r.lastReported bulletins := by
  cases obeys with
  | record | start => trivial
  | stop writes | reportNow writes => exact writes.spaced every pos le
  | advance passes => exact passes.marks.2 n every pos le

/-- No command puts the mark beyond the tasks finished. -/
theorem lastReported_le (obeys : r.Obeys now command bulletins r')
    (le : r.lastReported ≤ r.counters.tasksProcessed) :
    r'.lastReported ≤ r'.counters.tasksProcessed := by
  rw [obeys.tasksProcessed_eq]
  refine Nat.le_trans ?_ (Nat.le_add_right ..)
  cases obeys with
  | record => exact le
  | start background => exact r.lastReported_start background now ▸ le
  | stop writes | reportNow writes => exact writes.lastReported_eq ▸ Bulletin.markAfter_posted_le le
  | advance passes => exact passes.lastReported_le le

end Reporter.Obeys

/-! ## Histories -/

namespace Reporter

open Station (Command)
open Bulletin (markAfter Spaced)

/-- What the owner of a reporter asks for from millisecond `now` on, the bulletins that are written
meanwhile, and the reporter in the end. -/
inductive Serves : Reporter → Nat → List Command → List Bulletin → Reporter → Prop
  | nil {r : Reporter} {now : Nat} : Serves r now [] [] r
  | cons {r r' r'' : Reporter} {now : Nat} {command : Command} {commands : List Command}
      {bulletins more : List Bulletin} (first : r.Obeys now command bulletins r')
      (rest : Serves r' (now + command.millis) commands more r'') :
      Serves r now (command :: commands) (bulletins ++ more) r''

namespace Serves

variable {r r' : Reporter} {now : Nat} {commands : List Command} {bulletins : List Bulletin}

theorem settings_eq (serves : r.Serves now commands bulletins r') : r'.settings = r.settings := by
  induction serves with
  | nil => rfl
  | cons first _ ih => exact ih.trans first.settings_eq

/-- The tasks finished are those finished before and those finished in the commands. -/
theorem tasksProcessed_eq (serves : r.Serves now commands bulletins r') :
    r'.counters.tasksProcessed = r.counters.tasksProcessed + Station.finishedIn commands := by
  induction serves with
  | nil => rfl
  | cons first _ ih => rw [ih, first.tasksProcessed_eq, Station.finishedIn_cons, Nat.add_assoc]

/-- The mark stands where the last report has put it. -/
theorem lastReported_eq (serves : r.Serves now commands bulletins r') :
    r'.lastReported = markAfter r.lastReported bulletins := by
  induction serves with
  | nil => rfl
  | cons first _ ih => rw [ih, first.lastReported_eq, Bulletin.markAfter_append]

/-- A reporter never remembers more tasks than have finished. -/
theorem lastReported_le (serves : r.Serves now commands bulletins r')
    (le : r.lastReported ≤ r.counters.tasksProcessed) :
    r'.lastReported ≤ r'.counters.tasksProcessed := by
  induction serves with
  | nil => exact le
  | cons first _ ih => exact ih (first.lastReported_le le)

/-- Over any number of commands reports are spaced. The mark that a command leaves is where the spacing goes on. -/
theorem spaced (serves : r.Serves now commands bulletins r') {n : Nat}
    (every : r.settings.everyTasks = some n) (pos : 0 < n)
    (le : r.lastReported ≤ r.counters.tasksProcessed) : Spaced n r.lastReported bulletins := by
  induction serves with
  | nil => trivial
  | cons first _ ih =>
    have later := ih (first.settings_eq ▸ every) (first.lastReported_le le)
    rw [first.lastReported_eq] at later
    exact (first.spaced every pos le).append later

end Serves

end Reporter

/-- Whatever is asked of a reporter is done. -/
theorem Station.perform_reporting (clock : Nat) (r : Reporter) (commands : List Command) :
    ∃ r', (Station.perform ⟨clock, .reporting r⟩ commands).1 =
        ⟨clock + millisIn commands, .reporting r'⟩ ∧
      r.Serves clock commands
        (Station.bulletins ⟨clock, .reporting r⟩ r.counters.tasksProcessed commands) r' := by
  induction commands generalizing clock r with
  | nil => exact ⟨r, rfl, .nil⟩
  | cons first rest ih =>
    obtain ⟨r', stepped, obeys⟩ := Station.command_reporting clock r first
    obtain ⟨r'', performed, serves⟩ := ih (clock + first.millis) r'
    refine ⟨r'', ?_, ?_⟩
    · rw [perform_cons, stepped, performed, millisIn_cons, Nat.add_assoc]
    · rw [bulletins, stepped, ← obeys.tasksProcessed_eq]
      exact .cons obeys serves

/-- A reporter made at millisecond `opened`, on its clock. -/
def Station.reporting (name : String) (settings : ReportSettings) (opened : Nat) : Station :=
  ⟨opened, .reporting (.new name settings opened)⟩

end WorkerPool
