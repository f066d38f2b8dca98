import WorkerPool.Proofs.Interleaving
import WorkerPool.Proofs.Looping

/-!
# Milliseconds are settled

`Pool.settle` gives every worker two turns. Then nobody can run any more (`quiet_settle`), so that time
may pass: a turn leaves its own worker asleep, and what wakes a worker that has had its turn is a
cancellation, of which there is only one. With that, letting time pass as `Pool.advance` and `Pool.join`
do is a run of single steps, and so is everything that an owner can make of a pool (`runs_perform`).
-/

namespace WorkerPool

variable {C : Client}

theorem waited_pos {ms : Nat} (long : ms ≠ 0) : 0 < waited ms := by
  unfold waited longestWait
  omega

/-- A duration that is not zero takes at least a millisecond. -/
theorem Duration.ceilMillis_ne_zero {d : Duration} (ne : d ≠ .zero) : d.ceilMillis ≠ 0 := by
  have long : d.toNanos ≠ 0 := fun none => ne (toNanos_injective none)
  unfold ceilMillis nanosPerMilli
  omega

/-! ## Turns leave threads asleep -/

/-- Code that runs as far as it can without waiting lets the shared state go on, in no time. -/
theorem Program.evolves_resume {α : Type} (worker : Option String) (code : Code C α) (s : Shared C) :
    s.Evolves (code.resume worker s).2 ∧ (code.resume worker s).2.clock = s.clock := by
  induction code generalizing s with
  | done | panic => exact ⟨.refl s, rfl⟩
  | ask request next ih =>
    obtain ⟨evolves, clock⟩ := ih (s.answer worker request).1 (s.answer worker request).2
    exact ⟨(s.evolves_answer worker request).trans evolves, clock.trans (s.clock_answer worker request)⟩
  | wait ms heeds next ih =>
    unfold resume
    split
    · exact ih .cancelled s
    · split
      · exact ih .elapsed s
      · exact ⟨.refl s, rfl⟩

/-- Code that waits has begun a wait that is not over. -/
theorem Program.resume_waiting {α : Type} {worker : Option String} {code : Code C α} {s s' : Shared C}
    {due : Nat} {heeds : Bool} {next : Wake → Code C α}
    (h : code.resume worker s = (.waiting due heeds next, s')) :
    s'.clock < due ∧ (heeds && s'.cancelled) = false := by
  induction code generalizing s with
  | done | panic => cases h
  | ask request more ih => exact ih _ h
  | wait ms heeds' more ih =>
    unfold resume at h
    split at h
    · exact ih _ h
    · next free =>
      split at h
      · exact ih _ h
      · next long =>
        cases h
        have := waited_pos long
        exact ⟨by omega, by simpa using free⟩

/-- Whether a worker's intervals take time. -/
def Worker.Paced (w : Worker C) : Prop :=
  w.schedule.active ≠ .zero ∧ w.schedule.idle ≠ .zero

/-- Whichever interval a paced worker waits for is not zero. -/
theorem Worker.Paced.interval {w : Worker C} (paced : w.Paced) {state : WorkerState} {delay : Duration}
    (interval : w.schedule.interval? state = some delay) : delay ≠ .zero := by
  cases state with
  | active => cases interval; exact paced.1
  | idle => cases interval; exact paced.2
  | shuttingDown | terminated => cases interval

namespace Thread

variable {w : Worker C} {thread : Thread C} {s s' : Shared C}

/-- A thread that sleeps and has nothing to heed is not awake. -/
theorem wake?_eq_none_of_waiting {due : Nat} {heeds : Bool}
    {next : Wake → Code C (Option WorkerState)} (h : s.clock < due ∧ (heeds && s.cancelled) = false) :
    (waiting due heeds next).wake? s = none := by
  rw [wake?_waiting, h.2, if_neg Bool.false_ne_true, if_neg (Nat.not_le_of_lt h.1)]

/-- A thread that runs as far as it can lets the shared state go on, in no time. -/
theorem evolves_run (w : Worker C) (code : Code C (Option WorkerState)) (s : Shared C) :
    s.Evolves (run w code s).2 ∧ (run w code s).2.clock = s.clock := by
  rw [run_eq]
  exact code.evolves_resume (some w.id) s

/-- A segment begins with a wait, so that a thread does not get through one in a turn. -/
theorem run_segment_ne_ready (paced : w.Paced) (state : WorkerState) (s : Shared C)
    (code : Code C (Option WorkerState)) : (run w (w.segment state) s).1 ≠ .ready code := by
  rw [run_eq]
  cases interval : w.schedule.interval? state with
  | none =>
    unfold Worker.segment
    rw [interval]
    intro ready
    cases ready
  | some delay =>
    have long := Duration.ceilMillis_ne_zero (paced.interval interval)
    rw [Worker.segment_of_interval interval, Program.resume]
    split
    · intro ready
      cases ready
    · intro ready
      cases ready

/-- What code comes to that is run up to its next wait: it is at the beginning of a segment, or asleep. -/
theorem run_asleep (w : Worker C) (code : Code C (Option WorkerState)) (s : Shared C) :
    (∃ state, (run w code s).1 = .ready (w.segment state)) ∨
      (run w code s).1.wake? (run w code s).2 = none := by
  rw [run_eq]
  cases resumed : code.resume (some w.id) s with
  | mk progress s' =>
    match progress with
    | .done (some state) => exact .inl ⟨state, rfl⟩
    | .done none | .panic x => exact .inr rfl
    | .waiting due heeds next =>
      exact .inr (wake?_eq_none_of_waiting (Program.resume_waiting resumed))

/-- After its turn a thread is asleep. -/
theorem turn_asleep (paced : w.Paced) (thread : Thread C) (s : Shared C) :
    (turn w thread s).1.wake? (turn w thread s).2 = none ∧
      s.Evolves (turn w thread s).2 ∧ (turn w thread s).2.clock = s.clock := by
  unfold turn
  cases wakes : thread.wake? s with
  | none => exact ⟨wakes, .refl s, rfl⟩
  | some code =>
    obtain ⟨evolves, clock⟩ := evolves_run w code s
    have asleep := run_asleep w code s
    dsimp only
    generalize run w code s = result at evolves clock asleep ⊢
    obtain ⟨thread', s'⟩ := result
    match thread' with
    | .ready code' =>
      obtain ⟨evolves', clock'⟩ := evolves_run w code' s'
      rcases asleep with ⟨state, begun⟩ | awake
      · cases begun
        rcases run_asleep w (w.segment state) s' with ⟨state', again⟩ | asleep
        · exact absurd again (run_segment_ne_ready paced state s' _)
        · exact ⟨asleep, evolves.trans evolves', clock'.trans clock⟩
      · cases awake
    | .waiting .. | .exited =>
      rcases asleep with ⟨state, begun⟩ | asleep
      · cases begun
      · exact ⟨asleep, evolves, clock⟩

/-- A thread that sleeps goes on sleeping while the clock stands still and the token is as it was. -/
theorem asleep_of_same (asleep : thread.wake? s = none) (clock : s'.clock = s.clock)
    (cancelled : s'.cancelled = s.cancelled) : thread.wake? s' = none := by
  cases thread with
  | ready => cases asleep
  | waiting due heeds next => simpa only [wake?_waiting, clock, cancelled] using asleep
  | exited => rfl

end Thread

/-! ## Two passes -/

namespace Seat

variable {crew : List (Seat C)} {s : Shared C}

/-- A pass gives the first seat its turn, and then the others theirs. -/
theorem pass_cons (seat : Seat C) (rest : List (Seat C)) (s : Shared C) :
    pass (seat :: rest) s =
      ({ seat with thread := (seat.thread.turn seat.worker s).1 } ::
        (pass rest (seat.thread.turn seat.worker s).2).1,
      (pass rest (seat.thread.turn seat.worker s).2).2) :=
  rfl

/-- A pass changes no worker. -/
theorem paced_pass (paced : ∀ seat ∈ crew, seat.worker.Paced) (s : Shared C) :
    ∀ seat ∈ (pass crew s).1, seat.worker.Paced := by
  induction crew generalizing s with
  | nil => exact paced
  | cons seat rest ih =>
    rw [pass_cons]
    rintro seat' mem
    rcases List.mem_cons.mp mem with rfl | mem
    · exact paced seat (by simp)
    · exact ih (fun other mem => paced other (by simp [mem])) _ seat' mem

/-- A pass lets the shared state go on, in no time. -/
theorem evolves_pass (paced : ∀ seat ∈ crew, seat.worker.Paced) (s : Shared C) :
    s.Evolves (pass crew s).2 ∧ (pass crew s).2.clock = s.clock := by
  induction crew generalizing s with
  | nil => exact ⟨.refl s, rfl⟩
  | cons seat rest ih =>
    obtain ⟨_, evolves, clock⟩ := seat.thread.turn_asleep (paced seat (by simp)) s
    obtain ⟨evolves', clock'⟩ := ih (fun other mem => paced other (by simp [mem])) _
    exact ⟨evolves.trans evolves', clock'.trans clock⟩

/-- A pass in which the token was not cancelled leaves everyone asleep. -/
theorem pass_asleep (paced : ∀ seat ∈ crew, seat.worker.Paced)
    (same : (pass crew s).2.cancelled = s.cancelled) :
    ∀ seat ∈ (pass crew s).1, seat.thread.wake? (pass crew s).2 = none := by
  induction crew generalizing s with
  | nil => exact nofun
  | cons seat rest ih =>
    obtain ⟨asleep, evolves, clock⟩ := seat.thread.turn_asleep (paced seat (by simp)) s
    have paced_rest : ∀ seat ∈ rest, seat.worker.Paced := fun other mem => paced other (by simp [mem])
    obtain ⟨evolves', clock'⟩ := evolves_pass paced_rest (seat.thread.turn seat.worker s).2
    rw [pass_cons] at same ⊢
    -- The token is never revived, so that it was the same in between.
    have between : (pass rest (seat.thread.turn seat.worker s).2).2.cancelled =
        (seat.thread.turn seat.worker s).2.cancelled := by
      cases before : s.cancelled with
      | true => rw [evolves'.cancelled (evolves.cancelled before), evolves.cancelled before]
      | false =>
        rw [before] at same
        cases middle : (seat.thread.turn seat.worker s).2.cancelled with
        | false => exact same
        | true =>
          rw [evolves'.cancelled middle] at same
          cases same
    rintro seat' mem
    rcases List.mem_cons.mp mem with rfl | mem
    · exact Thread.asleep_of_same asleep clock' between
    · exact ih paced_rest between seat' mem

/-- A pass over sleeping threads does nothing. -/
theorem pass_of_asleep (asleep : ∀ seat ∈ crew, seat.thread.wake? s = none) :
    pass crew s = (crew, s) := by
  induction crew with
  | nil => rfl
  | cons seat rest ih =>
    have unmoved : seat.thread.turn seat.worker s = (seat.thread, s) := by
      unfold Thread.turn
      rw [asleep seat (by simp)]
    rw [pass_cons, unmoved, ih fun other mem => asleep other (by simp [mem])]

/-- After two passes everyone is asleep. -/
theorem pass_pass_asleep (paced : ∀ seat ∈ crew, seat.worker.Paced) (s : Shared C) :
    ∀ seat ∈ (pass (pass crew s).1 (pass crew s).2).1,
      seat.thread.wake? (pass (pass crew s).1 (pass crew s).2).2 = none := by
  obtain ⟨evolves, _⟩ := evolves_pass paced s
  have paced' := paced_pass paced s
  by_cases same : (pass crew s).2.cancelled = s.cancelled
  · have asleep := pass_asleep paced same
    rw [pass_of_asleep asleep]
    exact asleep
  · have cancelled : (pass crew s).2.cancelled = true := by
      cases before : s.cancelled with
      | true => exact evolves.cancelled before
      | false => simpa [before] using same
    apply pass_asleep paced'
    rw [(evolves_pass paced' (pass crew s).2).1.cancelled cancelled, cancelled]

end Seat

/-! ## Settled milliseconds -/

namespace Pool

variable {p : Pool C}

/-- Whether every worker's intervals take time. -/
def Paced (p : Pool C) : Prop :=
  ∀ seat ∈ p.crew, seat.worker.Paced

/-- The spans of the workers of a plan. -/
def spans (plan : PoolPlan C) (s : Shared C) : List (Entry C) :=
  plan.crew.map fun w => { time := s.clock, worker := some w.id, event := .span plan.customSpan plan.name }

/-- To open the spans is to enter them into the journal. -/
theorem openSpans_eq (plan : PoolPlan C) (s : Shared C) : openSpans plan s = s.withEntries (spans plan s) := by
  unfold openSpans spans
  induction plan.crew generalizing s with
  | nil => simp
  | cons w rest ih =>
    rw [List.foldl_cons, ih, Shared.enter_eq, Shared.withEntries_withEntries]
    rfl

/-- The line with which a run begins. -/
def startingLine (plan : PoolPlan C) : LogLine where
  level := .info
  text := "🔨 Starting worker pool"
  fields := [("pool", .text plan.name), ("workers", .number plan.workers)]

/-- The line with which a run ends. -/
def stoppedLine (p : Pool C) : LogLine where
  level := .info
  text := "🔨 Worker pool stopped"
  fields := [("pool", .text p.plan.name), ("uptime_ms", .number (p.uptime.toMillis % UInt64.size))]

theorem opened_eq (p : Pool C) :
    p.opened = { p.shared with
      running := true
      collector := (p.shared.collector.start true p.shared.clock).1 }.withEntries
        (p.shared.entries none (.log (startingLine p.plan) :: .collectorStarted ::
          (p.shared.collector.start true p.shared.clock).2.map .log) ++ spans p.plan p.shared) := by
  unfold opened
  simp only [openSpans_eq, Shared.enterLines_eq, Shared.enter_eq, Shared.log]
  simp [Shared.withEntries, Shared.entries, startingLine, spans]

/-- The start of a run takes no time and leaves the token as it is. -/
theorem opened_same (p : Pool C) :
    p.opened.clock = p.shared.clock ∧ p.opened.cancelledSince = p.shared.cancelledSince ∧
      p.opened.running = true := by
  rw [opened_eq]
  exact ⟨rfl, rfl, rfl⟩

theorem closed_eq (p : Pool C) :
    p.closed = { p.shared.cancel .own with
      running := false
      collector := (p.shared.collector.stop p.shared.clock).1 }.withEntries
        (p.shared.entries none (.collectorStopped ::
          ((p.shared.collector.stop p.shared.clock).2 ++ [p.stoppedLine]).map .log)) := by
  unfold closed
  simp only [Shared.enterLines_eq, Shared.enter_eq, Shared.log]
  simp [Shared.entries, stoppedLine, Shared.cancel, Shared.withEntries]

/-- The end of a run takes no time and leaves the token cancelled. -/
theorem closed_same (p : Pool C) :
    p.closed.clock = p.shared.clock ∧
      p.closed.cancelledSince = (p.shared.cancel .own).cancelledSince ∧ p.closed.running = false := by
  rw [closed_eq]
  exact ⟨rfl, rfl, rfl⟩

/-- The end of a run is a way for the shared state to go on. -/
theorem evolves_closed (p : Pool C) : p.shared.Evolves p.closed := by
  obtain ⟨clock, since, _⟩ := p.closed_same
  have clock' : p.closed.clock = (p.shared.cancel .own).clock := clock.trans (p.shared.clock_cancel .own).symm
  exact (p.shared.evolves_cancel .own).trans (.of_same clock' since)

/-- What the collector reports when it is due is entered into the journal. -/
theorem fireReports_eq (p : Pool C) :
    p.fireReports = { p with
      shared := Shared.withEntries { p.shared with collector := (p.shared.collector.fire p.shared.clock).1 }
        (p.shared.entries none ((p.shared.collector.fire p.shared.clock).2.map .log)) } := by
  unfold fireReports
  simp only [Shared.enterLines_eq]
  rfl

/-- Reports change neither the time nor the token, nor whether the pool is running. -/
theorem fireReports_same (p : Pool C) :
    p.fireReports.shared.clock = p.shared.clock ∧
      p.fireReports.shared.cancelledSince = p.shared.cancelledSince ∧
      p.fireReports.shared.running = p.shared.running := by
  rw [fireReports_eq]
  exact ⟨rfl, rfl, rfl⟩

/-! ## Settled milliseconds -/

/-- A pool whose workers are all asleep is quiet once it has seen whether the run is over. -/
theorem quiet_conclude (asleep : ∀ seat ∈ p.crew, seat.thread.wake? p.shared = none) :
    p.conclude.Quiet := by
  by_cases finished : p.isOver = true
  · rw [conclude, if_pos finished]
    obtain ⟨_, exited⟩ := (Bool.and_eq_true ..).mp finished
    constructor
    · intro seat mem
      have left := List.all_eq_true.mp exited seat mem
      cases thread : seat.thread with
      | exited => rfl
      | ready | waiting => rw [thread] at left; cases left
    · unfold isOver
      dsimp only
      rw [p.closed_same.2.2, Bool.false_and]
  · rw [conclude, if_neg finished]
    exact ⟨asleep, by simpa using finished⟩

/-- When everything has been done that is due, nothing is left to be done. -/
theorem quiet_settle (paced : p.Paced) : p.settle.Quiet :=
  quiet_conclude (Seat.pass_pass_asleep paced p.fireReports.shared)

theorem clock_settle (paced : p.Paced) : p.settle.shared.clock = p.shared.clock := by
  have first := (Seat.evolves_pass paced p.fireReports.shared).2
  have second := (Seat.evolves_pass (Seat.paced_pass paced p.fireReports.shared)
    (Seat.pass p.crew p.fireReports.shared).2).2
  have passed : p.fireReports.pass.pass.shared.clock = p.shared.clock :=
    (second.trans first).trans p.fireReports_same.1
  unfold settle conclude
  split
  · exact (closed_same _).1.trans passed
  · exact passed

theorem paced_settle (paced : p.Paced) : p.settle.Paced := by
  have passed : p.fireReports.pass.pass.Paced :=
    Seat.paced_pass (Seat.paced_pass paced p.fireReports.shared) _
  unfold settle conclude
  split
  · exact passed
  · exact passed

/-! ## Time passes -/

/-- In a quiet pool nobody who waits is due yet. -/
theorem lt_due_of_quiet (quiet : p.Quiet) {seat : Seat C} (mem : seat ∈ p.crew) {due : Nat}
    (waits : seat.thread.due? = some due) : p.shared.clock < due := by
  have asleep := quiet.1 seat mem
  cases thread : seat.thread with
  | ready | exited => rw [thread] at waits; cases waits
  | waiting due' heeds next =>
    rw [thread] at waits asleep
    cases waits
    rw [Thread.wake?_waiting] at asleep
    split at asleep
    · cases asleep
    · split at asleep
      · cases asleep
      · next notDue => exact Nat.lt_of_not_le notDue

/-- What a worker waits for is due sometime. -/
theorem mem_dues {seat : Seat C} (mem : seat ∈ p.crew) {due : Nat}
    (waits : seat.thread.due? = some due) : due ∈ p.dues :=
  List.mem_append_left _ (List.mem_filterMap.mpr ⟨seat, mem, waits⟩)

/-- A quiet pool stays quiet as long as no worker's wait is over. -/
theorem quiet_withClock (quiet : p.Quiet) {now : Nat}
    (lt : ∀ seat ∈ p.crew, ∀ due, seat.thread.due? = some due → now < due) : (p.withClock now).Quiet := by
  refine ⟨?_, quiet.2⟩
  intro seat mem
  have asleep := quiet.1 seat mem
  have later := lt seat mem
  cases thread : seat.thread with
  | ready => rw [thread] at asleep; cases asleep
  | exited => rfl
  | waiting due heeds next =>
    rw [thread] at later
    rw [thread, Thread.wake?_waiting] at asleep
    apply Thread.wake?_eq_none_of_waiting
    refine ⟨later due rfl, ?_⟩
    split at asleep
    · cases asleep
    · next unnoticed => simpa [withClock, Shared.cancelled] using unnoticed

/-- A quiet pool may let the time pass up to the next moment at which something is due. -/
theorem runs_withClock (quiet : p.Quiet) {now : Nat} (le : p.shared.clock ≤ now)
    (before : ∀ due ∈ p.dues, p.shared.clock < due → now ≤ due) : p.Runs [] (p.withClock now) := by
  by_cases same : p.shared.clock = now
  · subst same
    exact .refl
  · exact .single (.tick (Nat.lt_of_le_of_ne le same) quiet before)

theorem le_of_nextDue? {now due : Nat} (h : p.nextDue? now = some due) :
    ∀ other ∈ p.dues, now < other → due ≤ other :=
  le_of_min?_later h

theorem not_lt_of_nextDue?_eq_none {now : Nat} (h : p.nextDue? now = none) :
    ∀ due ∈ p.dues, ¬ now < due :=
  not_lt_of_min?_later_eq_none h

/-- What a settled pool comes to when time passes: single steps take it there, and it is settled
again. -/
def Leads (p q : Pool C) : Prop :=
  (∃ events, p.Runs events q) ∧ q.Quiet ∧ q.Paced

/-- A quiet pool to which less time is given than until something is due stays quiet. -/
theorem leads_withClock (quiet : p.Quiet) (paced : p.Paced) {now : Nat} (le : p.shared.clock ≤ now)
    (lt : ∀ due ∈ p.dues, p.shared.clock < due → now < due) : p.Leads (p.withClock now) :=
  ⟨⟨_, runs_withClock quiet le fun due mem later => Nat.le_of_lt (lt due mem later)⟩,
    quiet_withClock quiet fun _ mem _ waits => lt _ (mem_dues mem waits) (lt_due_of_quiet quiet mem waits),
    paced⟩

/-- Going to the next due millisecond and doing what is due there. -/
theorem leads_settle (quiet : p.Quiet) (paced : p.Paced) {due : Nat}
    (h : p.nextDue? p.shared.clock = some due) :
    p.Leads (p.withClock due).settle ∧ (p.withClock due).settle.shared.clock = due := by
  have paced' : (p.withClock due).Paced := paced
  have tick := runs_withClock quiet (Nat.le_of_lt (lt_of_nextDue? h)) (le_of_nextDue? h)
  obtain ⟨events, settles⟩ := runs_settle (p.withClock due)
  exact ⟨⟨⟨_, tick.trans settles⟩, quiet_settle paced', paced_settle paced'⟩, clock_settle paced'⟩

theorem Leads.trans {q r : Pool C} (h : p.Leads q) (g : q.Leads r) : p.Leads r := by
  obtain ⟨⟨_, first⟩, _, _⟩ := h
  obtain ⟨⟨_, second⟩, quiet, paced⟩ := g
  exact ⟨⟨_, first.trans second⟩, quiet, paced⟩

/-- From one due moment to the next, time leads a quiet pool to its target. -/
theorem leads_advanceFrom {now target : Nat} (quiet : p.Quiet) (paced : p.Paced)
    (clock : p.shared.clock = now) (le : now ≤ target) : p.Leads (p.advanceFrom now target) := by
  fun_induction advanceFrom now target p with
  | case1 now p none_due =>
    subst clock
    have none_later := not_lt_of_nextDue?_eq_none none_due
    exact leads_withClock quiet paced le fun due mem later => absurd later (none_later due mem)
  | case2 now p due next lt le_target ih =>
    subst clock
    obtain ⟨leads, clock⟩ := leads_settle quiet paced next
    exact leads.trans (ih leads.2.1 leads.2.2 clock le_target)
  | case3 now p due next lt beyond =>
    subst clock
    have least := le_of_nextDue? next
    refine leads_withClock quiet paced le fun other mem later => ?_
    have := least other mem later
    omega

/-- The same holds when the time ends with the run. -/
theorem leads_joinFrom {now target : Nat} (quiet : p.Quiet) (paced : p.Paced)
    (clock : p.shared.clock = now) (le : now ≤ target) : p.Leads (p.joinFrom now target) := by
  fun_induction joinFrom now target p with
  | case1 now p pending none_due =>
    subst clock
    have none_later := not_lt_of_nextDue?_eq_none none_due
    exact leads_withClock quiet paced le fun due mem later => absurd later (none_later due mem)
  | case2 now p pending due next lt le_target ih =>
    subst clock
    obtain ⟨leads, clock⟩ := leads_settle quiet paced next
    exact leads.trans (ih leads.2.1 leads.2.2 clock le_target)
  | case3 now p pending due next lt beyond =>
    subst clock
    have least := le_of_nextDue? next
    refine leads_withClock quiet paced le fun other mem later => ?_
    have := least other mem later
    omega
  | case4 now p settled => exact ⟨⟨_, .refl⟩, quiet, paced⟩

theorem leads_advance (quiet : p.Quiet) (paced : p.Paced) (ms : Nat) : p.Leads (p.advance ms) :=
  leads_advanceFrom quiet paced rfl (Nat.le_add_right ..)

theorem leads_join (quiet : p.Quiet) (paced : p.Paced) (ms : Nat) : p.Leads (p.join ms) :=
  leads_joinFrom quiet paced rfl (Nat.le_add_right ..)

/-! ## What an owner makes of a pool -/

/-- What an owner may do with a pool, and what everything that is due makes of it then. -/
inductive Command (C : Client) where
  | start
  | stop
  | cancelParent
  | addHooks (side : HookSide) (hooks : List C.Hook)
  | update (change : C.State → C.State)
  | takeErrors
  | dropErrors
  | readErrors
  | advance (ms : Nat)
  | join (ms : Nat)

/-- The pool after a command, before anything else happens. -/
def command (p : Pool C) : Command C → Pool C
  | .start => p.start.toOption.getD p
  | .stop => p.stop
  | .cancelParent => p.cancelParent
  | .addHooks side hooks => p.addHooks side hooks
  | .update change => p.update change
  | .takeErrors => p.takeErrors.2
  | .dropErrors => p.dropErrors
  | .readErrors => p.readErrors.2
  | .advance ms => p.advance ms
  | .join ms => p.join ms

/-- The pool after commands, with everything done after each that is due then. -/
def perform (p : Pool C) (commands : List (Command C)) : Pool C :=
  commands.foldl (fun p command => (p.command command).settle) p

theorem paced_plan (plan : PoolPlan C) (n : Nat) : (plan.worker n).Paced :=
  ⟨plan.active_ne_zero, plan.idle_ne_zero⟩

theorem paced_start {q : Pool C} (h : p.start = .ok q) : q.Paced := by
  unfold start at h
  split at h
  · cases h
  · cases h
    intro seat mem
    obtain ⟨w, mem_crew, rfl⟩ := List.mem_map.mp mem
    obtain ⟨n, _, rfl⟩ := List.mem_map.mp mem_crew
    exact paced_plan p.plan (n + 1)

/-- Each command is made up of single steps, and leaves a paced pool paced. -/
theorem runs_command (quiet : p.Quiet) (paced : p.Paced) (command : Command C) :
    (∃ events, p.Runs events (p.command command)) ∧ (p.command command).Paced := by
  cases command with
  | start =>
    cases started : p.start with
    | error e =>
      rw [Pool.command, started]
      exact ⟨⟨_, .refl⟩, paced⟩
    | ok q =>
      rw [Pool.command, started]
      exact ⟨⟨_, .single (.owner (.start started))⟩, paced_start started⟩
  | stop => exact ⟨⟨_, .single (.owner .stop)⟩, paced⟩
  | cancelParent => exact ⟨⟨_, .single (.owner .cancelParent)⟩, paced⟩
  | addHooks side hooks => exact ⟨⟨_, .single (.owner (.addHooks side hooks))⟩, paced⟩
  | update change => exact ⟨⟨_, .single (.owner (.update change))⟩, paced⟩
  | takeErrors => exact ⟨⟨_, .single (.owner .takeErrors)⟩, paced⟩
  | dropErrors => exact ⟨⟨_, .single (.owner .dropErrors)⟩, paced⟩
  | readErrors => exact ⟨⟨_, .single (.owner .readErrors)⟩, paced⟩
  | advance ms =>
    obtain ⟨runs, _, paced'⟩ := leads_advance quiet paced ms
    exact ⟨runs, paced'⟩
  | join ms =>
    obtain ⟨runs, _, paced'⟩ := leads_join quiet paced ms
    exact ⟨runs, paced'⟩

/-- Whatever an owner does leads a quiet pool on. -/
theorem leads_perform (quiet : p.Quiet) (paced : p.Paced) (commands : List (Command C)) :
    p.Leads (p.perform commands) := by
  induction commands generalizing p with
  | nil => exact ⟨⟨_, .refl⟩, quiet, paced⟩
  | cons command rest ih =>
    obtain ⟨⟨_, commanded⟩, paced'⟩ := runs_command quiet paced command
    obtain ⟨_, settles⟩ := runs_settle (p.command command)
    have settled : p.Leads (p.command command).settle :=
      ⟨⟨_, commanded.trans settles⟩, quiet_settle paced', paced_settle paced'⟩
    exact settled.trans (ih settled.2.1 settled.2.2)

/-- Whatever the owner of a new pool does with it comes about in single steps. -/
theorem runs_perform (b : PoolBuilder C) (state : C.State) (commands : List (Command C)) :
    ∃ events, (build b state).Runs events ((build b state).perform commands) := by
  have quiet : (build b state).Quiet := ⟨List.forall_mem_nil _, rfl⟩
  have paced : (build b state).Paced := List.forall_mem_nil _
  exact (leads_perform quiet paced commands).1

end Pool

end WorkerPool
