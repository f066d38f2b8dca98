import WorkerPool.Proofs.Disposal
import WorkerPool.Proofs.Draining

/-!
# What a cancellation does to a run

From the moment at which a pool's token is cancelled no work is begun and no task is attempted again,
because nothing does so but after a wait that heeds the token. Whoever is in such a wait is woken in
that very millisecond: the worker between two iterations leaves, the retries of a task are given up.
Whoever has a task checked out goes on until it is disposed of. When the last worker has left, the run
returns, and it does so in the same millisecond. `Pool.WindsDown` puts all this together for a pool whose
token is cancelled and whatever becomes of it then.
-/

namespace WorkerPool

variable {C : Client} {t moment : Nat}

/-! ## One task -/

/-- What the cancellation does to the work on a task. -/
structure TaskRun.CutAt (maxAttempts moment : Nat) (run : TaskRun C) : Prop where
  /-- Only the first attempt may be begun later. -/
  begun_le : ∀ (i : Nat) (a : Stretch C C.Task), run.processing.attempts[i + 1]? = some a →
    a.begun ≤ moment
  /-- Where the last attempt failed although there were others left, the retries were cancelled in that
  millisecond, or when the attempt was over if that was later. -/
  cancelled : ∀ (last : Stretch C C.Task) (e : PoolError),
    run.processing.attempts.getLast? = some last → last.outcome = .error e →
    run.processing.attempts.length < maxAttempts →
    run.processing.tried = some (.error .cancelled) ∧ run.resumed = max last.ended moment

/-- What the moment of the cancellation does to the work on a task follows from how the attempts went. -/
theorem TaskRun.Follows.cutAt {it : Iteration C} {run : TaskRun C} (h : run.Follows it (some moment)) :
    run.CutAt it.retry.maxAttempts moment := by
  have goes := h.processed
  constructor
  case begun_le =>
    intro i a at_next
    obtain ⟨_, _, _, _, course⟩ := goes.tries (List.ne_nil_of_mem (List.mem_of_getElem? at_next))
    obtain ⟨before, at_i⟩ : ∃ before, run.processing.attempts[i]? = some before := by
      have lt := (List.getElem?_eq_some_iff.mp at_next).1
      exact ⟨_, List.getElem?_eq_getElem (Nat.lt_of_succ_lt lt)⟩
    obtain ⟨_, _, le⟩ := course.between i before a at_i at_next
    exact le moment rfl
  case cancelled =>
    intro last e last_eq failed left
    obtain ⟨result, tried, _, _, course⟩ :=
      goes.tries (List.ne_nil_of_mem (List.mem_of_getLast? last_eq))
    obtain rfl := Option.some.inj (course.last_eq.symm.trans last_eq)
    have cancelled := course.cancelled_of_left failed left
    obtain ⟨_, _, moment', mem, _, resumed⟩ := course.cancelled_iff.mp cancelled
    cases mem
    exact ⟨tried.trans (congrArg some cancelled), resumed⟩

/-- What the cancellation does to a round. -/
def Round.CutAt (maxAttempts moment : Nat) : Round C → Prop
  | worked run => run.CutAt maxAttempts moment
  | idle _ _ | panicked _ _ => True

/-- It does the same to a round, if a task was worked on in it. -/
theorem Round.Follows.cutAt {it : Iteration C} {round : Round C} (h : round.Follows it (some moment)) :
    round.CutAt it.retry.maxAttempts moment := by
  cases round with
  | worked run => exact TaskRun.Follows.cutAt h
  | idle | panicked => exact trivial

/-! ## One thread -/

namespace Thread

variable {w : Worker C} {s s' : Shared C} {thread thread' : Thread C} {steps : List (Step C)}

/-- No wait that heeds a cancelled token runs out. -/
theorem Acts.unelapsed (acts : thread.Acts w s steps thread' s') (cancelled : s.cancelled = true) :
    ∀ step ∈ steps, step.deed ≠ .waited true .elapsed := by
  have unfree {heeds : Bool} (free : heeds = true → s.cancelled = false) : heeds ≠ true := by
    rintro rfl
    rw [free rfl] at cancelled
    cases cancelled
  intro step mem
  cases acts with
  | ask | notice | wake =>
    cases List.mem_singleton.mp mem
    exact nofun
  | skip free | elapse free =>
    cases List.mem_singleton.mp mem
    rintro ⟨⟩
    exact unfree free rfl
  | sleep | proceed | leave | crash => cases mem

/-- Whether a thread leaves without waiting any more, once the token is cancelled: its worker waits
between two iterations, or it is on its way out. -/
inductive Quits (w : Worker C) : Thread C → Prop
  | polls (due : Nat) (state : WorkerState) : Quits w (.waiting due true (w.wakeUp state))
  | leaves {code : Code C (Option WorkerState)} (quits : code.Quits) : Quits w (.ready code)
  | exited : Quits w .exited

/-- With the token cancelled, whatever a thread does that is to quit, it is still to quit afterwards. -/
theorem Quits.acts (h : Quits w thread) (acts : thread.Acts w s steps thread' s')
    (cancelled : s.cancelled = true) : Quits w thread' := by
  cases h with
  | polls due state =>
    cases acts with
    | wake => exact .leaves (w.quits_wakeUp state)
    | elapse free =>
      rw [free rfl] at cancelled
      cases cancelled
  | leaves quits =>
    cases quits with
    | done =>
      cases acts with
      | leave => exact .exited
    | ask next =>
      cases acts with
      | ask => exact .leaves (next _)
  | exited => cases acts

/-- A thread that has nothing left to do is asleep only when it has exited. -/
theorem Quits.exited_of_asleep (h : Quits w thread) (asleep : thread.wake? s = none)
    (cancelled : s.cancelled = true) : thread = .exited := by
  cases h with
  | polls =>
    rw [wake?_waiting, cancelled] at asleep
    cases asleep
  | leaves => cases asleep
  | exited => rfl

end Thread

namespace Pool

variable {plan : PoolPlan C} {p q : Pool C} {events more : List (Nat × Step C)}

/-- In a step of a run that was started, a worker's thread takes a step or is left alone; and time
passes only when everybody is asleep. -/
theorem Underway.at_seat (h : Underway plan p events t) (acts : p.Acts more q) {n : Nat} {seat : Seat C}
    (at_n : p.crew[n]? = some seat) :
    (∃ thread s, seat.thread.Acts seat.worker p.shared (history n more) thread s ∧
      q.crew[n]? = some { seat with thread } ∧ q.shared.clock = p.shared.clock) ∨
    history n more = [] ∧ q.crew[n]? = some seat ∧ (q.shared.clock = p.shared.clock ∨ p.Quiet) := by
  cases acts with
  | owner acts =>
    have spares := h.spares acts
    exact .inr ⟨rfl, spares.crew_eq ▸ at_n, .inl spares.clock_eq⟩
  | report =>
    have spares := spares_fireReports p
    exact .inr ⟨rfl, spares.crew_eq ▸ at_n, .inl spares.clock_eq⟩
  | conclude finished =>
    rw [Pool.conclude, if_pos finished]
    exact .inr ⟨rfl, at_n, .inl p.closed_same.1⟩
  | tick _ quiet => exact .inr ⟨rfl, at_n, .inr quiet⟩
  | @work m seat' thread s steps at_m acts =>
    obtain ⟨_, clock, _⟩ := acts.evolves
    by_cases same : m = n
    · subst same
      cases Option.some.inj (at_m.symm.trans at_n)
      rw [history_map_self]
      exact .inl ⟨thread, s, acts, withThread_at_self at_n, clock⟩
    · rw [history_map_of_ne same]
      exact .inr ⟨rfl, (withThread_at_of_ne same).trans at_n, .inl clock⟩

/-- Once the token is cancelled, no wait that heeds it runs out. -/
theorem Runs.unelapsed (later : p.Runs more q) (cancelled : p.shared.cancelled = true) :
    ∀ event ∈ more, event.2.deed ≠ .waited true .elapsed := by
  induction later with
  | refl => exact nofun
  | snoc before acts ih =>
    intro event mem
    rcases List.mem_append.mp mem with mem | mem
    · exact ih event mem
    · cases acts with
      | owner | report | conclude | tick => cases mem
      | work _ acts =>
        obtain ⟨step, mem_steps, rfl⟩ := List.mem_map.mp mem
        exact acts.unelapsed (before.evolves.cancelled cancelled) step mem_steps

/-- A worker that waits between two iterations when the token is cancelled leaves in the same
millisecond. -/
theorem Underway.quits (h : Underway plan p events t) (cancelled : p.shared.cancelled = true) {n : Nat}
    {seat : Seat C} (at_n : p.crew[n]? = some seat) (quits : seat.thread.Quits seat.worker)
    (later : p.Runs more q) :
    ∃ thread, q.crew[n]? = some { seat with thread } ∧ thread.Quits seat.worker ∧
      (thread = .exited ∨ q.shared.clock = p.shared.clock) := by
  induction later with
  | refl => exact ⟨seat.thread, at_n, quits, .inr rfl⟩
  | snoc before acts ih =>
    obtain ⟨thread, at_n', quits, still⟩ := ih
    have cancelled' := before.evolves.cancelled cancelled
    rcases (h.runs before).at_seat acts at_n' with ⟨thread', s, step, at_n'', clock⟩ | ⟨_, at_n'', passed⟩
    · refine ⟨thread', at_n'', quits.acts step cancelled', ?_⟩
      rcases still with rfl | still
      · cases step
      · exact .inr (clock.trans still)
    · refine ⟨thread, at_n'', quits, ?_⟩
      rcases still with exited | still
      · exact .inl exited
      rcases passed with clock | quiet
      · exact .inr (clock.trans still)
      · exact .inl (quits.exited_of_asleep (quiet.1 _ (List.mem_of_getElem? at_n')) cancelled')

/-- Whoever waits heeding the token when it is cancelled is woken in the same millisecond. -/
theorem Underway.woken (h : Underway plan p events t) (cancelled : p.shared.cancelled = true) {n : Nat}
    {seat : Seat C} (at_n : p.crew[n]? = some seat) {due : Nat}
    {next : Wake → Code C (Option WorkerState)} (waits : seat.thread = .waiting due true next)
    (later : p.Runs more q) :
    (q.crew[n]? = some seat ∧ history n more = [] ∧ q.shared.clock = p.shared.clock) ∨
      ∃ rest, history n more = ⟨p.shared.clock, .waited true .cancelled⟩ :: rest := by
  induction later with
  | refl => exact .inl ⟨at_n, rfl, rfl⟩
  | @snoc before_events _ middle _ before acts ih =>
    have cancelled' := before.evolves.cancelled cancelled
    rw [history_append]
    rcases ih with ⟨at_n', none, still⟩ | ⟨rest, woken⟩
    · -- Until it is woken the worker sleeps, and no time passes, since a sleeper who heeds would wake first.
      rcases (h.runs before).at_seat acts at_n' with ⟨thread', s, step, _, _⟩ | ⟨none', at_n'', passed⟩
      · right
        rw [waits] at step
        generalize shown : history n _ = steps at step
        cases step with
        | wake => exact ⟨[], by rw [none, still]; rfl⟩
        | elapse free =>
          rw [free rfl] at cancelled'
          cases cancelled'
      · left
        refine ⟨at_n'', by rw [none, none']; rfl, ?_⟩
        rcases passed with clock | quiet
        · exact clock.trans still
        · have asleep := quiet.1 seat (List.mem_of_getElem? at_n')
          rw [waits, Thread.wake?_waiting, cancelled'] at asleep
          cases asleep
    · exact .inr ⟨_, by rw [woken]; rfl⟩

/-- A worker that is there has been there since the start. -/
theorem Underway.exists_seat (h : Underway plan p events t) (later : Underway plan q more t) {n : Nat}
    {seat : Seat C} (at_n : q.crew[n]? = some seat) : ∃ before, p.crew[n]? = some before := by
  have lt : n < p.crew.length := by
    rw [h.length_eq, ← later.length_eq]
    exact (List.getElem?_eq_some_iff.mp at_n).1
  exact ⟨_, List.getElem?_eq_getElem lt⟩

/-- Whoever waits heeding the token has not seen the clock go on since it was cancelled. -/
theorem Underway.clock_eq (h : Underway plan p events t) {moment : Nat}
    (since : p.shared.cancelledSince = some moment) {n : Nat} {seat : Seat C}
    (at_n : p.crew[n]? = some seat) {due : Nat} {next : Wake → Code C (Option WorkerState)}
    (waits : seat.thread = .waiting due true next) : p.shared.clock = moment := by
  have own := h.at_history n seat at_n
  rw [waits] at own
  exact (own.moment_eq since).symm

/-- A pool under way has at least one worker, for it was planned so. -/
theorem Underway.crew_inhabited (h : Underway plan p events t) :
    ∃ (n : Nat) (seat : Seat C), p.crew[n]? = some seat := by
  have pos : 0 < p.crew.length := h.length_eq ▸ plan.workers_pos
  exact ⟨0, _, List.getElem?_eq_getElem pos⟩

/-- As long as somebody is there, the run has not returned. -/
theorem Underway.returned_eq_none (h : Underway plan p events t) {n : Nat} {seat : Seat C}
    (at_n : p.crew[n]? = some seat) (inside : seat.thread ≠ .exited) : p.returned = none := by
  cases returned : p.returned with
  | none => rfl
  | some result =>
    obtain ⟨exited, _⟩ := (h.returned_at result.1 result.2 returned).all n seat at_n
    exact absurd exited inside

/-- A run returns once, and then time may pass; before that, time passes only when everybody is
asleep. -/
theorem Underway.returned_cases (h : Underway plan p events t) (acts : p.Acts more q) :
    q.returned = p.returned ∧ (q.shared.clock = p.shared.clock ∨ p.Quiet) ∨
      p.returned = none ∧ q.shared.clock = p.shared.clock ∧
        ∃ result, q.returned = some (p.shared.clock, result) := by
  cases acts with
  | owner acts =>
    have spares := h.spares acts
    exact .inl ⟨spares.returned_eq, .inl spares.clock_eq⟩
  | report =>
    have spares := spares_fireReports p
    exact .inl ⟨spares.returned_eq, .inl spares.clock_eq⟩
  | work _ acts => exact .inl ⟨rfl, .inl acts.evolves.2.1⟩
  | tick _ quiet => exact .inl ⟨rfl, .inr quiet⟩
  | conclude finished =>
    right
    have running : p.shared.running = true := ((Bool.and_eq_true ..).mp finished).1
    rw [h.running_iff] at running
    rw [Pool.conclude, if_pos finished]
    exact ⟨Option.isNone_iff_eq_none.mp running, p.closed_same.1, _, rfl⟩

/-- A run that goes on does not stand still: if everybody has left, the run is to be concluded. -/
theorem Underway.not_quiet (h : Underway plan p events t)
    (exited : ∀ seat ∈ p.crew, seat.thread = .exited) (pending : p.returned = none) : ¬ p.Quiet := by
  rintro ⟨_, finished⟩
  have all : p.crew.all (·.thread.isExited) = true := by
    refine List.all_eq_true.mpr fun seat mem => ?_
    rw [exited seat mem]
    rfl
  rw [isOver, all, h.running_iff, pending] at finished
  cases finished

/-- If all workers wait between two iterations when the token is cancelled, the run returns in the same
millisecond. -/
theorem Underway.returns_at_once (h : Underway plan p events t) (cancelled : p.shared.cancelled = true)
    (quits : ∀ seat ∈ p.crew, seat.thread.Quits seat.worker) (pending : p.returned = none)
    (later : p.Runs more q) :
    q.shared.clock = p.shared.clock ∧ q.returned = none ∨
      ∃ result, q.returned = some (p.shared.clock, result) := by
  induction later with
  | refl => exact .inl ⟨rfl, pending⟩
  | @snoc _ _ middle _ before acts ih =>
    have underway := h.runs before
    rcases ih with ⟨still, pending'⟩ | ⟨result, returned⟩
    · rcases underway.returned_cases acts with ⟨same, passed⟩ | ⟨_, _, result, returned⟩
      · left
        refine ⟨?_, same.trans pending'⟩
        rcases passed with clock | quiet
        · exact clock.trans still
        · -- Everybody is asleep, so everybody has left, and nobody may rest before the run returns.
          have exited : ∀ seat ∈ middle.crew, seat.thread = .exited := by
            intro seat' mem
            obtain ⟨n, at_n'⟩ := List.mem_iff_getElem?.mp mem
            obtain ⟨seat, at_n⟩ := h.exists_seat underway at_n'
            obtain ⟨thread, now_at_n, leaving, _⟩ :=
              h.quits cancelled at_n (quits seat (List.mem_of_getElem? at_n)) before
            cases Option.some.inj (now_at_n.symm.trans at_n')
            exact leaving.exited_of_asleep (quiet.1 _ mem) (before.evolves.cancelled cancelled)
          exact absurd quiet (underway.not_quiet exited pending')
      · exact .inr ⟨result, still ▸ returned⟩
    · rcases underway.returned_cases acts with ⟨same, _⟩ | ⟨pending', _⟩
      · exact .inr ⟨result, same.trans returned⟩
      · rw [returned] at pending'
        cases pending'

/-! ## Everything together -/

/-- What becomes of a run that was started in millisecond `t` when its token is cancelled: `p` is the pool
after `events`, the token being cancelled since millisecond `moment`, and `q` the pool after `more`. -/
structure WindsDown (plan : PoolPlan C) (t moment : Nat) (p : Pool C) (events : List (Nat × Step C))
    (q : Pool C) (more : List (Nat × Step C)) : Prop where
  /-- No wait for the next iteration and no backoff runs out any more. -/
  unelapsed : ∀ event ∈ more, event.2.deed ≠ .waited true .elapsed
  /-- So every call of a worker's work was begun by then; without layers such a call is an iteration,
  which begins with a checkout. -/
  works : ∀ (n : Nat) (seat : Seat C), q.crew[n]? = some seat → ∃ ahead next t' shifts,
    seat.worker.Tour (some moment) t (history n (events ++ more) ++ ahead) next t' shifts ∧
      (∀ shift ∈ shifts, shift.call.begun ≤ moment) ∧
      (plan.layers = [] → ∀ shift ∈ shifts,
        shift.call.IsOf (some moment) (plan.iteration.work seat.worker.id)) ∧
      (seat.thread = .exited → ahead = [] ∧ next = none)
  /-- A worker that waited between two iterations has left before the clock goes on. -/
  polling : ∀ (n : Nat) (seat : Seat C) (due : Nat) (state : WorkerState), p.crew[n]? = some seat →
    seat.thread = .waiting due true (seat.worker.wakeUp state) →
    q.shared.clock = moment ∨ q.crew[n]? = some { seat with thread := .exited }
  /-- Whoever waited heeding the token, between two iterations or in a backoff, has been woken before
  the clock goes on. -/
  woken : ∀ (n : Nat) (seat : Seat C) (due : Nat) (next : Wake → Code C (Option WorkerState)),
    p.crew[n]? = some seat → seat.thread = .waiting due true next →
    q.shared.clock = moment ∨ ∃ rest, history n more = ⟨moment, .waited true .cancelled⟩ :: rest
  /-- Every task that was checked out is worked on until it is disposed of, but not attempted again. -/
  rounds : ∀ (n : Nat) (seat : Seat C), q.crew[n]? = some seat →
    ∃ (rounds : List (Round C)) (ahead : List (Nat × Mark C)),
      (∀ round ∈ rounds, round.Orderly plan.iteration.retry.maxAttempts ∧
        round.CutAt plan.iteration.retry.maxAttempts moment) ∧
      callsIn (marks (history n (events ++ more))) ++ ahead = rounds.flatMap Round.calls ∧
      (seat.thread = .exited → ahead = [])
  /-- The run returns when the last of its workers leaves. -/
  returned_at : ∀ (t' : Nat) (result : PoolResult Unit), q.returned = some (t', result) →
    q.LeftBy (events ++ more) t t'
  /-- While all have left and the run has not returned, the clock does not go on. -/
  returns : (∀ seat ∈ q.crew, seat.thread = .exited) → q.returned = none →
    q.LeftBy (events ++ more) t q.shared.clock
  at_once : (∀ seat ∈ p.crew, ∃ due state, seat.thread = .waiting due true (seat.worker.wakeUp state)) →
    q.shared.clock = moment ∨ ∃ result, q.returned = some (moment, result)
  /-- Nothing can keep the run from returning. -/
  onward : ∃ further r, q.Runs further r ∧ r.returned.isSome = true

/-- Whatever happens to a run whose token is cancelled, it winds down. -/
theorem runs_wind_down (b : PoolBuilder C) (state : C.State) (runs : (build b state).Runs events p)
    (started : p.startedAt = some t) (since : p.shared.cancelledSince = some moment)
    (later : p.Runs more q) : WindsDown b.plan t moment p events q more := by
  have underway : Underway b.plan p events t := runs_underway b state runs started
  have cancelled : p.shared.cancelled = true := Shared.cancelled_iff.mpr ⟨moment, since⟩
  have underway' := underway.runs later
  have since' : q.shared.cancelledSince = some moment := later.evolves.mem since
  constructor
  case unelapsed => exact later.unelapsed cancelled
  -- What a worker has done so far is the beginning of a loop, whose calls all heed the cancellation.
  case works =>
    intro n seat at_n
    have : Nonempty C.State := ⟨state⟩
    obtain ⟨ahead, next, t', loops, whole⟩ := (underway'.at_history n seat at_n).exists_loops
    rw [since'] at loops
    obtain ⟨_, shifts, he, tour⟩ := loops.tour
    cases he
    refine ⟨ahead, next, t', shifts, tour, fun shift mem => tour.heeded shift mem moment rfl, ?_, whole⟩
    intro unlayered shift mem
    have isOf := tour.isOf shift mem
    rwa [underway'.work_eq at_n, unlayered] at isOf
  case polling =>
    intro n seat due state at_n waits
    have quits : seat.thread.Quits seat.worker := waits ▸ .polls due state
    rcases underway.quits cancelled at_n quits later with ⟨thread, at_n', _, rfl | still⟩
    · exact .inr at_n'
    · exact .inl (still.trans (underway.clock_eq since at_n waits))
  case woken =>
    intro n seat due next at_n waits
    rcases underway.woken cancelled at_n waits later with ⟨_, _, still⟩ | ⟨rest, woken⟩
    · exact .inl (still.trans (underway.clock_eq since at_n waits))
    · exact .inr ⟨rest, underway.clock_eq since at_n waits ▸ woken⟩
  case rounds =>
    intro n seat at_n
    obtain ⟨rounds, ahead, follows, calls_eq, whole⟩ := underway'.rounds at_n
    rw [since'] at follows
    exact ⟨rounds, ahead, fun round mem => ⟨(follows round mem).orderly, (follows round mem).cutAt⟩,
      calls_eq, whole⟩
  case returned_at => exact underway'.returned_at
  -- A run that could return, but did not, would be at rest with everyone gone.
  case returns =>
    intro exited pending
    refine underway'.over_now (Classical.byContradiction fun finished => ?_)
    refine underway'.not_quiet exited pending ⟨fun seat mem => ?_, by simpa using finished⟩
    rw [exited seat mem]
    rfl
  -- All workers poll, so each of them quits, and none needs time for that.
  case at_once =>
    intro polling
    obtain ⟨n, seat, at_n⟩ := underway.crew_inhabited
    obtain ⟨due, state, waits⟩ := polling seat (List.mem_of_getElem? at_n)
    have pending : p.returned = none := underway.returned_eq_none at_n (by rw [waits]; exact nofun)
    have still : p.shared.clock = moment := underway.clock_eq since at_n waits
    have quits : ∀ seat ∈ p.crew, seat.thread.Quits seat.worker := by
      intro seat mem
      obtain ⟨due, state, waits⟩ := polling seat mem
      exact waits ▸ .polls due state
    rcases underway.returns_at_once cancelled quits pending later with ⟨clock, _⟩ | ⟨result, returned⟩
    · exact .inl (clock.trans still)
    · exact .inr ⟨result, still ▸ returned⟩
  case onward => exact underway'.runs_return (later.evolves.cancelled cancelled)

/-- A run that is stopped while its worker waits for its first iteration. -/
theorem runs_wind_down_at_once :
    ∃ events p more q, (build lonely ()).Runs events p ∧ p.startedAt = some 0 ∧
      p.shared.cancelledSince = some 3 ∧ p.Runs more q ∧ q.returned.map (·.1) = some 3 ∧
      WindsDown lonely.plan 0 3 p events q more := by
  obtain ⟨events, runs⟩ := runs_perform lonely () [.start, .advance 3]
  have stopped := runs.snoc (.owner .stop)
  obtain ⟨more, settles⟩ := runs_settle ((build lonely ()).perform [.start, .advance 3]).stop
  have started : ((build lonely ()).perform [.start, .advance 3]).stop.startedAt = some 0 := by
    decide +kernel
  have since : ((build lonely ()).perform [.start, .advance 3]).stop.shared.cancelledSince = some 3 := by
    decide +kernel
  exact ⟨_, _, more, _, stopped, started, since, settles, by decide +kernel,
    runs_wind_down lonely () stopped started since settles⟩

end Pool

end WorkerPool
