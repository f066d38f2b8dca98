import WorkerPool.Proofs.Histories

/-!
# A cancelled run comes to its end

Once the token is cancelled, a worker goes on with what it has begun and then leaves: its thread has
finitely many steps left, whatever it is told and whatever the other threads do in between
(`acc_after`). And as long as the run has not returned, something can be done, if need be after some
time. So every run whose token is cancelled can be brought to return (`Pool.Underway.runs_return`), and
no task that is checked out gets stuck.
-/

namespace WorkerPool

variable {C : Client}

/-! ## Threads have finitely many steps left -/

/-- Whether a worker's thread may become another in one step, the token being cancelled. -/
def Thread.After (w : Worker C) (after before : Thread C) : Prop :=
  ∃ (s : Shared C) (steps : List (Step C)) (s' : Shared C), s.cancelled = true ∧
    before.Acts w s steps after s'

/-- Code that ends a loop without waiting any more. -/
inductive Code.Quits : Code C (Option WorkerState) → Prop
  | done : Quits (.done none)
  | ask {request : Request C} {next : C.poolInterface.Answer request → Code C (Option WorkerState)}
      (h : ∀ answer, Quits (next answer)) : Quits (.ask request next)

namespace Worker

variable {w : Worker C}

/-- A worker that says goodbye leaves without waiting. -/
theorem quits_closing (w : Worker C) : Code.Quits (do w.closing; return none) :=
  .ask fun _ => .ask fun _ => .done

/-- A worker that is woken by the cancellation quits. -/
theorem quits_wakeUp (w : Worker C) (state : WorkerState) : (w.wakeUp state .cancelled).Quits :=
  .ask fun _ => w.quits_closing

/-- A thread whose worker has left has no steps at all. -/
theorem acc_exited (w : Worker C) : Acc (Thread.After w) .exited := by
  constructor
  rintro after ⟨_, _, _, _, acts⟩
  cases acts

/-- Code that waits no more has finitely many steps left, one for each request and one to leave. -/
theorem acc_of_quits {code : Code C (Option WorkerState)} (h : code.Quits) :
    Acc (Thread.After w) (.ready code) := by
  induction h with
  | done =>
    constructor
    rintro thread ⟨_, _, _, _, acts⟩
    cases acts with
    | leave => exact w.acc_exited
  | ask _ ih =>
    constructor
    rintro thread ⟨_, _, _, _, acts⟩
    cases acts with
    | ask => exact ih _

/-- A segment that begins when the token is cancelled is soon over. -/
theorem acc_segment (w : Worker C) (state : WorkerState) :
    Acc (Thread.After w) (.ready (w.segment state)) := by
  cases interval : w.schedule.interval? state with
  | none =>
    rw [segment_of_over interval]
    exact acc_of_quits w.quits_closing
  | some delay =>
    rw [segment_of_interval interval]
    constructor
    rintro thread ⟨s, _, _, cancelled, acts⟩
    have unfree : ¬ (true = true → s.cancelled = false) := by simp [cancelled]
    generalize delay.ceilMillis = ms at acts
    cases acts with
    | notice => exact acc_of_quits (w.quits_wakeUp state)
    | skip free | sleep free => exact absurd free unfree

/-- With the token cancelled any code has finitely many steps left, for its waits are over at once or when their
time has come, and what follows a segment quits. -/
theorem acc_ready (w : Worker C) (code : Code C (Option WorkerState)) :
    Acc (Thread.After w) (.ready code) := by
  induction code with
  | done value =>
    constructor
    rintro thread ⟨_, _, _, _, acts⟩
    cases acts with
    | proceed state => exact w.acc_segment state
    | leave => exact w.acc_exited
  | panic x =>
    constructor
    rintro thread ⟨_, _, _, _, acts⟩
    cases acts with
    | crash => exact w.acc_exited
  | ask request next ih =>
    constructor
    rintro thread ⟨_, _, _, _, acts⟩
    cases acts with
    | ask => exact ih _
  | wait ms heeds next ih =>
    constructor
    rintro thread ⟨_, _, _, _, acts⟩
    cases acts with
    | skip | notice => exact ih _
    -- A sleeping thread has one step more than the code it sleeps in: to wake up.
    | sleep =>
      constructor
      rintro thread ⟨_, _, _, _, acts⟩
      cases acts with
      | elapse | wake => exact ih _

end Worker

/-- A thread has finitely many steps left once the token is cancelled. -/
theorem acc_after (w : Worker C) (thread : Thread C) : Acc (Thread.After w) thread := by
  cases thread with
  | ready code => exact w.acc_ready code
  | exited => exact w.acc_exited
  | waiting due heeds next =>
    constructor
    rintro thread ⟨_, _, _, _, acts⟩
    cases acts with
    | elapse | wake => exact w.acc_ready _

/-- Whether seats may become others by a step of one of their threads. -/
def CrewAfter (after before : List (Seat C)) : Prop :=
  ∃ (n : Nat) (seat : Seat C) (thread : Thread C), before[n]? = some seat ∧
    thread.After seat.worker seat.thread ∧ after = before.set n { seat with thread }

/-- A crew has finitely many steps left if its first thread and the others have. -/
theorem acc_cons {w : Worker C} {thread : Thread C} (h : Acc (Thread.After w) thread)
    {rest : List (Seat C)} (g : Acc CrewAfter rest) : Acc CrewAfter (⟨w, thread⟩ :: rest) := by
  induction h generalizing rest with
  | intro thread _ ih =>
    induction g with
    | intro rest g ih' =>
      constructor
      rintro _ ⟨n, seat, thread', at_n, after, rfl⟩
      cases n with
      | zero =>
        cases at_n
        exact ih thread' after (.intro rest g)
      | succ n => exact ih' _ ⟨n, seat, thread', at_n, after, rfl⟩

/-- However the threads of a crew take turns, they have finitely many steps left. -/
theorem acc_crewAfter (crew : List (Seat C)) : Acc CrewAfter crew := by
  induction crew with
  | nil =>
    constructor
    rintro _ ⟨n, _, _, at_n, _⟩
    cases at_n
  | cons seat rest ih => exact acc_cons (acc_after seat.worker seat.thread) ih

/-! ## Something can be done -/

/-- Ready code can always do its next step. -/
theorem Program.exists_acts (w : Worker C) (code : Code C (Option WorkerState)) (s : Shared C) :
    ∃ steps thread s', Thread.Acts w s (.ready code) steps thread s' := by
  cases code with
  | done value =>
    cases value with
    | some state => exact ⟨_, _, _, .proceed state⟩
    | none => exact ⟨_, _, _, .leave⟩
  | panic x => exact ⟨_, _, _, .crash x⟩
  | ask request next => exact ⟨_, _, _, .ask request next⟩
  | wait ms heeds next =>
    by_cases cancelled : (heeds && s.cancelled) = true
    · obtain ⟨rfl, noticed⟩ := (Bool.and_eq_true ..).mp cancelled
      exact ⟨_, _, _, .notice noticed⟩
    · have free : heeds = true → s.cancelled = false := by simpa using cancelled
      by_cases none : ms = 0
      · subst none
        exact ⟨_, _, _, .skip free⟩
      · exact ⟨_, _, _, .sleep free none⟩

/-- A thread that can run takes a step. -/
theorem Thread.exists_acts (w : Worker C) {thread : Thread C} {s : Shared C}
    (awake : thread.wake? s ≠ none) : ∃ steps thread' s', thread.Acts w s steps thread' s' := by
  cases thread with
  | ready code => exact code.exists_acts w s
  | exited => exact absurd rfl awake
  | waiting due heeds next =>
    rw [wake?_waiting] at awake
    by_cases cancelled : (heeds && s.cancelled) = true
    · obtain ⟨rfl, noticed⟩ := (Bool.and_eq_true ..).mp cancelled
      exact ⟨_, _, _, .wake noticed⟩
    · rw [if_neg cancelled] at awake
      by_cases le : due ≤ s.clock
      · exact ⟨_, _, _, .elapse (by simpa using cancelled) le⟩
      · rw [if_neg le] at awake
        exact absurd rfl awake

namespace Pool

variable {p q : Pool C} {plan : PoolPlan C} {events : List (Nat × Step C)} {t : Nat}

/-- Time may pass until the first of the workers' waits is over, whatever the collector has due before
that. -/
theorem runs_sleep (quiet : p.Quiet) {target : Nat} (le : p.shared.clock ≤ target)
    (asleep : ∀ seat ∈ p.crew, ∀ due, seat.thread.due? = some due → target ≤ due) :
    p.Runs [] (p.withClock target) := by
  generalize left_eq : target - p.shared.clock = left
  induction left using Nat.strongRecOn generalizing p with
  | ind left ih =>
    cases next : p.nextDue? p.shared.clock with
    | none =>
      have none_later := not_lt_of_nextDue?_eq_none next
      exact runs_withClock quiet le fun due mem later => absurd later (none_later due mem)
    | some due =>
      have first := le_of_nextDue? next
      have later := lt_of_nextDue? next
      by_cases before : due < target
      · have quiet' : (p.withClock due).Quiet := quiet_withClock quiet fun seat mem other waits =>
          Nat.lt_of_lt_of_le before (asleep seat mem other waits)
        have tick := runs_withClock quiet (Nat.le_of_lt later) first
        have clock : (p.withClock due).shared.clock = due := rfl
        have rest : (p.withClock due).Runs [] ((p.withClock due).withClock target) :=
          ih (target - due) (by omega) quiet' (Nat.le_of_lt before) asleep rfl
        exact tick.trans rest
      · refine runs_withClock quiet le fun other mem lt => ?_
        have := first other mem lt
        omega

/-- A thread that can run takes a step, after which fewer are left. -/
theorem exists_work (cancelled : p.shared.cancelled = true) {seat : Seat C} (mem : seat ∈ p.crew)
    (awake : seat.thread.wake? p.shared ≠ none) : ∃ more q, p.Acts more q ∧ CrewAfter q.crew p.crew := by
  obtain ⟨n, at_n⟩ := List.mem_iff_getElem?.mp mem
  obtain ⟨steps, thread, s, acts⟩ := Thread.exists_acts seat.worker awake
  exact ⟨_, _, .work at_n acts, n, seat, thread, at_n, ⟨_, _, _, cancelled, acts⟩, rfl⟩

/-- When all workers are asleep, the first of their waits can be brought to its end. -/
theorem exists_awake (quiet : p.Quiet) {seat : Seat C} (mem : seat ∈ p.crew) {due : Nat}
    (waits : seat.thread.due? = some due) :
    ∃ now, p.Runs [] (p.withClock now) ∧
      ∃ first ∈ p.crew, first.thread.wake? (p.withClock now).shared ≠ none := by
  cases least : (p.crew.filterMap (·.thread.due?)).min? with
  | none =>
    have mem_dues : due ∈ p.crew.filterMap (·.thread.due?) := List.mem_filterMap.mpr ⟨seat, mem, waits⟩
    rw [List.min?_eq_none_iff.mp least] at mem_dues
    cases mem_dues
  | some now =>
    obtain ⟨mem_now, is_least⟩ := List.min?_eq_some_iff.mp least
    obtain ⟨first, mem_first, first_waits⟩ := List.mem_filterMap.mp mem_now
    refine ⟨now, ?_, first, mem_first, ?_⟩
    · refine runs_sleep quiet (Nat.le_of_lt (lt_due_of_quiet quiet mem_first first_waits)) ?_
      intro other mem_other due' waits'
      exact is_least due' (List.mem_filterMap.mpr ⟨other, mem_other, waits'⟩)
    · cases thread : first.thread with
      | ready | exited => rw [thread] at first_waits; cases first_waits
      | waiting due' heeds next =>
        rw [thread] at first_waits
        cases first_waits
        rw [Thread.wake?_waiting]
        split
        · exact Option.some_ne_none _
        · rw [if_pos (show now ≤ (p.withClock now).shared.clock from Nat.le_refl now)]
          exact Option.some_ne_none _

/-- A run whose token is cancelled can be continued until it returns. -/
theorem Underway.runs_return (h : Underway plan p events t) (cancelled : p.shared.cancelled = true) :
    ∃ more q, p.Runs more q ∧ q.returned.isSome = true := by
  generalize crew_eq : p.crew = crew
  induction acc_crewAfter crew generalizing p events with
  | intro crew _ ih =>
    subst crew_eq
    -- Once some thread can run, with the crew as it is, it does, and fewer steps are left.
    have goes_on {q : Pool C} (sleeps : p.Runs [] q) (same : q.crew = p.crew) {seat : Seat C}
        (mem : seat ∈ q.crew) (awake : seat.thread.wake? q.shared ≠ none) :
        ∃ more r, p.Runs more r ∧ r.returned.isSome = true := by
      have cancelled_q := sleeps.evolves.cancelled cancelled
      obtain ⟨step, r, acts, after⟩ := exists_work cancelled_q mem awake
      obtain ⟨more, final, rest, returned⟩ := ih r.crew (same ▸ after) ((h.runs sleeps).acts acts)
        (acts.evolves.cancelled cancelled_q) rfl
      exact ⟨_, final, (sleeps.trans (.single acts)).trans rest, returned⟩
    by_cases awake : ∃ seat ∈ p.crew, seat.thread.wake? p.shared ≠ none
    · obtain ⟨seat, mem, awake⟩ := awake
      exact goes_on .refl rfl mem awake
    have asleep : ∀ seat ∈ p.crew, seat.thread.wake? p.shared = none := by
      intro seat mem
      exact Classical.byContradiction fun other => awake ⟨seat, mem, other⟩
    by_cases finished : p.isOver = true
    · refine ⟨_, _, .single (.conclude finished), ?_⟩
      rw [Pool.conclude, if_pos finished]
      rfl
    have quiet : p.Quiet := ⟨asleep, by simpa using finished⟩
    by_cases waits : ∃ seat ∈ p.crew, ∃ due, seat.thread.due? = some due
    · obtain ⟨seat, mem, due, waits⟩ := waits
      obtain ⟨now, sleeps, first, mem_first, awake⟩ := exists_awake quiet mem waits
      exact goes_on sleeps rfl mem_first awake
    · -- Nobody waits any more, so all have exited; and as the run is not to be concluded, it has been.
      refine ⟨[], p, .refl, ?_⟩
      have exited : p.crew.all (·.thread.isExited) = true := by
        refine List.all_eq_true.mpr fun seat mem => ?_
        have sleeping := asleep seat mem
        cases thread : seat.thread with
        | exited => rfl
        | ready => rw [thread] at sleeping; cases sleeping
        | waiting due heeds next => exact absurd ⟨seat, mem, due, by rw [thread]; rfl⟩ waits
      rw [isOver, exited, Bool.and_true, h.running_iff] at finished
      exact Option.ne_none_iff_isSome.mp (by simpa using finished)

end Pool

end WorkerPool
