import WorkerPool.Proofs.Looping
import WorkerPool.Proofs.Settling

/-!
# The history of each worker

In a run of a pool, what a worker has done so far is what its loop may do, whatever the others did
meanwhile: its thread holds what is left of the loop (`Worker.At`). Every step of the pool keeps to that
(`runs_follows`), so that laws about loops become laws about the workers of a pool. Moreover time does
not pass while a worker is ready, nor while it waits heeding a token that is cancelled, nor while the run
is to be concluded.
-/

namespace WorkerPool

variable {C : Client} {T : Option Nat} {t now : Nat}

namespace Worker

/-- The code at which a loop begins a segment, after what it has done before, in millisecond `t₁`. -/
inductive Begins (w : Worker C) (T : Option Nat) (t : Nat) :
    List (Step C) → Code C (Option WorkerState) → Nat → Prop
  | start : Begins w T t [] w.start t
  | segment {before : List (Step C)} {state : WorkerState} {t₁ : Nat}
      (loops : w.Loops T t before (.ok (some state)) t₁) : Begins w T t before (w.segment state) t₁

/-- What a thread is in millisecond `now` after what its worker has done since millisecond `t`: what is
left of the loop. -/
inductive At (w : Worker C) (T : Option Nat) (t now : Nat) : List (Step C) → Thread C → Prop
  | ready {before steps : List (Step C)} {code₀ code : Code C (Option WorkerState)} {t₁ : Nat}
      (begins : w.Begins T t before code₀ t₁) (reaches : code₀.Reaches T t₁ steps code now) :
      At w T t now (before ++ steps) (.ready code)
  | waiting {before steps : List (Step C)} {code₀ : Code C (Option WorkerState)}
      {ms t₁ t₂ : Nat} {heeds : Bool} {next : Wake → Code C (Option WorkerState)}
      (begins : w.Begins T t before code₀ t₁)
      (reaches : code₀.Reaches T t₁ steps (.wait ms heeds next) t₂) (le : t₂ ≤ now)
      (undue : now ≤ t₂ + waited ms) (unheeded : heeds = true → ∀ moment ∈ T, moment = now) :
      At w T t now (before ++ steps) (.waiting (t₂ + waited ms) heeds next)
  | exited {steps : List (Step C)} {t' : Nat} (loops : w.Loops T t steps (.ok none) t')
      (le : t' ≤ now) : At w T t now steps .exited

variable {w : Worker C}

/-- What was done before a cancellation is as good with the cancellation as without it. -/
theorem Begins.cancel_later {before : List (Step C)} {code : Code C (Option WorkerState)} {t₁ moment : Nat}
    (h : w.Begins none t before code t₁) (le : t₁ ≤ moment) : w.Begins (some moment) t before code t₁ := by
  cases h with
  | start => exact .start
  | segment loops => exact .segment (loops.cancel_later le)

/-- A cancellation in this millisecond leaves it open what a worker did before. -/
theorem At.cancel_now {steps : List (Step C)} {thread : Thread C} (h : w.At none t now steps thread) :
    w.At (some now) t now steps thread := by
  cases h with
  | ready begins reaches => exact .ready (begins.cancel_later reaches.le) (reaches.cancel_later (Nat.le_refl _))
  | waiting begins reaches le undue _ =>
    refine .waiting (begins.cancel_later (Nat.le_trans reaches.le le)) (reaches.cancel_later le) le undue ?_
    intro _ moment mem
    cases mem
    rfl
  | exited loops le => exact .exited (loops.cancel_later le) le

/-- A loop that is done with a segment goes on with the next one, and never panics. -/
theorem Begins.loops {before steps : List (Step C)} {code₀ : Code C (Option WorkerState)} {t₁ t' : Nat}
    {e : Except Panic (Option WorkerState)} (h : w.Begins T t before code₀ t₁)
    (run : code₀.Runs T t₁ steps e t') : w.Loops T t (before ++ steps) e t' := by
  cases h with
  | start => exact .started run
  | segment loops => exact .again loops run

variable {s s' : Shared C} {history steps : List (Step C)} {thread thread' : Thread C}

/-- As long as the clock stands still, what the others do leaves it open what a worker did. -/
theorem At.evolve (h : w.At s.cancelledSince t s.clock history thread) (evolves : s.Evolves s')
    (clock : s'.clock = s.clock) : w.At s'.cancelledSince t s'.clock history thread := by
  rw [clock]
  rcases evolves with ⟨_, same | ⟨never, moment, mem, lower, upper⟩⟩
  · rwa [same]
  · obtain rfl : moment = s.clock := by omega
    rw [never] at h
    rw [Option.mem_def.mp mem]
    exact h.cancel_now

/-- Who may sleep on although the token is cancelled does not heed it. -/
theorem not_mem_of_free {heeds : Bool} (free : heeds = true → s.cancelled = false) (heeded : heeds = true)
    {moment : Nat} (mem : moment ∈ s.cancelledSince) : False := by
  have cancelled := Shared.cancelled_iff.mpr ⟨moment, mem⟩
  rw [free heeded] at cancelled
  cases cancelled

/-- A step that leaves something in the transcript is a step of the code. -/
theorem At.advance {before done : List (Step C)} {code₀ code : Code C (Option WorkerState)} {t₁ t₂ : Nat}
    {step : Step C} (begins : w.Begins T t before code₀ t₁)
    (reaches : code₀.Reaches T t₁ done code t₂)
    {next : Code C (Option WorkerState)} (one : code.Reaches T t₂ [step] next now) :
    w.At T t now (before ++ done ++ [step]) (.ready next) := by
  rw [List.append_assoc]
  exact .ready begins (reaches.trans one)

/-- A worker never panics, since its loop contains every panic. -/
theorem At.not_panic {x : Panic} : ¬ w.At T t now history (.ready (.panic x)) := by
  intro h
  cases h with
  | ready begins reaches =>
    obtain ⟨_, _, _, ending, _⟩ := (begins.loops reaches.runs_panic).consists
    cases ending

/-- A step of a thread is one that its worker's loop may take. -/
theorem At.act (h : w.At s.cancelledSince t s.clock history thread) (past : s.PastCancel)
    (acts : thread.Acts w s steps thread' s') :
    w.At s'.cancelledSince t s'.clock (history ++ steps) thread' := by
  cases acts with
  | ask request next =>
    cases h with
    | ready begins reaches =>
      have asked := At.advance begins reaches (.ask (s.admits_answer (some w.id) request) (.refl _ _))
      exact asked.evolve (s.evolves_answer _ request) (s.clock_answer _ request)
  -- A wait of no length and one that has run out are both over by themselves, with no cancellation before that.
  | skip free =>
    cases h with
    | ready begins reaches =>
      refine At.advance begins reaches (.wait (waitEnds_elapsed_iff.mpr ⟨?_, ?_⟩) (.refl _ _))
      · simp [waited]
      · exact fun heeded moment mem => (not_mem_of_free free heeded mem).elim
  -- The token was cancelled before the wait began, or else while the worker slept, and then it wakes up now.
  | notice cancelled =>
    cases h with
    | ready begins reaches =>
      obtain ⟨moment, mem⟩ := Shared.cancelled_iff.mp cancelled
      have le := past moment mem
      refine At.advance begins reaches (.wait (waitEnds_cancelled_iff.mpr ⟨moment, mem, ?_, ?_⟩) (.refl _ _))
      · omega
      · omega
  | sleep free long =>
    rw [List.append_nil]
    cases h with
    | ready begins reaches =>
      refine .waiting begins reaches (Nat.le_refl _) (Nat.le_add_right ..) ?_
      exact fun heeded moment mem => (not_mem_of_free free heeded mem).elim
  | elapse free le =>
    cases h with
    | waiting begins reaches before undue unheeded =>
      refine At.advance begins reaches (.wait (waitEnds_elapsed_iff.mpr ⟨?_, ?_⟩) (.refl _ _))
      · omega
      · exact fun heeded moment mem => (not_mem_of_free free heeded mem).elim
  | wake cancelled =>
    cases h with
    | waiting begins reaches before undue unheeded =>
      obtain ⟨moment, mem⟩ := Shared.cancelled_iff.mp cancelled
      have now := unheeded rfl moment mem
      refine At.advance begins reaches (.wait (waitEnds_cancelled_iff.mpr ⟨moment, mem, ?_, ?_⟩) (.refl _ _))
      · omega
      · omega
  -- The segment is over, and the loop goes on with the next one.
  | proceed state =>
    rw [List.append_nil]
    cases h with
    | ready begins reaches =>
      have loops := begins.loops reaches.runs_done
      have begun : w.At s.cancelledSince t s.clock (_ ++ []) (.ready (w.segment state)) :=
        .ready (.segment loops) (.refl _ _)
      rwa [List.append_nil] at begun
  | leave =>
    rw [List.append_nil]
    cases h with
    | ready begins reaches => exact .exited (begins.loops reaches.runs_done) (Nat.le_refl _)
  | crash => exact absurd h At.not_panic

/-- While a worker sleeps, time may pass until its wait is over. -/
theorem At.sleep_on (h : w.At s.cancelledSince t s.clock history thread)
    (asleep : thread.wake? s = none) {now : Nat} (le : s.clock ≤ now)
    (undue : ∀ due, thread.due? = some due → now ≤ due) :
    w.At s.cancelledSince t now history thread := by
  cases h with
  | ready => cases asleep
  | @waiting _ _ _ _ _ _ heeds _ begins reaches before _ _ =>
    refine .waiting begins reaches (Nat.le_trans before le) (undue _ rfl) ?_
    rintro rfl moment mem
    rw [Thread.wake?_waiting, Shared.cancelled_iff.mpr ⟨moment, mem⟩] at asleep
    cases asleep
  | exited loops before => exact .exited loops (Nat.le_trans before le)

/-- A worker that has left has come to the end of its loop. -/
theorem At.loops (h : w.At T t now history .exited) :
    ∃ t' ≤ now, w.Loops T t history (.ok none) t' := by
  cases h with
  | exited loops le => exact ⟨_, le, loops⟩

/-- Who waits heeding a token that is cancelled was caught by that in this millisecond. -/
theorem At.moment_eq {due : Nat} {next : Wake → Code C (Option WorkerState)} {moment : Nat}
    (h : w.At T t now history (.waiting due true next)) (mem : moment ∈ T) : moment = now := by
  cases h with
  | waiting _ _ _ _ unheeded => exact unheeded rfl moment mem

/-- A loop that has got to some point has got there also in the light of whatever was cancelled since. -/
theorem Loops.evolve {e : Except Panic (Option WorkerState)} {t' : Nat}
    (h : w.Loops s.cancelledSince t history e t') (le : t' ≤ s.clock) (evolves : s.Evolves s') :
    w.Loops s'.cancelledSince t history e t' := by
  rcases evolves with ⟨_, same | ⟨never, moment, mem, lower, _⟩⟩
  · rwa [same]
  · rw [never] at h
    rw [Option.mem_def.mp mem]
    exact h.cancel_later (Nat.le_trans le lower)

/-- A worker that leaves does so now. -/
theorem At.leave_now (h : w.At s.cancelledSince t s.clock history thread)
    (acts : thread.Acts w s steps .exited s') :
    w.Loops s'.cancelledSince t (history ++ steps) (.ok none) s'.clock := by
  cases acts with
  | leave =>
    rw [List.append_nil]
    cases h with
    | ready begins reaches => exact begins.loops reaches.runs_done
  | crash => exact absurd h At.not_panic

/-- A segment that was begun comes to an end somehow. -/
theorem Begins.exists_loops [Nonempty C.State] {before steps : List (Step C)}
    {first code : Code C (Option WorkerState)} {t₁ t₂ : Nat} (h : w.Begins T t before first t₁)
    (reaches : first.Reaches T t₁ steps code t₂) :
    ∃ ahead next t', w.Loops T t ((before ++ steps) ++ ahead) (.ok next) t' := by
  obtain ⟨ahead, e, t', _, run⟩ := reaches.exists_runs
  have loops := h.loops run
  obtain ⟨next, _, _, rfl, _⟩ := loops.consists
  rw [← List.append_assoc] at loops
  exact ⟨ahead, next, t', loops⟩

/-- What a worker has done so far is the beginning of a loop that has come to the end of a segment, and
all of it if the worker has left. -/
theorem At.exists_loops [Nonempty C.State] (h : w.At T t now history thread) :
    ∃ ahead next t', w.Loops T t (history ++ ahead) (.ok next) t' ∧
      (thread = .exited → ahead = [] ∧ next = none) := by
  cases h with
  | ready begins reaches | waiting begins reaches =>
    obtain ⟨ahead, next, t', loops⟩ := begins.exists_loops reaches
    exact ⟨ahead, next, t', loops, nofun⟩
  | @exited _ t' loops =>
    refine ⟨[], none, t', ?_, fun _ => ⟨rfl, rfl⟩⟩
    rwa [List.append_nil]

end Worker

/-- A step of a thread takes no time and keeps the run going. -/
theorem Thread.Acts.evolves {w : Worker C} {thread thread' : Thread C} {s s' : Shared C}
    {steps : List (Step C)} (acts : thread.Acts w s steps thread' s') :
    s.Evolves s' ∧ s'.clock = s.clock ∧ s'.running = s.running := by
  cases acts with
  | ask request next =>
    exact ⟨s.evolves_answer _ request, s.clock_answer _ request, s.running_answer _ request⟩
  | skip | notice | sleep | elapse | wake | proceed | leave | crash => exact ⟨.refl s, rfl, rfl⟩

namespace Pool

/-! ## The invariant -/

/-- Whether all workers have left by millisecond `t'`, the last of them then. -/
structure LeftBy (p : Pool C) (events : List (Nat × Step C)) (t t' : Nat) : Prop where
  past : t' ≤ p.shared.clock
  all : ∀ (n : Nat) (seat : Seat C), p.crew[n]? = some seat → seat.thread = .exited ∧ ∃ t₁ ≤ t',
    seat.worker.Loops p.shared.cancelledSince t (history n events) (.ok none) t₁
  last : ∃ (n : Nat) (seat : Seat C), p.crew[n]? = some seat ∧
    seat.worker.Loops p.shared.cancelledSince t (history n events) (.ok none) t'

/-- What is known of a pool whose run was started in millisecond `t`, after events. -/
structure Underway (plan : PoolPlan C) (p : Pool C) (events : List (Nat × Step C)) (t : Nat) : Prop where
  startedAt_eq : p.startedAt = some t
  plan_eq : p.plan = plan
  past : p.shared.PastCancel
  crew_eq : p.crew.map (·.worker) = plan.crew
  at_history : ∀ (n : Nat) (seat : Seat C), p.crew[n]? = some seat →
    seat.worker.At p.shared.cancelledSince t p.shared.clock (history n events) seat.thread
  running_iff : p.shared.running = p.returned.isNone
  /-- A run that is to be concluded is so because a worker has left in this very millisecond. -/
  over_now : p.isOver = true → p.LeftBy events t p.shared.clock
  /-- The run returned when the last of its workers left. -/
  returned_at : ∀ (t' : Nat) (result : PoolResult Unit), p.returned = some (t', result) →
    p.LeftBy events t t'

/-- What is known of a pool before its run. -/
structure Unstarted (plan : PoolPlan C) (p : Pool C) (events : List (Nat × Step C)) : Prop where
  startedAt_eq : p.startedAt = none
  plan_eq : p.plan = plan
  past : p.shared.PastCancel
  crew_eq : p.crew = []
  idle : p.shared.running = false
  returned_eq : p.returned = none
  events_eq : events = []

variable {plan : PoolPlan C} {p q : Pool C} {events more : List (Nat × Step C)}

/-- What the owner does, and what the collector does by itself, takes no time and leaves the workers
alone. -/
structure Spares (p q : Pool C) : Prop where
  startedAt_eq : q.startedAt = p.startedAt
  plan_eq : q.plan = p.plan
  crew_eq : q.crew = p.crew
  returned_eq : q.returned = p.returned
  running_eq : q.shared.running = p.shared.running
  clock_eq : q.shared.clock = p.shared.clock
  evolves : p.shared.Evolves q.shared

/-- What spares the workers of a pool that has not been started leaves it so. -/
theorem Spares.unstarted (h : p.Spares q) (before : Unstarted plan p events) :
    Unstarted plan q events where
  startedAt_eq := h.startedAt_eq.trans before.startedAt_eq
  plan_eq := h.plan_eq.trans before.plan_eq
  past := h.evolves.pastCancel before.past
  crew_eq := h.crew_eq.trans before.crew_eq
  idle := h.running_eq.trans before.idle
  returned_eq := h.returned_eq.trans before.returned_eq
  events_eq := before.events_eq

/-- Who has left stays away. -/
theorem LeftBy.evolve {t' : Nat} (h : p.LeftBy events t t') (crew_eq : q.crew = p.crew)
    (evolves : p.shared.Evolves q.shared) : q.LeftBy events t t' := by
  constructor
  case past => exact Nat.le_trans h.past evolves.1
  case all =>
    intro n seat at_n
    rw [crew_eq] at at_n
    obtain ⟨exited, t₁, le, loops⟩ := h.all n seat at_n
    exact ⟨exited, t₁, le, loops.evolve (Nat.le_trans le h.past) evolves⟩
  case last =>
    obtain ⟨n, seat, at_n, loops⟩ := h.last
    exact ⟨n, seat, crew_eq ▸ at_n, loops.evolve h.past evolves⟩

/-- What spares the workers of a pool under way leaves all that is known of it as it was. -/
theorem Spares.underway (h : p.Spares q) (before : Underway plan p events t) :
    Underway plan q events t := by
  constructor
  case startedAt_eq => exact h.startedAt_eq.trans before.startedAt_eq
  case plan_eq => exact h.plan_eq.trans before.plan_eq
  case past => exact h.evolves.pastCancel before.past
  case crew_eq => exact h.crew_eq ▸ before.crew_eq
  case at_history =>
    intro n seat at_n
    rw [h.crew_eq] at at_n
    exact (before.at_history n seat at_n).evolve h.evolves h.clock_eq
  case running_iff => rw [h.running_eq, h.returned_eq, before.running_iff]
  case over_now =>
    intro finished
    have over_before : p.isOver = true := by rwa [isOver, h.running_eq, h.crew_eq] at finished
    rw [h.clock_eq]
    exact (before.over_now over_before).evolve h.crew_eq h.evolves
  case returned_at =>
    intro t' result returned
    rw [h.returned_eq] at returned
    exact (before.returned_at t' result returned).evolve h.crew_eq h.evolves

/-- Reading an entry of the escalation channel spares the workers. -/
theorem spares_receiveError (p : Pool C) : p.Spares p.receiveError.2 := by
  unfold receiveError
  split <;> exact ⟨rfl, rfl, rfl, rfl, rfl, rfl, .of_same rfl rfl⟩

/-- The owner starts the run, or what it does spares it. -/
theorem OwnerActs.starts_or_spares (acts : p.OwnerActs q) : p.start = .ok q ∨ p.Spares q := by
  cases acts with
  | start started => exact .inl started
  | stop =>
    exact .inr ⟨rfl, rfl, rfl, rfl, Shared.running_stop .., Shared.clock_stop .., Shared.evolves_stop ..⟩
  | cancelParent =>
    exact .inr ⟨rfl, rfl, rfl, rfl, Shared.running_cancel .., Shared.clock_cancel ..,
      Shared.evolves_cancel ..⟩
  | addHooks | update | takeErrors | dropErrors | readErrors =>
    exact .inr ⟨rfl, rfl, rfl, rfl, rfl, rfl, .of_same rfl rfl⟩
  | receiveError => exact .inr p.spares_receiveError

/-- Writing the reports that are due spares the workers. -/
theorem spares_fireReports (p : Pool C) : p.Spares p.fireReports := by
  obtain ⟨clock, since, running⟩ := p.fireReports_same
  exact ⟨rfl, rfl, rfl, rfl, running, clock, .of_same clock since⟩

/-! ## Single steps -/

/-- What a call of `start` makes of the pool that takes it: it is opened, and its crew is seated. -/
theorem start_eq (started : p.start = .ok q) :
    q = { p with
      shared := p.opened
      crew := p.plan.crew.map fun w => { worker := w, thread := .ready w.start }
      startedAt := some p.shared.clock } := by
  unfold Pool.start at started
  split at started
  · cases started
  · cases started
    rfl

/-- The clock goes on, and the token is not revived. -/
theorem Acts.evolves (acts : p.Acts more q) : p.shared.Evolves q.shared := by
  cases acts with
  | owner acts =>
    rcases acts.starts_or_spares with started | spares
    · obtain ⟨clock, since, _⟩ := p.opened_same
      obtain rfl := start_eq started
      exact .of_same clock since
    · exact spares.evolves
  | work _ acts => exact acts.evolves.1
  | report => exact (spares_fireReports p).evolves
  | conclude finished =>
    rw [Pool.conclude, if_pos finished]
    exact p.evolves_closed
  | tick lt => exact ⟨Nat.le_of_lt lt, .inl rfl⟩

/-- In a run, time does not go back and no cancellation is undone. -/
theorem Runs.evolves (runs : p.Runs more q) : p.shared.Evolves q.shared := by
  induction runs with
  | refl => exact .refl _
  | snoc _ acts ih => exact ih.trans acts.evolves

/-- A run can be started only once. -/
theorem not_start (startedAt : p.startedAt = some t) : p.start = .error .alreadyStarted := by
  unfold start
  rw [startedAt]

/-- Once the run is under way, whatever the owner does spares the workers, for a second start is refused. -/
theorem Underway.spares (h : Underway plan p events t) (acts : p.OwnerActs q) : p.Spares q := by
  rcases acts.starts_or_spares with started | spares
  · rw [not_start h.startedAt_eq] at started
    cases started
  · exact spares

/-- Right after the start every worker is at the beginning of its loop. -/
theorem Unstarted.underway (h : Unstarted plan p events) (started : p.start = .ok q) :
    Underway plan q events p.shared.clock := by
  obtain ⟨clock, since, running⟩ := p.opened_same
  have evolves : p.shared.Evolves p.opened := .of_same clock since
  obtain rfl := start_eq started
  obtain rfl := h.events_eq
  constructor
  case startedAt_eq => rfl
  case plan_eq => exact h.plan_eq
  case past => exact evolves.pastCancel h.past
  case crew_eq => simp [h.plan_eq, Function.comp_def]
  case at_history =>
    intro n seat at_n
    obtain ⟨w, _, rfl⟩ := List.mem_map.mp (List.mem_of_getElem? at_n)
    have begun : w.At p.opened.cancelledSince p.shared.clock p.shared.clock ([] ++ []) (.ready w.start) :=
      .ready .start (.refl _ _)
    exact clock ▸ begun
  case running_iff => rw [running, h.returned_eq]; rfl
  case over_now =>
    intro finished
    -- There is a worker, and it has not left yet, so the run is not over as it begins.
    have pos : 0 < p.plan.crew.length := by simpa [PoolPlan.crew] using p.plan.workers_pos
    obtain ⟨w, mem⟩ := List.exists_mem_of_length_pos pos
    have exited := (List.all_eq_true.mp ((Bool.and_eq_true ..).mp finished).2) ⟨w, .ready w.start⟩
      (List.mem_map.mpr ⟨w, mem, rfl⟩)
    cases exited
  case returned_at =>
    intro t' result returned
    rw [h.returned_eq] at returned
    cases returned

/-- A run is over when all have left. -/
theorem exited_of_over (finished : p.isOver = true) {n : Nat} {seat : Seat C}
    (at_n : p.crew[n]? = some seat) : seat.thread = .exited := by
  obtain ⟨_, all⟩ := (Bool.and_eq_true ..).mp finished
  have exited := List.all_eq_true.mp all seat (List.mem_of_getElem? at_n)
  cases thread : seat.thread with
  | exited => rfl
  | ready | waiting => rw [thread] at exited; cases exited

section

variable {n : Nat} {seat : Seat C} {thread : Thread C} {s : Shared C} {steps : List (Step C)}

/-- The seat whose thread does something keeps its worker. -/
theorem withThread_at_self (at_n : p.crew[n]? = some seat) :
    (p.withThread n seat thread s).crew[n]? = some { seat with thread } := by
  obtain ⟨lt, _⟩ := List.getElem?_eq_some_iff.mp at_n
  simp [withThread, lt]

/-- The other seats stay as they are. -/
theorem withThread_at_of_ne {m : Nat} (ne : n ≠ m) :
    (p.withThread n seat thread s).crew[m]? = p.crew[m]? :=
  List.getElem?_set_ne ne

/-- The workers are the same before and after. -/
theorem withThread_workers (at_n : p.crew[n]? = some seat) :
    (p.withThread n seat thread s).crew.map (·.worker) = p.crew.map (·.worker) := by
  obtain ⟨lt, rfl⟩ := List.getElem?_eq_some_iff.mp at_n
  have lt' : n < (p.crew.map (·.worker)).length := by simpa using lt
  have same : p.crew[n].worker = (p.crew.map (·.worker))[n] := by simp
  rw [withThread, List.map_set, same, List.set_getElem_self]

/-- A step of a worker adds to its own history and to no other. -/
theorem Underway.at_history_work (h : Underway plan p events t) (at_n : p.crew[n]? = some seat)
    (acts : seat.thread.Acts seat.worker p.shared steps thread s) (m : Nat) (seat' : Seat C)
    (at_m : (p.withThread n seat thread s).crew[m]? = some seat') :
    seat'.worker.At s.cancelledSince t s.clock (history m (events ++ steps.map (n, ·)))
      seat'.thread := by
  obtain ⟨evolves, clock, _⟩ := acts.evolves
  rw [history_append]
  by_cases same : n = m
  · subst same
    rw [withThread_at_self at_n] at at_m
    cases at_m
    rw [history_map_self]
    exact (h.at_history n seat at_n).act h.past acts
  · rw [withThread_at_of_ne same] at at_m
    rw [history_map_of_ne same, List.append_nil]
    exact (h.at_history m seat' at_m).evolve evolves clock

/-- A step of one thread adds to its own history and to nobody else's. -/
theorem Underway.work (h : Underway plan p events t) (at_n : p.crew[n]? = some seat)
    (acts : seat.thread.Acts seat.worker p.shared steps thread s) :
    Underway plan (p.withThread n seat thread s) (events ++ steps.map (n, ·)) t := by
  obtain ⟨evolves, clock, running⟩ := acts.evolves
  have at_history := h.at_history_work at_n acts
  constructor
  case startedAt_eq => exact h.startedAt_eq
  case plan_eq => exact h.plan_eq
  case past => exact evolves.pastCancel h.past
  case crew_eq => exact (withThread_workers at_n).trans h.crew_eq
  case at_history => exact at_history
  case running_iff => exact running.trans h.running_iff
  case over_now =>
    intro finished
    -- If the run is over now, it was this thread that left last.
    obtain rfl : thread = .exited := exited_of_over finished (withThread_at_self at_n)
    refine ⟨Nat.le_refl _, ?_, n, _, withThread_at_self at_n, ?_⟩
    · intro m seat' at_m
      have exited := exited_of_over finished at_m
      have own := at_history m seat' at_m
      rw [exited] at own
      exact ⟨exited, own.loops⟩
    · rw [history_append, history_map_self]
      exact (h.at_history n seat at_n).leave_now acts
  case returned_at =>
    intro t' result returned
    obtain ⟨exited, _⟩ := (h.returned_at t' result returned).all n seat at_n
    rw [exited] at acts
    cases acts

end

/-- The workers are those of the plan, in its order. -/
theorem Underway.worker_eq (h : Underway plan p events t) {n : Nat} {seat : Seat C}
    (at_n : p.crew[n]? = some seat) : seat.worker = plan.worker (n + 1) := by
  have at_plan : plan.crew[n]? = some seat.worker := by
    rw [← h.crew_eq, List.getElem?_map, at_n, Option.map_some]
  obtain ⟨m, at_range, same⟩ : ∃ m, (List.range plan.workers)[n]? = some m ∧
      plan.worker (m + 1) = seat.worker := by
    rw [PoolPlan.crew, List.getElem?_map] at at_plan
    exact Option.map_eq_some_iff.mp at_plan
  obtain ⟨_, rfl⟩ := List.getElem?_eq_some_iff.mp at_range
  rw [← same, List.getElem_range]

/-- All workers of a pool have the same work, which is that of the plan. -/
theorem Underway.work_eq (h : Underway plan p events t) {n : Nat} {seat : Seat C}
    (at_n : p.crew[n]? = some seat) :
    seat.worker.work = Layer.compose plan.layers plan.iteration.work := by
  rw [h.worker_eq at_n]
  rfl

/-- There are as many seats as the plan has workers. -/
theorem Underway.length_eq (h : Underway plan p events t) : p.crew.length = plan.workers := by
  have same := congrArg List.length h.crew_eq
  rwa [List.length_map, PoolPlan.crew, List.length_map, List.length_range] at same

/-- The conclusion of a run, which all have left, finds the last of them gone in that very millisecond. -/
theorem Underway.conclude (h : Underway plan p events t) (finished : p.isOver = true) :
    Underway plan p.conclude events t := by
  rw [Pool.conclude, if_pos finished]
  obtain ⟨clock, _, stopped⟩ := p.closed_same
  have evolves := p.evolves_closed
  constructor
  case startedAt_eq => exact h.startedAt_eq
  case plan_eq => exact h.plan_eq
  case past => exact evolves.pastCancel h.past
  case crew_eq => exact h.crew_eq
  case at_history =>
    intro n seat at_n
    exact (h.at_history n seat at_n).evolve evolves clock
  case running_iff => exact stopped
  case over_now =>
    intro again
    have running : p.closed.running = true := ((Bool.and_eq_true ..).mp again).1
    rw [stopped] at running
    cases running
  case returned_at =>
    intro t' result returned
    cases returned
    exact (h.over_now finished).evolve rfl evolves

/-- Time goes on only when everybody waits, and not beyond the end of any wait. -/
theorem Underway.tick (h : Underway plan p events t) {now : Nat} (lt : p.shared.clock < now)
    (quiet : p.Quiet) (le : ∀ due ∈ p.dues, p.shared.clock < due → now ≤ due) :
    Underway plan (p.withClock now) events t := by
  constructor
  case startedAt_eq => exact h.startedAt_eq
  case plan_eq => exact h.plan_eq
  case past => exact fun moment mem => Nat.le_trans (h.past moment mem) (Nat.le_of_lt lt)
  case crew_eq => exact h.crew_eq
  case at_history =>
    intro n seat at_n
    have mem := List.mem_of_getElem? at_n
    refine (h.at_history n seat at_n).sleep_on (quiet.1 seat mem) (Nat.le_of_lt lt) ?_
    intro due waits
    exact le due (mem_dues mem waits) (lt_due_of_quiet quiet mem waits)
  case running_iff => exact h.running_iff
  case over_now =>
    intro finished
    have still : p.isOver = true := finished
    rw [quiet.2] at still
    cases still
  case returned_at =>
    intro t' result returned
    obtain ⟨past, all, last⟩ := h.returned_at t' result returned
    exact ⟨Nat.le_trans past (Nat.le_of_lt lt), all, last⟩

/-! ## Whole runs -/

/-- Whatever happens in a run that was started, each worker does what its loop may do. -/
theorem Underway.acts (h : Underway plan p events t) (acts : p.Acts more q) :
    Underway plan q (events ++ more) t := by
  cases acts with
  | owner acts =>
    rw [List.append_nil]
    exact (h.spares acts).underway h
  | work at_n acts => exact h.work at_n acts
  | report =>
    rw [List.append_nil]
    exact (spares_fireReports p).underway h
  | conclude finished =>
    rw [List.append_nil]
    exact h.conclude finished
  | tick lt quiet le =>
    rw [List.append_nil]
    exact h.tick lt quiet le

/-- What is known of a pool under way is known of it after any further run. -/
theorem Underway.runs (h : Underway plan p events t) (runs : p.Runs more q) :
    Underway plan q (events ++ more) t := by
  induction runs with
  | refl => rwa [List.append_nil]
  | snoc _ acts ih =>
    rw [← List.append_assoc]
    exact ih.acts acts

/-- Before the run there is nothing that could be done but to start it, or what spares the workers. -/
theorem Unstarted.acts (h : Unstarted plan p events) (acts : p.Acts more q) :
    Unstarted plan q (events ++ more) ∨ ∃ t, Underway plan q (events ++ more) t := by
  cases acts with
  | owner acts =>
    rw [List.append_nil]
    rcases acts.starts_or_spares with started | spares
    · exact .inr ⟨_, h.underway started⟩
    · exact .inl (spares.unstarted h)
  | work at_n acts =>
    rw [h.crew_eq] at at_n
    cases at_n
  | report =>
    rw [List.append_nil]
    exact .inl ((spares_fireReports p).unstarted h)
  | conclude finished =>
    rw [isOver, h.idle] at finished
    cases finished
  | tick lt quiet le =>
    rw [List.append_nil]
    refine .inl ⟨h.startedAt_eq, h.plan_eq, ?_, h.crew_eq, h.idle, h.returned_eq, h.events_eq⟩
    exact fun moment mem => Nat.le_trans (h.past moment mem) (Nat.le_of_lt lt)

/-- In every run of a pool each worker does what its loop may do. -/
theorem runs_follows (b : PoolBuilder C) (state : C.State) (runs : (build b state).Runs events p) :
    Unstarted b.plan p events ∨ ∃ t, Underway b.plan p events t := by
  induction runs with
  | refl => exact .inl ⟨rfl, rfl, nofun, rfl, rfl, rfl, rfl⟩
  | snoc _ acts ih =>
    rcases ih with before | ⟨t, before⟩
    · exact before.acts acts
    · exact .inr ⟨t, before.acts acts⟩

/-- A run that was started is known from its start on. -/
theorem runs_underway (b : PoolBuilder C) (state : C.State) (runs : (build b state).Runs events p)
    (started : p.startedAt = some t) : Underway b.plan p events t := by
  rcases runs_follows b state runs with before | ⟨t', underway⟩
  · rw [before.startedAt_eq] at started
    cases started
  · cases Option.some.inj (underway.startedAt_eq.symm.trans started)
    exact underway

/-- Each place of the crew is held by the worker of its number. -/
theorem runs_at (b : PoolBuilder C) (state : C.State) (runs : (build b state).Runs events p) {n : Nat}
    {seat : Seat C} (at_n : p.crew[n]? = some seat) :
    n < b.plan.workers ∧ seat.worker = b.plan.worker (n + 1) := by
  rcases runs_follows b state runs with before | ⟨t, underway⟩
  · rw [before.crew_eq] at at_n
    cases at_n
  · exact ⟨underway.length_eq ▸ (List.getElem?_eq_some_iff.mp at_n).1, underway.worker_eq at_n⟩

/-! ## What the journal shows -/

/-- Lines of the log are not the work of running code. -/
theorem filter_entries_log (s : Shared C) (worker : Option String) (lines : List LogLine) :
    (s.entries worker (lines.map .log)).filter (fun entry => entry.event.isDeed) = [] := by
  simp [Shared.entries, Event.isDeed]

/-- Opening the spans of the workers is not a deed of theirs. -/
theorem filter_spans (plan : PoolPlan C) (s : Shared C) :
    (spans plan s).filter (fun entry => entry.event.isDeed) = [] := by
  simp [spans, Event.isDeed]

/-- Opening a pool adds nothing to what its workers show. -/
theorem scene_opened (p : Pool C) : p.opened.scene = p.shared.scene := by
  rw [opened_eq, Shared.scene_withEntries, List.filter_append, filter_spans]
  refine (congrArg (p.shared.scene ++ ·) ?_).trans (List.append_nil _)
  exact (List.append_nil _).trans (filter_entries_log p.shared none _)

/-- Closing a pool adds nothing to what its workers show. -/
theorem scene_closed (p : Pool C) : p.closed.scene = p.shared.scene := by
  rw [closed_eq, Shared.scene_withEntries]
  refine (congrArg (p.shared.scene ++ ·) ?_).trans (List.append_nil _)
  exact filter_entries_log p.shared none _

/-- Writing reports adds nothing to what its workers show. -/
theorem scene_fireReports (p : Pool C) : p.fireReports.shared.scene = p.shared.scene := by
  rw [fireReports_eq]
  refine (Shared.scene_withEntries ..).trans ((congrArg (p.shared.scene ++ ·) ?_).trans (List.append_nil _))
  exact filter_entries_log p.shared none _

/-- Nothing that the owner does adds to what the workers show. -/
theorem OwnerActs.scene (acts : p.OwnerActs q) : q.shared.scene = p.shared.scene := by
  cases acts with
  | start started =>
    obtain rfl := start_eq started
    exact scene_opened p
  | stop => exact Shared.scene_stop ..
  | cancelParent | addHooks | update | takeErrors | dropErrors | readErrors => rfl
  | receiveError =>
    unfold Pool.receiveError
    split <;> rfl

/-- A step of a thread is shown in the journal under the name of its worker. -/
theorem scene_acts {w : Worker C} {thread thread' : Thread C} {s s' : Shared C}
    {steps : List (Step C)} (acts : thread.Acts w s steps thread' s') :
    s'.scene = s.scene ++ steps.filterMap (·.shown? (some w.id)) := by
  cases acts with
  | ask request next =>
    rw [s.scene_answer (some w.id) request (s.answer (some w.id) request).1, List.filterMap_cons]
    cases Step.shown? (some w.id) ⟨s.clock, .asked request (s.answer (some w.id) request).1⟩ <;> rfl
  | skip | notice | elapse | wake | sleep | proceed | leave | crash =>
    exact (List.append_nil _).symm

/-- The journal shows the calls, recordings and notes of the workers, in the order of the events. -/
theorem runs_scene (b : PoolBuilder C) (state : C.State) (runs : (build b state).Runs events p) :
    p.shared.scene =
      events.filterMap fun event => event.2.shown? (some (b.plan.worker (event.1 + 1)).id) := by
  induction runs with
  | refl => rfl
  | @snoc events more p q runs acts ih =>
    rw [List.filterMap_append, ← ih]
    cases acts with
    | owner acts => exact acts.scene.trans (List.append_nil _).symm
    | report => exact (scene_fireReports _).trans (List.append_nil _).symm
    | conclude finished =>
      rw [conclude, if_pos finished]
      exact (scene_closed p).trans (List.append_nil _).symm
    | tick => exact (List.append_nil _).symm
    | @work n seat _ _ steps at_n acts =>
      have shown := scene_acts acts
      rw [(runs_at b state runs at_n).2] at shown
      rwa [List.filterMap_map]

/-- Only the workers that the pool has do anything. -/
theorem history_eq_nil (b : PoolBuilder C) (state : C.State) (runs : (build b state).Runs events p)
    {n : Nat} (le : b.plan.workers ≤ n) : history n events = [] := by
  induction runs with
  | refl => rfl
  | @snoc events more p q runs acts ih =>
    rw [history_append, ih, List.nil_append]
    cases acts with
    | owner | report | conclude | tick => rfl
    | @work m _ _ _ steps at_m _ =>
      have lt : m < b.plan.workers := (runs_at b state runs at_m).1
      exact history_map_of_ne (by omega) steps

/-- Who has no seat has done nothing. -/
theorem history_eq_nil_of_absent (b : PoolBuilder C) (state : C.State) (runs : (build b state).Runs events p)
    {n : Nat} (absent : p.crew[n]? = none) : history n events = [] := by
  rcases runs_follows b state runs with before | ⟨t, underway⟩
  · rw [before.events_eq]
    rfl
  · exact history_eq_nil b state runs (underway.length_eq ▸ List.getElem?_eq_none_iff.mp absent)

/-- A worker with a seat is one of a run that was started. -/
theorem exists_underway (b : PoolBuilder C) (state : C.State) (runs : (build b state).Runs events p)
    {n : Nat} {seat : Seat C} (at_n : p.crew[n]? = some seat) : ∃ t, Underway b.plan p events t := by
  rcases runs_follows b state runs with before | underway
  · rw [before.crew_eq] at at_n
    cases at_n
  · exact underway

end Pool

end WorkerPool
