import WorkerPool.Proofs.Labouring
import WorkerPool.Proofs.Limiting
import WorkerPool.Proofs.Returning

/-!
# Workers that fail too often

In a pool whose only layer is an `ErrorLimit`, the limit watches every iteration of every worker. It sees an
iteration fail that ends with an error that counts, and one in which a hook or an attempt at the task panicked,
for such a panic is an error by then (`Round.fails`). A panic in checking out, completing or failing a task goes
past the limit, and is no failure for it.

An iteration never asks for a count itself (`apart_work`), nobody asks for the count of another worker
(`Pool.history_apart`), and so the calls of each worker are judged as `ErrorLimit.visits_counted` has it. A worker
that has failed once too often in a row is asked to leave by that very call, and leaves before time goes on. Nothing
in that touches the token, so the others stay (`Pool.chronicle_retires`). A count never goes more than one above the
threshold, so that one that is kept in a word of 32 bits is the same for every threshold but the greatest word.
-/

namespace WorkerPool

variable {C : Client} {α : Type} {T : Option Nat} {t t' : Nat}

/-- An iteration asks for no counts. -/
theorem apart_work {it : Iteration C} {limit worker : String} : (it.work worker).Shuns (Deed.tallies limit) := by
  refine labours_work.mono fun deed tallies => ?_
  cases deed with
  | waited => cases tallies
  | asked request answer => cases request <;> first | rfl | cases tallies

/-! ## What a worker asks of its count -/

/-- What is asked of the count of a worker. -/
def inquiries (limit worker : String) (steps : List (Step C)) : List (Step C) :=
  steps.filter fun step => step.deed.talliesFor limit worker

section

variable {limit worker : String} {steps first second : List (Step C)}

@[simp] theorem inquiries_append :
    inquiries limit worker (first ++ second) = inquiries limit worker first ++ inquiries limit worker second :=
  List.filter_append ..

/-- The log is no place to ask for a count. -/
@[simp] theorem inquiries_unlogged : inquiries limit worker (unlogged steps) = inquiries limit worker steps := by
  unfold inquiries unlogged
  rw [List.filter_filter]
  refine List.filter_congr fun step _ => ?_
  obtain ⟨time, deed⟩ := step
  cases deed with
  | waited => rfl
  | asked request answer => cases request <;> simp [Deed.talliesFor, Deed.isLog]

theorem inquiries_flatMap {ι : Type} (items : List ι) (f : ι → List (Step C)) :
    inquiries limit worker (items.flatMap f) = items.flatMap fun item => inquiries limit worker (f item) := by
  induction items with
  | nil => rfl
  | cons item rest ih => simp only [List.flatMap_cons, inquiries_append, ih]

/-- It is only by what is asked of a count that it is moved. -/
theorem follow_inquiries (n : Nat) :
    (counting limit worker).follow n (inquiries limit worker steps) = (counting limit worker).follow n steps := by
  induction steps generalizing n with
  | nil => rfl
  | cons step rest ih =>
    unfold inquiries at ih ⊢
    rw [List.filter_cons]
    by_cases asks : step.deed.talliesFor limit worker = true
    · rw [if_pos asks, Rule.follow_cons_eq, Rule.follow_cons_eq]
      exact congrArg _ (funext ih)
    · rw [if_neg asks, ih]
      exact (Rule.follow_cons (counting_eq_self (Bool.eq_false_iff.mpr asks) n)).symm

end

/-- No chore of a worker's touches a tally. -/
theorem Deed.talliesFor_of_isChore {limit worker : String} {deed : Deed C} (chore : deed.isChore = true) :
    deed.talliesFor limit worker = false := by
  cases deed with
  | waited => rfl
  | asked request answer => cases request <;> first | rfl | cases chore

namespace Worker

variable {w : Worker C} {limit worker : String}

/-- In the story of a shift, only its call has to do with a limit. -/
theorem inquiries_story (id : String) (shift : Shift C) :
    inquiries limit worker (shift.story id) = inquiries limit worker shift.call.steps := by
  have note : inquiries limit worker (Shift.panicNote id shift.call) = [] := by
    unfold Shift.panicNote
    split <;> rfl
  have handover : inquiries limit worker shift.handover = [] := by
    unfold Shift.handover
    split
    · rfl
    · split <;> rfl
  unfold Shift.story
  rw [inquiries_append, inquiries_append, note, handover, List.append_nil, List.append_nil]
  exact inquiries_unlogged

/-- A worker that leaves does not ask its limit anything. -/
theorem inquiries_departure (state : WorkerState) (next : Option WorkerState) (time : Nat) :
    inquiries limit worker (w.departure state next time) = [] := by
  unfold departure
  split <;> rfl

/-- What comes after the last call does not ask the limit anything either. -/
theorem Brief.inquiries {late : List (Step C)} (h : Brief late) : inquiries limit worker late = [] := by
  rcases h with rfl | ⟨time, request, answer, own, rfl⟩
  · rfl
  · cases request with
    | escalate | record => rfl
    | _ => cases own

/-- What a worker has asked of a count it has asked in its calls. -/
theorem Stage.inquiries {history current late : List (Step C)} {code : Code C (Option WorkerState)}
    {served : List (Shift C)} (stage : w.Stage T t history code served current late) :
    inquiries limit worker history = inquiries limit worker (served.flatMap (·.call.steps) ++ current) := by
  have stories (more : List (Step C)) :
      WorkerPool.inquiries limit worker (w.greeting t :: (served.flatMap (·.story w.id) ++ more)) =
        WorkerPool.inquiries limit worker (served.flatMap (·.call.steps)) ++
          WorkerPool.inquiries limit worker more := by
    have greeting : WorkerPool.inquiries limit worker [w.greeting t] = [] := rfl
    rw [← List.singleton_append, inquiries_append, greeting, List.nil_append, inquiries_append, inquiries_flatMap,
      inquiries_flatMap]
    simp only [inquiries_story]
  cases stage with
  | between row did brief busy =>
    have asked := congrArg (WorkerPool.inquiries limit worker) did
    rw [inquiries_append, brief.inquiries, List.append_nil, inquiries_unlogged, stories, inquiries_departure,
      List.append_nil] at asked
    rw [List.append_nil]
    exact asked
  | working row reaches pending did =>
    have asked := congrArg (WorkerPool.inquiries limit worker) did
    rw [inquiries_unlogged, stories] at asked
    rw [asked, inquiries_append]
    exact congrArg _ inquiries_unlogged

end Worker

/-! ## The counts of a pool -/

theorem PoolPlan.worker_id_inj (plan : PoolPlan C) {m n : Nat} :
    (plan.worker m).id = (plan.worker n).id ↔ m = n := by
  constructor
  · intro same
    have letters := congrArg String.toList same
    simp only [PoolPlan.worker, String.toList_append, List.append_cancel_left_eq] at letters
    have numbers := congrArg (fun digits => Nat.ofDigitChars 10 digits 0) letters
    simpa [Nat.toString_eq_ofList_toDigits] using numbers
  · rintro rfl
    rfl

namespace Pool

variable {p q : Pool C} {events more : List (Nat × Step C)} {limit : ErrorLimit}

/-- What a step makes of the counts is what the workers ask for in it. -/
theorem Acts.follow_tally (acts : p.Acts more q) :
    Rule.follow tallying p.shared.tally (more.map (·.2)) = some q.shared.tally := by
  cases acts with
  | owner acts =>
    cases acts with
    | start started =>
      obtain rfl := start_eq started
      exact congrArg some (by rw [opened_eq]; rfl)
    | stop => exact congrArg some (p.shared.tally_stop none).symm
    | receiveError =>
      refine congrArg some ?_
      unfold Pool.receiveError
      split <;> rfl
    | cancelParent | addHooks | update | takeErrors | dropErrors | readErrors => rfl
  | @work n seat _ _ _ at_n acts =>
    obtain ⟨w, thread⟩ := seat
    cases acts with
    | ask request next => exact Rule.follow_cons (p.shared.tallying_answer (some w.id) request)
    | skip | notice | elapse | wake | sleep | proceed | leave | crash => rfl
  | report => exact congrArg some (by rw [fireReports_eq]; rfl)
  | conclude finished =>
    rw [Pool.conclude, if_pos finished]
    exact congrArg some (by rw [closed_eq]; rfl)
  | tick => rfl

/-- The counts of a pool are what its workers have made of them. -/
theorem runs_tally (b : PoolBuilder C) (state : C.State) (runs : (build b state).Runs events p) :
    Rule.follow tallying {} (events.map (·.2)) = some p.shared.tally := by
  induction runs with
  | refl => rfl
  | snoc _ acts ih => rw [List.map_append, Rule.follow_append, ih, Option.bind_some, acts.follow_tally]

/-- In a pool with one limit, nobody asks for the count of another worker. -/
theorem history_apart (b : PoolBuilder C) (state : C.State) (only : b.layers = [.errorLimit limit])
    (runs : (build b state).Runs events p) {m n : Nat} (ne : m ≠ n) :
    ∀ step ∈ history m events, step.deed.talliesFor limit.name (b.plan.worker (n + 1)).id = false := by
  cases at_m : p.crew[m]? with
  | none =>
    rw [history_eq_nil_of_absent b state runs at_m]
    exact List.forall_mem_nil _
  | some seat =>
    obtain ⟨t, underway⟩ := exists_underway b state runs at_m
    have worker_eq := underway.worker_eq at_m
    have work_eq : seat.worker.work = (Layer.errorLimit limit).wrap b.plan.iteration.work := by
      have composed := underway.work_eq at_m
      have layers : b.plan.layers = [.errorLimit limit] := only
      rwa [layers] at composed
    have other : (b.plan.worker (n + 1)).id ≠ seat.worker.id := by
      rw [worker_eq]
      intro same
      have := b.plan.worker_id_inj.mp same
      omega
    refine (underway.at_history m seat at_m).shuns (fun deed => deed.talliesFor_of_isChore) (fun _ _ => rfl) ?_
    rw [work_eq]
    exact ErrorLimit.shuns_wrap apart_work other

/-- What a worker has asked of its count has been answered with what the count was. -/
theorem follow_history (b : PoolBuilder C) (state : C.State) (only : b.layers = [.errorLimit limit])
    (runs : (build b state).Runs events p) (n : Nat) :
    (counting limit.name (b.plan.worker (n + 1)).id).follow 0 (history n events) =
      some (p.shared.tally.count limit.name (b.plan.worker (n + 1)).id) := by
  have follows := follow_counting limit.name (b.plan.worker (n + 1)).id (runs_tally b state runs)
  rwa [follow_stepsOf n] at follows
  intro event mem other
  exact history_apart b state only runs other event.2 (mem_stepsOf mem)

end Pool

/-! ## Failures in a row -/

namespace Round

/-- Whether the limit sees the iteration fail: its error counts, or a hook or an attempt panicked. Where the call
panicked that was to check the task out or to dispose of it, the limit sees nothing. -/
def fails : Round C → Bool
  | .panicked _ _ => false
  | .idle _ e => ErrorLimit.counts e
  | .worked run =>
    match run.disposal, run.processing.outcome with
    | .panic _, _ => false
    | _, .panic _ => true
    | _, .error e => ErrorLimit.counts e
    | .error e, .ok _ => ErrorLimit.counts e
    | .ok (), .ok _ => false

/-- Whether a task was processed and completed. -/
def succeeds (round : Round C) : Bool :=
  match round.outcome with
  | .ok () => true
  | _ => false

/-- What the limit sees of an iteration is how it ended. -/
theorem fails_eq (round : Round C) : round.fails = round.outcome.isFailure := by
  cases round with
  | panicked | idle => rfl
  | worked run =>
    unfold fails outcome TaskRun.outcome
    dsimp only
    cases run.disposal <;> cases run.processing.outcome <;> rfl

end Round

/-- The failures since the last success. -/
def inARow (rounds : List (Round C)) : Nat :=
  (rounds.reverse.takeWhile fun round => !round.succeeds).countP Round.fails

/-- One round more ends a row of failures, lengthens it by one or leaves it as it is. -/
theorem inARow_snoc (rounds : List (Round C)) (round : Round C) :
    inARow (rounds ++ [round]) = if round.succeeds then 0 else inARow rounds + if round.fails then 1 else 0 := by
  unfold inARow
  rw [List.reverse_append, List.reverse_singleton, List.singleton_append, List.takeWhile_cons]
  cases round.succeeds with
  | true => rfl
  | false => simp [List.countP_cons]

/-- A call of the work of a worker, what it hands over, and the iteration within it. -/
structure Watched (C : Client) where
  shift : Shift C
  round : Round C

/-- The call through the layer of the limit. -/
def Watched.visit (watched : Watched C) : Visit C where
  call := watched.shift.call
  inner := watched.round.outcome

/-- As long as nobody is retired, the failures that are counted are those in a row. -/
theorem failures_eq_inARow {calls : List (Watched C)} (kept : ∀ watched ∈ calls, watched.visit.retires = false) :
    failures (calls.map Watched.visit) = inARow (calls.map Watched.round) := by
  induction calls using List.reverseRecOn with
  | nil => rfl
  | append_singleton calls last ih =>
    rw [List.forall_mem_append, List.forall_mem_singleton] at kept
    rw [List.map_append, List.map_append, List.map_singleton, List.map_singleton, failures_snoc, inARow_snoc,
      ih kept.1, Round.fails_eq]
    have clears : last.visit.clears = last.round.succeeds := by
      unfold Visit.clears
      rw [kept.2]
      rfl
    rw [clears]
    rfl

/-! ## One worker -/

/-- Within a call through the layer there is an iteration, and how that ended is what the limit is told. -/
theorem exists_round {limit : ErrorLimit} {it : Iteration C} {worker : String} {call : Stretch C Unit}
    (h : call.IsOf T ((Layer.errorLimit limit).wrap it.work worker)) :
    ∃ round : Round C, round.Follows it T ∧ marks call.steps = round.marks it.retry worker ∧
      (Visit.mk call round.outcome).IsThrough limit worker := by
  obtain ⟨outcome, first, t₁, ran, goes_on⟩ := Program.runs_bind_outcome h
  obtain ⟨round, follows, ending, marks_eq⟩ := work_round ran
  obtain rfl := Outcome.ending_inj.mp ending
  have through {second : List (Step C)} (split : call.steps = first ++ second) :
      (Visit.mk call round.outcome).IsThrough limit worker :=
    ⟨T, it.work, apart_work, h, first, second, t₁, split, ran⟩
  refine ⟨round, follows, ?_⟩
  cases ended : round.outcome with
  | panic x =>
    rw [ended] at goes_on through
    rw [goes_on.1]
    exact ⟨marks_eq, through (by rw [goes_on.1, List.append_nil])⟩
  | ok | error =>
    rw [ended] at goes_on through
    obtain ⟨second, split, looked⟩ := goes_on
    rw [split, marks_append, marks_of_observe looked, List.append_nil]
    exact ⟨marks_eq, through split⟩

/-- Whether a call of a worker holds that iteration, and went through the layer of the limit. -/
def Watched.Follows (watched : Watched C) (it : Iteration C) (limit : ErrorLimit) (T : Option Nat) (worker : String) :
    Prop :=
  watched.round.Follows it T ∧ marks watched.shift.call.steps = watched.round.marks it.retry worker ∧
    watched.visit.IsThrough limit worker

/-- Where there is an iteration within each call, the calls can be watched together with them. -/
theorem exists_watched_of {Holds : Watched C → Prop} {served : List (Shift C)}
    (each : ∀ shift ∈ served, ∃ round, Holds ⟨shift, round⟩) :
    ∃ calls : List (Watched C), calls.map Watched.shift = served ∧ ∀ watched ∈ calls, Holds watched := by
  induction served with
  | nil => exact ⟨[], rfl, List.forall_mem_nil _⟩
  | cons shift rest ih =>
    rw [List.forall_mem_cons] at each
    obtain ⟨round, holds⟩ := each.1
    obtain ⟨calls, rfl, others⟩ := ih each.2
    exact ⟨⟨shift, round⟩ :: calls, rfl, List.forall_mem_cons.mpr ⟨holds, others⟩⟩

/-- Each call that a worker has made of its limited work can be watched: it went through the limit. -/
theorem exists_watched {limit : ErrorLimit} {it : Iteration C} {worker : String} {served : List (Shift C)}
    (isOf : ∀ shift ∈ served, shift.call.IsOf T ((Layer.errorLimit limit).wrap it.work worker)) :
    ∃ calls : List (Watched C), calls.map Watched.shift = served ∧
      ∀ watched ∈ calls, watched.Follows it limit T worker :=
  exists_watched_of fun shift mem => exists_round (isOf shift mem)

/-- The steps of the calls are those of their visits to the limit. -/
theorem steps_eq_visits (calls : List (Watched C)) :
    calls.flatMap (·.shift.call.steps) = (calls.map Watched.visit).flatMap (·.call.steps) := by
  rw [List.flatMap_map]
  rfl

/-- Who is retired by the limit is asked to leave. -/
theorem Visit.asks_of_retires {visit : Visit C} (retires : visit.retires = true) : visit.call.outcome.Retires := by
  obtain ⟨_, shutdown⟩ := (Bool.and_eq_true ..).mp retires
  split at shutdown
  · next reason outcome => exact ⟨_, outcome, .inl rfl⟩
  · cases shutdown

namespace Worker

variable {w : Worker C} {calls before after : List (Watched C)}

/-- Two calls that follow each other as they are watched follow each other as shifts. -/
theorem getElem?_of_split {a b : Watched C} (split : calls = before ++ a :: b :: after) :
    (calls.map Watched.shift)[before.length]? = some a.shift ∧
      (calls.map Watched.shift)[before.length + 1]? = some b.shift := by
  constructor
  · simp [split]
  · rw [split, List.append_cons]
    simp

/-- Between two calls there is the wait that the outcome of the first asks for. -/
theorem Row.follows (row : w.Row T t (calls.map Watched.shift)) {a b : Watched C}
    (split : calls = before ++ a :: b :: after) : ∃ delay, w.schedule.interval? a.shift.state = some delay ∧
      b.shift.call.begun = a.shift.call.ended + waited delay.ceilMillis := by
  obtain ⟨at_a, at_b⟩ := getElem?_of_split split
  exact row.between before.length a.shift b.shift at_a at_b

/-- A call that asks the worker to leave is its last one. -/
theorem Row.last_of_retires (row : w.Row T t (calls.map Watched.shift)) {last : Watched C}
    (split : calls = before ++ last :: after) (retires : last.shift.call.outcome.Retires) : after = [] := by
  cases after with
  | nil => rfl
  | cons following rest =>
    obtain ⟨delay, interval, _⟩ := row.follows split
    rw [(last.shift.interval?_state_eq_none_iff w.schedule).mpr retires] at interval
    cases interval

section

variable {history current late : List (Step C)} {code : Code C (Option WorkerState)} {served : List (Shift C)}

/-- At every stage the calls that are over make a row. -/
theorem Stage.row (stage : w.Stage T t history code served current late) : w.Row T t served := by
  cases stage with
  | between row | working row => exact row

/-- Since the calls of a worker that are over, its count has grown by one at most. -/
theorem Stage.count_le {limit : ErrorLimit} {inner : Work C} {m n : Nat}
    (stage : w.Stage T t history code served current late) (work_eq : w.work = (Layer.errorLimit limit).wrap inner)
    (apart : (inner w.id).Shuns (Deed.tallies limit.name))
    (follows : (counting limit.name w.id).follow m current = some n) : n ≤ m + 1 := by
  cases stage with
  | between =>
    cases follows
    exact Nat.le_succ m
  | working row reaches =>
    rw [work_eq] at reaches
    exact ErrorLimit.underway_counted ⟨T, inner, _, _, _, apart, reaches⟩ follows

end

variable {limit : ErrorLimit} {n : Nat}

/-- Each call of a worker is judged by the failures in a row before it, and there are never too many of them before a
call. -/
theorem Row.judged (row : w.Row T t (calls.map Watched.shift))
    (through : ∀ watched ∈ calls, watched.visit.IsThrough limit w.id)
    (follows : (counting limit.name w.id).follow 0 (calls.flatMap (·.shift.call.steps)) = some n)
    {watched : Watched C} (split : calls = before ++ watched :: after) :
    inARow (before.map Watched.round) ≤ limit.threshold ∧ watched.shift.call.outcome =
      limit.judge (inARow (before.map Watched.round)) watched.round.outcome := by
  subst split
  have kept : ∀ earlier ∈ before, earlier.visit.retires = false := by
    intro earlier mem
    refine Bool.eq_false_iff.mpr fun retires => ?_
    obtain ⟨first, second, rfl⟩ := List.append_of_mem mem
    have whole : first ++ earlier :: second ++ watched :: after = first ++ earlier :: (second ++ watched :: after) :=
      List.append_assoc ..
    have none_after := row.last_of_retires whole (Visit.asks_of_retires retires)
    simp at none_after
  rw [steps_eq_visits] at follows
  obtain ⟨_, _, judged⟩ := ErrorLimit.visits_counted (List.forall_mem_map.mpr through) follows
  have this_one := judged (before.map Watched.visit) watched.visit (after.map Watched.visit) (by simp)
  rwa [failures_eq_inARow kept] at this_one

end Worker

/-! ## Leaving -/

namespace Worker

variable {w : Worker C} {code : Code C (Option WorkerState)}

/-- A worker whose token is cancelled has only its farewell left, and leaves without waiting. -/
theorem runs_closing (w : Worker C) (s : Shared C) :
    ∃ steps s', Thread.Runs w (.ready (do w.closing; return none)) s steps .exited s' ∧ s'.clock = s.clock :=
  ⟨_, _, .cons (.ask _ _) (.cons (.ask _ _) (.cons .leave (.refl _ _))), rfl⟩

/-- A thread whose worker leaves without waiting can do so at once, whatever is shared. -/
theorem Departs.runs (departs : w.Departs code) (s : Shared C) :
    ∃ steps s', Thread.Runs w (.ready code) s steps .exited s' ∧ s'.clock = s.clock := by
  induction code generalizing s with
  | done value =>
    cases value with
    | none => exact ⟨_, s, .cons .leave (.refl _ _), rfl⟩
    | some state =>
      obtain ⟨steps, s', closes, clock⟩ := w.runs_closing s
      rw [← segment_of_over (departs state rfl)] at closes
      exact ⟨_, s', .cons (.proceed state) closes, clock⟩
  | panic x => exact ⟨_, s, .cons (.crash x) (.refl _ _), rfl⟩
  | ask request next ih =>
    obtain ⟨_, _, goes_on⟩ := departs (s.answer (some w.id) request).1
    obtain ⟨steps, s', leaves, clock⟩ := ih _ goes_on (s.answer (some w.id) request).2
    exact ⟨_, s', .cons (.ask request next) leaves, clock.trans (s.clock_answer (some w.id) request)⟩
  | wait =>
    obtain ⟨_, allowed, _⟩ := departs .elapsed
    cases allowed

end Worker

/-- Whether a deed of client code is to ask the pool to stop, or to cancel a token. -/
def Deed.cancels : Deed C → Bool
  | .asked (.client .stop) _ | .asked (.client (.cancel _)) _ => true
  | _ => false

/-- Whether the owner, or client code in the work of a worker, asks for the end of a run. -/
def Occurrence.cancels : Occurrence C → Bool
  | stop | cancelParent => true
  | work _ steps => steps.any (·.deed.cancels)
  | _ => false

/-- Only client code that asks for it cancels a token. -/
theorem Shared.cancelledSince_answer (s : Shared C) (worker : Option String) {request : Request C}
    {answer : request.Answer} (spares : (Deed.asked request answer).cancels = false) :
    (s.answer worker request).2.cancelledSince = s.cancelledSince := by
  cases request with
  | client request =>
    cases request with
    | stop | cancel => cases spares
    | update | note => rfl
  | _ => rfl

namespace Pool

variable {p q : Pool C} {story : List (Occurrence C)} {occurrence : Occurrence C} {n : Nat}

/-- A token that nobody asks to be cancelled is cancelled when the last worker has left, and not before. -/
theorem Occurs.spared (occurs : p.Occurs occurrence q) (spares : occurrence.cancels = false)
    (goes_on : occurrence ≠ .conclude) : q.shared.cancelledSince = p.shared.cancelledSince := by
  cases occurs with
  | start started =>
    obtain rfl := start_eq started
    rw [opened_eq]
    rfl
  | report =>
    rw [fireReports_eq]
    rfl
  | conclude => exact absurd rfl goes_on
  | receiveError =>
    unfold Pool.receiveError
    split <;> rfl
  | @work n seat _ _ _ at_n acts =>
    obtain ⟨w, thread⟩ := seat
    cases acts with
    | ask request next => exact p.shared.cancelledSince_answer (some w.id) ((Bool.or_false _).symm.trans spares)
    | skip | notice | elapse | wake | sleep | proceed | leave | crash => rfl
  | stop | cancelParent => cases spares
  | refuse | addHooks | update | takeErrors | dropErrors | readErrors | tick => rfl

/-- As long as nothing asks for the end and the run is not over, the token keeps as it is. -/
theorem Chronicle.spared (chronicle : p.Chronicle story q) (spares : story.any Occurrence.cancels = false)
    (goes_on : .conclude ∉ story) : q.shared.cancelledSince = p.shared.cancelledSince := by
  induction chronicle with
  | nil => rfl
  | snoc _ occurs ih =>
    rw [List.any_append, Bool.or_eq_false_iff] at spares
    rw [List.mem_append, not_or] at goes_on
    refine (occurs.spared ((Bool.or_false _).symm.trans spares.2) ?_).trans (ih spares.1 goes_on.1)
    rintro rfl
    exact goes_on.2 List.mem_cons_self

/-- A worker that leaves without waiting can do so before anything else happens. -/
theorem exists_exit {seat : Seat C} {code : Code C (Option WorkerState)} (at_n : p.crew[n]? = some seat)
    (ready : seat.thread = .ready code) (departs : seat.worker.Departs code) :
    ∃ more q, p.Chronicle more q ∧ q.shared.clock = p.shared.clock ∧
      q.crew[n]? = some { seat with thread := .exited } := by
  obtain ⟨steps, s, leaves, clock⟩ := departs.runs p.shared
  rw [← ready] at leaves
  obtain ⟨more, _, chronicle⟩ := (runs_of_thread at_n leaves).exists_chronicle
  obtain ⟨lt, _⟩ := List.getElem?_eq_some_iff.mp at_n
  exact ⟨more, _, chronicle, clock, by simp [withThread, lt]⟩

/-! ## What becomes of a worker -/

variable {limit : ErrorLimit} {events : List (Nat × Step C)}

/-- The calls of a worker that are over, with the iterations in them, and how each of them was judged; and how
high its count can be. -/
theorem exists_calls (b : PoolBuilder C) (state : C.State) (only : b.layers = [.errorLimit limit])
    (runs : (build b state).Runs events p) {seat : Seat C} (at_n : p.crew[n]? = some seat) {t : Nat}
    {code : Code C (Option WorkerState)} {served : List (Shift C)} {current late : List (Step C)}
    (stage : seat.worker.Stage p.shared.cancelledSince t (history n events) code served current late) :
    ∃ calls : List (Watched C), calls.map Watched.shift = served ∧
      (∀ watched ∈ calls,
        watched.Follows b.plan.iteration limit p.shared.cancelledSince (b.plan.worker (n + 1)).id) ∧
      (∀ before watched after, calls = before ++ watched :: after →
        inARow (before.map Watched.round) ≤ limit.threshold ∧ watched.shift.call.outcome =
          limit.judge (inARow (before.map Watched.round)) watched.round.outcome) ∧
      p.shared.tally.count limit.name (b.plan.worker (n + 1)).id ≤ limit.threshold + 1 := by
  obtain ⟨t', underway⟩ := exists_underway b state runs at_n
  have worker_eq := underway.worker_eq at_n
  have work_eq : seat.worker.work = (Layer.errorLimit limit).wrap b.plan.iteration.work := by
    have composed := underway.work_eq at_n
    have layers : b.plan.layers = [.errorLimit limit] := only
    rwa [layers] at composed
  have isOf := stage.row.isOf
  rw [work_eq] at isOf
  obtain ⟨calls, rfl, follow⟩ := exists_watched isOf
  -- The worker's count follows its own inquiries, first those of the calls that are over and then of the one under way.
  have follows := follow_history b state only runs n
  rw [← worker_eq, ← follow_inquiries, stage.inquiries, follow_inquiries] at follows
  obtain ⟨count, earlier, later⟩ := Rule.exists_of_follow_append follows
  rw [List.flatMap_map] at earlier
  have through : ∀ watched ∈ calls, watched.visit.IsThrough limit seat.worker.id :=
    fun watched mem => (follow watched mem).2.2
  refine ⟨calls, rfl, worker_eq ▸ follow, fun before watched after => stage.row.judged through earlier, ?_⟩
  rw [steps_eq_visits] at earlier
  obtain ⟨_, few, _⟩ := ErrorLimit.visits_counted (List.forall_mem_map.mpr through) earlier
  rw [← worker_eq]
  exact Nat.le_trans (stage.count_le work_eq apart_work later) (Nat.succ_le_succ few)

end Pool

/-- A call ends as the iteration in it does, if that is not one failure too many. -/
theorem judge_of_few {limit : ErrorLimit} {before : List (Round C)} {round : Round C}
    (few : inARow (before ++ [round]) ≤ limit.threshold) :
    limit.judge (inARow before) round.outcome = round.outcome := by
  rw [inARow_snoc, Round.fails_eq] at few
  cases ended : round.outcome with
  | ok | panic => rfl
  | error e =>
    refine if_neg ?_
    rintro ⟨counted, full⟩
    simp [Round.succeeds, ended, Outcome.isFailure, counted] at few
    omega

/-- With one failure too many, a call ends with a shutdown. -/
theorem judge_of_many {limit : ErrorLimit} {before : List (Round C)} {round : Round C}
    (few : inARow before ≤ limit.threshold) (many : inARow (before ++ [round]) = limit.threshold + 1) :
    ∃ e, round.outcome = .error e ∧ limit.judge (inARow before) round.outcome = .error (limit.retirement e) := by
  rw [inARow_snoc, Round.fails_eq] at many
  cases ended : round.outcome with
  | ok => simp [Round.succeeds, ended] at many
  | panic =>
    simp [Round.succeeds, ended, Outcome.isFailure] at many
    omega
  | error e =>
    by_cases counted : ErrorLimit.counts e = true
    · simp [Round.succeeds, ended, Outcome.isFailure, counted] at many
      exact ⟨e, rfl, if_pos ⟨counted, many⟩⟩
    · simp [Round.succeeds, ended, Outcome.isFailure, counted] at many
      omega

namespace Pool

variable {p : Pool C} {story : List (Occurrence C)} {limit : ErrorLimit}

/-- What becomes of a worker in a pool with one limit, as it stands after the calls of its work that are over. -/
structure Policed (limit : ErrorLimit) (plan : PoolPlan C) (p : Pool C) (story : List (Occurrence C)) (n : Nat)
    (calls : List (Watched C)) : Prop where
  stands : Stands p (eventsOf story) n (calls.map Watched.shift)
  /-- In each of them there is the iteration that its marks tell of. -/
  rounds : ∀ watched ∈ calls, watched.round.Follows plan.iteration p.shared.cancelledSince ∧
    marks watched.shift.call.steps = watched.round.marks plan.iteration.retry (plan.worker (n + 1)).id
  /-- It never works again after more failures in a row than the threshold. -/
  few : ∀ before watched after, calls = before ++ watched :: after →
    inARow (before.map Watched.round) ≤ limit.threshold
  /-- Its count is never more than one above the threshold. -/
  bounded : p.shared.tally.count limit.name (plan.worker (n + 1)).id ≤ limit.threshold + 1
  /-- So it fits a word of 32 bits, unless the threshold is the greatest such word. -/
  fits : limit.threshold + 1 < UInt32.size →
    p.shared.tally.count limit.name (plan.worker (n + 1)).id < UInt32.size
  /-- Up to the threshold, the limit leaves alone how an iteration ended. -/
  passes : ∀ before watched after, calls = before ++ watched :: after →
    inARow ((before ++ [watched]).map Watched.round) ≤ limit.threshold →
      watched.shift.call.outcome = watched.round.outcome
  /-- With one failure more, the worker is asked to leave, and does so in the millisecond in which the call ended,
  which needs nobody else. -/
  retires : ∀ before last after, calls = before ++ last :: after →
    inARow ((before ++ [last]).map Watched.round) = limit.threshold + 1 → after = [] ∧
      (∃ e, last.round.outcome = .error e ∧ last.shift.call.outcome = .error (.workerShutdown
        (toString (limit.threshold + 1) ++ " consecutive errors, last: " ++ e.message))) ∧
      ∃ seat, p.crew[n]? = some seat ∧ (seat.thread = .exited ∨ p.shared.clock = last.shift.call.ended ∧
        ∃ more q, p.Chronicle more q ∧ q.shared.clock = last.shift.call.ended ∧
          q.crew[n]? = some { seat with thread := .exited })
  /-- As long as the run is not over, it leaves only because one of its own calls asks it to, or because the owner or
  client code asks for the end of the run. -/
  leaves : .conclude ∉ story → ∀ seat, p.crew[n]? = some seat → seat.thread = .exited →
    (∃ watched ∈ calls, watched.shift.call.outcome.Retires) ∨ story.any Occurrence.cancels = true

/-- What a limit puts in the place of an error retires the worker. -/
theorem retires_retirement (limit : ErrorLimit) (e : PoolError) :
    (Outcome.error (limit.retirement e) : Outcome Unit).Retires :=
  ⟨_, rfl, .inl rfl⟩

/-- In a pool whose only layer is a limit, every worker is retired by one failure in a row more than the threshold,
at once and for good, and no other worker leaves because of that. -/
theorem chronicle_retires (b : PoolBuilder C) (state : C.State) (only : b.layers = [.errorLimit limit])
    (chronicle : (build b state).Chronicle story p) (n : Nat) :
    ∃ calls, Policed limit b.plan p story n calls := by
  obtain ⟨served, stands, prompt⟩ := runs_stands_prompt b state chronicle.runs n
  cases at_n : p.crew[n]? with
  | none =>
    -- Nobody has that seat, and nobody has done anything.
    have nobody (seat : Seat C) : p.crew[n]? ≠ some seat := by simp [at_n]
    obtain rfl := stands.absent at_n
    have follows := follow_history b state only chronicle.runs n
    rw [history_eq_nil_of_absent b state chronicle.runs at_n] at follows
    have zero := Option.some.inj follows
    refine ⟨[], stands, List.forall_mem_nil _, ?_, ?bounded, ?fits, ?_, ?_,
      fun _ seat at_n' => absurd at_n' (nobody seat)⟩
    case bounded => exact zero ▸ Nat.zero_le _
    case fits => exact fun _ => zero ▸ by decide
    all_goals
      intro before watched after split
      simp at split
  | some seat =>
    -- The calls that are over are judged in turn, each by the row of failures before it.
    obtain ⟨t, code, current, late, _, stage, _⟩ := stands.seated seat at_n
    obtain ⟨calls, rfl, follow, judged, bounded⟩ := exists_calls b state only chronicle.runs at_n stage
    refine ⟨calls, ?_⟩
    constructor
    case stands => exact stands
    case rounds => exact fun watched mem => ⟨(follow watched mem).1, (follow watched mem).2.1⟩
    case few => exact fun before watched after split => (judged before watched after split).1
    case bounded => exact bounded
    case fits => exact Nat.lt_of_le_of_lt bounded
    case passes =>
      intro before watched after split few
      rw [List.map_append] at few
      exact (judged before watched after split).2.trans (judge_of_few few)
    case retires =>
      intro before last after split many
      obtain ⟨few, outcome⟩ := judged before last after split
      rw [List.map_append] at many
      obtain ⟨e, ended, shutdown⟩ := judge_of_many few many
      rw [shutdown] at outcome
      have asks : last.shift.call.outcome.Retires := outcome ▸ retires_retirement limit e
      -- After an outcome that retires the worker there is no other call.
      obtain rfl := stage.row.last_of_retires split asks
      refine ⟨rfl, ⟨e, ended, outcome⟩, seat, at_n, ?_⟩
      rcases prompt seat at_n last.shift (by simp [split]) asks with exited | ⟨now, code, ready, departs⟩
      · exact .inl exited
      · obtain ⟨more, q, goes_on, clock, exited⟩ := exists_exit at_n ready departs
        exact .inr ⟨now, more, q, goes_on, clock.trans now, exited⟩
    case leaves =>
      intro goes_on seat' at_n' exited
      by_cases asked : story.any Occurrence.cancels = true
      · exact .inr asked
      -- Nobody has asked for the end, so the token is as it was, and it was one of the worker's own calls.
      have spared := chronicle.spared (Bool.eq_false_iff.mpr asked) goes_on
      rcases stands.leaves seat' at_n' exited with cancelled | ⟨shift, mem, asks⟩
      · rw [Shared.cancelled, spared] at cancelled
        cases cancelled
      · obtain ⟨watched, mem_calls, rfl⟩ := List.mem_map.mp mem
        exact .inl ⟨watched, mem_calls, asks⟩

/-- Fails whenever the first worker checks out a task, and has none for the others. -/
def lopsided : Processor .bare :=
  { hasty with
    checkout := fun worker => .done (.error (if worker = "lonely-worker-1" then .hook "torn" else .noWork)) }

/-- A pool of two workers that allows each one failure in a row. -/
def uneven : PoolBuilder .bare :=
  { lonely with
    processor := lopsided
    workers := 2
    layers := [.errorLimit ErrorLimit.strict] }

/-- The first worker fails twice and is retired, and the second goes on. -/
theorem chronicle_retires_of_first :
    ∃ story p, (build uneven ()).Chronicle story p ∧ uneven.layers = [.errorLimit ErrorLimit.strict] ∧
      p.crew.map (·.thread.isExited) = [true, false] ∧ p.shared.cancelled = false ∧
      (∃ calls, Policed ErrorLimit.strict uneven.plan p story 0 calls ∧
        ∃ watched ∈ calls, watched.shift.call.outcome.Retires) ∧
      ∃ calls, Policed ErrorLimit.strict uneven.plan p story 1 calls := by
  obtain ⟨_, runs⟩ := runs_perform uneven () [.start, .advance 20]
  obtain ⟨story, _, chronicle⟩ := runs.exists_chronicle
  let p := (build uneven ()).perform [.start, .advance 20]
  have uncancelled : p.shared.cancelled = false := by decide +kernel
  have left : p.crew.map (·.thread.isExited) = [true, false] := by decide +kernel
  obtain ⟨calls, policed⟩ := chronicle_retires uneven () rfl chronicle 0
  refine ⟨story, p, chronicle, rfl, left, uncancelled, ⟨calls, policed, ?_⟩, ?second⟩
  case second => exact chronicle_retires uneven () rfl chronicle 1
  obtain ⟨seat, rest, crew_eq, exited, _⟩ := List.map_eq_cons_iff.mp left
  have at_first : p.crew[0]? = some seat := by rw [crew_eq]; rfl
  have gone : seat.thread = .exited := by
    cases thread : seat.thread with
    | exited => rfl
    | ready | waiting =>
      rw [thread] at exited
      cases exited
  rcases policed.stands.leaves seat at_first gone with cancelled | ⟨shift, mem, asks⟩
  · rw [uncancelled] at cancelled
    cases cancelled
  · obtain ⟨watched, mem_calls, rfl⟩ := List.mem_map.mp mem
    exact ⟨watched, mem_calls, asks⟩

end Pool

end WorkerPool
