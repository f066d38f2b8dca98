import WorkerPool.Proofs.Hushing
import WorkerPool.Proofs.Interchange

/-!
# Nothing hangs on what hooks return

`Pool.hushed` is a pool as it would be if its hooks never returned an error, with the warnings about them struck
from the journal. Hushing goes along with everything that may happen to a pool. A step in which a worker writes a
warning is not seen in the hushed pool, and every other step is a step there (`Thread.Acts.hushed`). The other
way round, a worker may have warnings to write before it does what the hushed one does; it has finitely many, and
they change nothing (`exists_caught_up`), so that the hushed pool's steps are taken by the pool as well
(`Occurs.exists_unhushed`).

So two pools that are built alike, but for what their hooks return where they do not panic, live the same lives.
-/

namespace WorkerPool

variable {C : Client} {α : Type}

/-! ## What is shared -/

/-- Whether an entry is the warning of a worker about a hook that failed. -/
def Entry.isHookWarning (entry : Entry C) : Bool :=
  match entry.worker, entry.event with
  | some _, .log line => line.isHookWarning
  | _, _ => false

/-- Entries without the warnings about hooks among them. -/
def unwarned (entries : List (Entry C)) : List (Entry C) :=
  entries.filter fun entry => !entry.isHookWarning

@[simp] theorem unwarned_append (first second : List (Entry C)) :
    unwarned (first ++ second) = unwarned first ++ unwarned second :=
  List.filter_append ..

/-- Where nobody warns about a hook, nothing is struck out. -/
theorem unwarned_eq_self {entries : List (Entry C)} (others : ∀ entry ∈ entries, entry.isHookWarning = false) :
    unwarned entries = entries :=
  List.filter_eq_self.mpr fun entry mem => by rw [others entry mem]; rfl

namespace Shared

/-- What is shared, without the warnings about hooks in the journal. -/
def hushed (s : Shared C) : Shared C :=
  { s with journal := (unwarned s.journal.toList).toArray }

/-- Entries are hushed by striking the warnings about hooks from among them. -/
theorem hushed_withEntries (s : Shared C) (entries : List (Entry C)) :
    (s.withEntries entries).hushed = s.hushed.withEntries (unwarned entries) := by
  simp [hushed, withEntries]

/-- Any entry but such a warning stays. -/
theorem hushed_enter (s : Shared C) {worker : Option String} {event : Event C}
    (other : ({ time := s.clock, worker, event } : Entry C).isHookWarning = false) :
    (s.enter worker event).hushed = s.hushed.enter worker event := by
  rw [enter_eq, enter_eq, hushed_withEntries, unwarned_eq_self (List.forall_mem_singleton.mpr other)]
  rfl

/-- A warning about a hook leaves nothing but itself. -/
theorem hushed_enter_warning (s : Shared C) (worker : String) {line : LogLine} (warning : line.isHookWarning = true) :
    (s.enter (some worker) (.log line)).hushed = s.hushed := by
  have struck : unwarned [({ time := s.clock, worker := some worker, event := .log line } : Entry C)] = [] :=
    List.filter_eq_nil_iff.mpr (List.forall_mem_singleton.mpr (by simp [Entry.isHookWarning, warning]))
  rw [enter_eq, hushed_withEntries, struck, withEntries_nil]

theorem hushed_cancel (s : Shared C) (token : Token) : (s.cancel token).hushed = s.hushed.cancel token := by
  cases token <;> rfl

theorem hushed_stop (s : Shared C) (worker : Option String) : (s.stop worker).hushed = s.hushed.stop worker := by
  let line : LogLine := ⟨.info, "🔨 Stopping worker pool", [("pool", .text s.pool)]⟩
  have other : ({ time := s.clock, worker, event := .log line } : Entry C).isHookWarning = false := by
    cases worker <;> rfl
  unfold stop
  by_cases stops : (s.running && !s.cancelled) = true
  · have stops' : (s.hushed.running && !s.hushed.cancelled) = true := stops
    rw [if_pos stops, if_pos stops', hushed_cancel]
    exact congrArg (·.cancel .own) (s.hushed_enter other)
  · have stops' : ¬ (s.hushed.running && !s.hushed.cancelled) = true := stops
    rw [if_neg stops, if_neg stops']

end Shared

/-- Whether a request is to warn about a hook that failed. -/
def Request.isHookWarning : Request C → Bool
  | .log line => line.isHookWarning
  | _ => false

namespace Shared

/-- To write a warning about a hook makes no difference that hushing would leave. -/
theorem hushed_answer_warning (s : Shared C) (worker : String) {request : Request C}
    (warning : request.isHookWarning = true) : (s.answer (some worker) request).2.hushed = s.hushed := by
  cases request with
  | log line => exact s.hushed_enter_warning worker warning
  | _ => cases warning

/-- A worker is answered the same whatever warnings there have been. -/
theorem hushed_answer (s : Shared C) (worker : String) {request : Request C}
    (other : request.isHookWarning = false) :
    s.hushed.answer (some worker) request =
      ((s.answer (some worker) request).1, (s.answer (some worker) request).2.hushed) := by
  have entered {event : Event C}
      (other : ({ time := s.clock, worker := some worker, event } : Entry C).isHookWarning = false) :
      s.hushed.enter (some worker) event = (s.enter (some worker) event).hushed :=
    (s.hushed_enter other).symm
  cases request with
  | client request =>
    cases request with
    | update => rfl
    | note n => exact congrArg (((), ·)) (entered rfl)
    | cancel token => exact congrArg (((), ·)) (s.hushed_cancel token).symm
    | stop => exact congrArg (((), ·)) (s.hushed_stop (some worker)).symm
  | enter call => exact congrArg (((), ·)) (entered rfl)
  | log line => exact congrArg (((), ·)) (entered other)
  | record metric =>
    have recorded := @hushed_enter C { s with collector := s.collector.record metric } worker (.metric metric) rfl
    exact congrArg (((), ·)) recorded.symm
  | now | ended | registered | register | tally | escalate => rfl

end Shared

/-! ## What workers do -/

/-- How far a program has got, with what is left of it hushed. -/
def Progress.hushed : Progress C.poolInterface α → Progress C.poolInterface α
  | .waiting due heeds next => .waiting due heeds fun wake => (next wake).hushed
  | progress => progress

namespace Program

/-- Hushed code goes on where the code would warn about a hook. -/
theorem hushed_ask_warning {line : LogLine} (warning : line.isHookWarning = true) (next : Unit → Code C α) :
    (ask (I := C.poolInterface) (.log line) next).hushed = (next ()).hushed := by
  have struck : (Request.log line : Request C).hushed = .done () := if_pos warning
  exact congrArg (Program.bind · _) struck

/-- Any other line is written by hushed code too. -/
theorem hushed_ask_log {line : LogLine} (other : line.isHookWarning = false) (next : Unit → Code C α) :
    (ask (I := C.poolInterface) (.log line) next).hushed =
      .ask (I := C.poolInterface) (.log line) fun answer => (next answer).hushed := by
  have kept : (Request.log line : Request C).hushed = .ask (I := C.poolInterface) (.log line) .done :=
    if_neg (Bool.eq_false_iff.mp other)
  exact congrArg (Program.bind · _) kept

theorem hushed_wait (ms : Nat) (heeds : Bool) (next : Wake → Code C α) :
    (wait ms heeds next : Code C α).hushed = .wait ms heeds fun wake => (next wake).hushed := rfl

/-- Code does the same up to its next wait. -/
theorem hushed_resume (worker : String) (code : Code C α) (s : Shared C) :
    code.hushed.resume (some worker) s.hushed =
      ((code.resume (some worker) s).1.hushed, (code.resume (some worker) s).2.hushed) := by
  induction code generalizing s with
  | done | panic => rfl
  | ask request next ih =>
    have answered (other : request.isHookWarning = false) :
        (next (s.hushed.answer (some worker) request).1).hushed.resume (some worker)
            (s.hushed.answer (some worker) request).2 =
          (((ask request next).resume (some worker) s).1.hushed,
            ((ask request next).resume (some worker) s).2.hushed) := by
      rw [s.hushed_answer worker other]
      exact ih ..
    cases request with
    | log line =>
      -- A warning is what hushed code leaves out, so that the step has nothing to match it.
      cases warning : line.isHookWarning with
      | true =>
        refine (congrArg (resume (some worker) · s.hushed) (hushed_ask_warning warning next)).trans ?_
        rw [← s.hushed_enter_warning worker warning]
        exact ih ..
      | false =>
        exact (congrArg (resume (some worker) · s.hushed) (hushed_ask_log warning next)).trans (answered warning)
    | _ => exact answered rfl
  | wait ms heeds next ih =>
    -- A wait is passed over if it is heeded or has no length, and otherwise it is where both stop.
    rw [hushed_wait, resume, resume]
    by_cases noticed : (heeds && s.cancelled) = true
    · have noticed' : (heeds && s.hushed.cancelled) = true := noticed
      rw [if_pos noticed, if_pos noticed']
      exact ih ..
    · have noticed' : ¬ (heeds && s.hushed.cancelled) = true := noticed
      rw [if_neg noticed, if_neg noticed']
      by_cases none : ms = 0
      · rw [if_pos none, if_pos none]
        exact ih ..
      · rw [if_neg none, if_neg none]
        rfl

end Program

/-- A thread with what is left of it hushed. -/
def Thread.hushed : Thread C → Thread C
  | ready code => ready code.hushed
  | waiting due heeds next => waiting due heeds fun wake => (next wake).hushed
  | exited => exited

namespace Thread

/-- However far code has got when it waits or ends, it has got there hushed. -/
theorem hushed_ofProgress (w : Worker C) (progress : Progress C.poolInterface (Option WorkerState)) :
    ofProgress w.hushed progress.hushed = (ofProgress w progress).hushed := by
  match progress with
  | .done (some state) => exact congrArg ready (w.hushed_segment state).symm
  | .waiting .. | .done none | .panic _ => rfl

/-- Running hushed code from a hushed state comes to what running the code comes to, hushed. -/
theorem hushed_run (w : Worker C) (code : Code C (Option WorkerState)) (s : Shared C) :
    run w.hushed code.hushed s.hushed = ((run w code s).1.hushed, (run w code s).2.hushed) := by
  rw [run_eq, run_eq, Worker.hushed_id, Program.hushed_resume, hushed_ofProgress]

/-- Hushed threads wake up when the others do. -/
theorem wake?_hushed (thread : Thread C) (s : Shared C) :
    thread.hushed.wake? s.hushed = (thread.wake? s).map Program.hushed := by
  cases thread with
  | ready | exited => rfl
  | waiting due heeds next =>
    have cancelled : s.hushed.cancelled = s.cancelled := rfl
    have clock : s.hushed.clock = s.clock := rfl
    rw [hushed, wake?_waiting, wake?_waiting, cancelled, clock]
    split
    · rfl
    · split <;> rfl

/-- A turn of a hushed thread is the hushed turn of the thread. -/
theorem hushed_turn (w : Worker C) (thread : Thread C) (s : Shared C) :
    turn w.hushed thread.hushed s.hushed = ((turn w thread s).1.hushed, (turn w thread s).2.hushed) := by
  unfold turn
  rw [wake?_hushed]
  cases thread.wake? s with
  | none => rfl
  | some code =>
    simp only [Option.map_some, hushed_run]
    generalize run w code s = result
    obtain ⟨thread', s'⟩ := result
    match thread' with
    | .ready code' => exact hushed_run w code' s'
    | .waiting .. | .exited => rfl

end Thread

namespace Seat

/-- A seat with its worker and its thread hushed. -/
def hushed (seat : Seat C) : Seat C where
  worker := seat.worker.hushed
  thread := seat.thread.hushed

/-- A pass over a hushed crew is the hushed pass over the crew. -/
theorem hushed_pass (crew : List (Seat C)) (s : Shared C) :
    pass (crew.map hushed) s.hushed = ((pass crew s).1.map hushed, (pass crew s).2.hushed) := by
  induction crew generalizing s with
  | nil => rfl
  | cons seat rest ih =>
    have turned : seat.hushed.thread.turn seat.hushed.worker s.hushed = _ :=
      Thread.hushed_turn seat.worker seat.thread s
    rw [List.map_cons, pass_cons, pass_cons, turned, ih]
    rfl

end Seat

/-! ## What a pool does -/

/-- What no worker writes is no warning about a hook. -/
theorem Shared.unwarned_entries (s : Shared C) (events : List (Event C)) :
    unwarned (s.entries none events) = s.entries none events := by
  refine unwarned_eq_self fun entry mem => ?_
  obtain ⟨event, _, rfl⟩ := List.mem_map.mp mem
  rfl

namespace Pool

variable {p q : Pool C}

/-- The pool if its hooks never return an error. -/
def hushed (p : Pool C) : Pool C :=
  { p with
    plan := p.plan.hushed
    shared := p.shared.hushed
    crew := p.crew.map Seat.hushed }

/-- The crew of a hushed plan is the hushed crew of the plan. -/
theorem crew_hushed (plan : PoolPlan C) : plan.hushed.crew = plan.crew.map Worker.hushed := by
  simp only [PoolPlan.crew, List.map_map]
  exact List.map_congr_left fun n _ => (plan.hushed_worker (n + 1)).symm

/-- A hushed plan opens the same spans, for these are no warnings. -/
theorem spans_hushed (plan : PoolPlan C) (s : Shared C) : spans plan.hushed s.hushed = unwarned (spans plan s) := by
  have kept : unwarned (spans plan s) = spans plan s := by
    refine unwarned_eq_self fun entry mem => ?_
    obtain ⟨w, _, rfl⟩ := List.mem_map.mp mem
    rfl
  rw [kept, spans, spans, crew_hushed, List.map_map]
  rfl

/-- Opening a pool goes along with hushing it. -/
theorem hushed_opened (p : Pool C) : p.opened.hushed = p.hushed.opened := by
  simp only [opened_eq, Shared.hushed_withEntries, unwarned_append, Shared.unwarned_entries]
  rw [← spans_hushed]
  rfl

/-- So does closing it. -/
theorem hushed_closed (p : Pool C) : p.closed.hushed = p.hushed.closed := by
  simp only [closed_eq, Shared.hushed_withEntries, Shared.unwarned_entries]
  rfl

/-- So do reports, none of which is a warning about a hook. -/
theorem hushed_fireReports (p : Pool C) : p.fireReports.hushed = p.hushed.fireReports := by
  have reported := Shared.hushed_withEntries { p.shared with collector := (p.shared.collector.fire p.shared.clock).1 }
    (p.shared.entries none ((p.shared.collector.fire p.shared.clock).2.map .log))
  rw [Shared.unwarned_entries] at reported
  rw [fireReports_eq, fireReports_eq, hushed, reported]
  rfl

/-- A hushed pool can be started just when the pool can. -/
theorem hushed_start (p : Pool C) : p.hushed.start = p.start.map hushed := by
  have same : p.hushed.startedAt = p.startedAt := rfl
  unfold Pool.start
  rw [same]
  cases p.startedAt with
  | some => rfl
  | none =>
    have seated : p.hushed.plan.crew.map (fun w => ({ worker := w, thread := .ready w.start } : Seat C)) =
        (p.plan.crew.map fun w => { worker := w, thread := .ready w.start }).map Seat.hushed := by
      rw [show p.hushed.plan = p.plan.hushed from rfl, crew_hushed, List.map_map, List.map_map]
      exact List.map_congr_left fun w _ => congrArg (Seat.mk _) (congrArg Thread.ready w.hushed_start.symm)
    dsimp only
    rw [seated, ← hushed_opened]
    rfl

theorem hushed_stop (p : Pool C) : p.stop.hushed = p.hushed.stop := by
  simp only [Pool.stop, hushed, Shared.hushed_stop]

/-- A hushed thread has left just when the thread has. -/
theorem isExited_hushed (seat : Seat C) : seat.hushed.thread.isExited = seat.thread.isExited := by
  obtain ⟨w, thread⟩ := seat
  cases thread <;> rfl

/-- As many workers may still send to the escalation channel. -/
theorem senders_hushed (p : Pool C) : p.hushed.senders = p.senders := by
  simp only [senders, hushed, List.countP_map, Function.comp_def, isExited_hushed]

/-- What is read from the escalation channel is the same. -/
theorem hushed_receiveError (p : Pool C) :
    p.hushed.receiveError = (p.receiveError.1, p.receiveError.2.hushed) := by
  have same : p.hushed.shared.channel = p.shared.channel := rfl
  unfold Pool.receiveError
  rw [same, senders_hushed]
  split <;> rfl

/-- A pass over a pool goes along with hushing it. -/
theorem hushed_pass (p : Pool C) : p.pass.hushed = p.hushed.pass := by
  have passed := Seat.hushed_pass p.crew p.shared
  unfold pass
  simp only [hushed, passed]

/-- A hushed run is over just when the run is. -/
theorem isOver_hushed (p : Pool C) : p.hushed.isOver = p.isOver := by
  simp only [isOver, hushed, List.all_map, Function.comp_def, isExited_hushed]
  rfl

/-- Concluding a run goes along with hushing it. -/
theorem hushed_conclude (p : Pool C) : p.conclude.hushed = p.hushed.conclude := by
  rw [conclude, conclude, isOver_hushed]
  by_cases finished : p.isOver = true
  · rw [if_pos finished, if_pos finished, ← hushed_closed]
    rfl
  · rw [if_neg finished, if_neg finished]

/-- Whatever is due in a millisecond comes to the same. -/
theorem hushed_settle (p : Pool C) : p.settle.hushed = p.hushed.settle := by
  rw [settle, settle, hushed_conclude, hushed_pass, hushed_pass, hushed_fireReports]

/-- In a hushed pool the same things are due at the same times. -/
theorem dues_hushed (p : Pool C) : p.hushed.dues = p.dues := by
  have due (seat : Seat C) : seat.hushed.thread.due? = seat.thread.due? := by
    obtain ⟨w, thread⟩ := seat
    cases thread <;> rfl
  simp only [dues, hushed, List.filterMap_map, Function.comp_def, due]
  rfl

/-- A hushed pool is quiet just when the pool is. -/
theorem quiet_hushed : p.hushed.Quiet ↔ p.Quiet := by
  have asleep (seat : Seat C) :
      seat.hushed.thread.wake? p.hushed.shared = none ↔ seat.thread.wake? p.shared = none := by
    have woken : seat.hushed.thread.wake? p.hushed.shared = _ := seat.thread.wake?_hushed p.shared
    rw [woken, Option.map_eq_none_iff]
  refine and_congr ?_ (by rw [isOver_hushed])
  rw [hushed, List.forall_mem_map]
  exact forall₂_congr fun seat _ => asleep seat

/-- What is due next in a hushed pool is what is due next in the pool. -/
theorem nextDue?_hushed (p : Pool C) (now : Nat) : p.hushed.nextDue? now = p.nextDue? now := by
  rw [nextDue?, nextDue?, dues_hushed]

/-- To let time pass goes along with hushing, by induction on what is due on the way. -/
theorem hushed_advanceFrom (p : Pool C) (now target : Nat) :
    (p.advanceFrom now target).hushed = p.hushed.advanceFrom now target := by
  fun_induction advanceFrom now target p with
  | case1 now p none_due =>
    rw [advanceFrom_eq p.hushed, goOn, nextDue?_hushed, none_due]
    rfl
  | case2 now p due next lt le ih =>
    rw [ih, hushed_settle, advanceFrom_eq p.hushed, goOn, nextDue?_hushed, next]
    exact (if_pos le).symm
  | case3 now p due next lt beyond =>
    rw [advanceFrom_eq p.hushed, goOn, nextDue?_hushed, next]
    exact (if_neg beyond).symm

/-- To wait for the end of a run goes along with hushing it. -/
theorem hushed_joinFrom (p : Pool C) (now target : Nat) :
    (p.joinFrom now target).hushed = p.hushed.joinFrom now target := by
  fun_induction joinFrom now target p with
  | case1 now p pending none_due =>
    rw [joinFrom_eq (p := p.hushed) pending, goOn, nextDue?_hushed, none_due]
    rfl
  | case2 now p pending due next lt le ih =>
    rw [ih, hushed_settle, joinFrom_eq (p := p.hushed) pending, goOn, nextDue?_hushed, next]
    exact (if_pos le).symm
  | case3 now p pending due next lt beyond =>
    rw [joinFrom_eq (p := p.hushed) pending, goOn, nextDue?_hushed, next]
    exact (if_neg beyond).symm
  | case4 now p settled =>
    have settled' : p.hushed.isPending = false := Bool.eq_false_iff.mpr settled
    exact (joinFrom_of_settled settled').symm

/-- Each command of the owner goes along with hushing the pool. -/
theorem hushed_command (p : Pool C) (command : Command C) :
    (p.command command).hushed = p.hushed.command command := by
  cases command with
  | start =>
    rw [Pool.command, Pool.command, hushed_start]
    cases p.start <;> rfl
  | stop => exact hushed_stop p
  | advance ms => exact hushed_advanceFrom p ..
  | join ms => exact hushed_joinFrom p ..
  | cancelParent | addHooks | update | takeErrors | dropErrors | readErrors => rfl

/-- Whatever the owner asks of a pool comes to the same. -/
theorem hushed_perform (p : Pool C) (commands : List (Command C)) :
    (p.perform commands).hushed = p.hushed.perform commands := by
  induction commands generalizing p with
  | nil => rfl
  | cons command rest ih =>
    have commanded : (p.command command).settle.hushed = (p.hushed.command command).settle := by
      rw [hushed_settle, hushed_command]
    exact (ih _).trans (congrArg (perform · rest) commanded)

end Pool

/-! ## What happens to a pool -/

/-- What was done, without word of what hooks returned. -/
def Deed.hushed : Deed C → Deed C
  | .asked (.ended ending) _ => .asked (.ended ending.hushed) ()
  | deed => deed

/-- Whether a deed is to warn about a hook that failed. -/
def Deed.isHookWarning : Deed C → Bool
  | .asked request _ => request.isHookWarning
  | .waited _ _ => false

/-- What was done and when, without word of what hooks returned. -/
def Step.hushed (step : Step C) : Step C :=
  { step with deed := step.deed.hushed }

/-- What happens, without word of what hooks returned. That a worker warns about a hook is not told. -/
def Occurrence.hushed : Occurrence C → Option (Occurrence C)
  | work n steps =>
    if steps.any (·.deed.isHookWarning) then none else some (work n (steps.map Step.hushed))
  | occurrence => some occurrence

namespace Thread

variable {w : Worker C} {thread thread' v : Thread C} {s s' u : Shared C} {steps : List (Step C)}

/-- Whether the next thing a thread does is to warn about a hook that failed. -/
def isWarning : Thread C → Bool
  | ready (.ask request _) => Request.isHookWarning request
  | _ => false

/-- A warning changes nothing. -/
theorem Acts.still (acts : thread.Acts w s steps thread' s') (warns : steps.any (·.deed.isHookWarning) = true) :
    thread'.hushed = thread.hushed ∧ s'.hushed = s.hushed := by
  cases acts with
  | ask request next =>
    have warning : request.isHookWarning = true := by simpa [Deed.isHookWarning] using warns
    cases request with
    | log line =>
      exact ⟨congrArg ready (Program.hushed_ask_warning warning next).symm, s.hushed_answer_warning w.id warning⟩
    | _ => cases warning
  | skip | notice | sleep | elapse | wake | proceed | leave | crash => cases warns

/-- Every other step is one of the hushed thread. -/
theorem Acts.hushed (acts : thread.Acts w s steps thread' s') (other : steps.any (·.deed.isHookWarning) = false) :
    thread.hushed.Acts w.hushed s.hushed (steps.map Step.hushed) thread'.hushed s'.hushed := by
  cases acts with
  | ask request next =>
    have other : request.isHookWarning = false := by simpa [Deed.isHookWarning] using other
    have asked := Acts.ask (w := w.hushed) (s := s.hushed) request fun answer => (next answer).hushed
    rw [w.hushed_id, s.hushed_answer w.id other] at asked
    cases request with
    | log line =>
      have kept : (ready (.ask (I := C.poolInterface) (.log line) next)).hushed = _ :=
        congrArg ready (Program.hushed_ask_log other next)
      exact kept ▸ asked
    | ended ending => exact .ask (.ended ending.hushed) fun answer => (next answer).hushed
    | _ => exact asked
  | skip free => exact .skip free
  | notice cancelled => exact .notice cancelled
  | sleep free some => exact .sleep free some
  | elapse free le => exact .elapse free le
  | wake cancelled => exact .wake cancelled
  | proceed state =>
    have proceeds := Acts.proceed (w := w.hushed) (s := s.hushed) state
    rw [← w.hushed_segment] at proceeds
    exact proceeds
  | leave => exact .leave
  | crash x => exact .crash x

/-- A step of hushed code that asks for something other than a warning is a step of the code, which asks for the
same. -/
theorem exists_unhushed_ask {request : Request C}
    {next : C.poolInterface.Answer request → Code C (Option WorkerState)} (other : request.isHookWarning = false)
    (plain : ∀ answer, (Deed.asked request answer).hushed = .asked request answer)
    (acts : (ready (.ask request fun answer => (next answer).hushed)).Acts w.hushed s.hushed steps v u) :
    ∃ steps' thread' s', (ready (.ask request next)).Acts w s steps' thread' s' ∧ thread'.hushed = v ∧
      s'.hushed = u ∧ steps'.any (·.deed.isHookWarning) = false ∧ steps'.map Step.hushed = steps := by
  cases acts
  rw [w.hushed_id, s.hushed_answer w.id other]
  refine ⟨_, _, _, .ask request next, rfl, rfl, ?_, ?_⟩
  · simpa [Deed.isHookWarning] using other
  · exact congrArg (fun deed => [Step.mk s.clock deed]) (plain _)

/-- Whatever a hushed thread may do, the thread may do that has no warning to write first. -/
theorem Acts.exists_unhushed (ready : thread.isWarning = false)
    (acts : thread.hushed.Acts w.hushed s.hushed steps v u) :
    ∃ steps' thread' s', thread.Acts w s steps' thread' s' ∧ thread'.hushed = v ∧ s'.hushed = u ∧
      steps'.any (·.deed.isHookWarning) = false ∧ steps'.map Step.hushed = steps := by
  cases thread with
  | exited => cases acts
  | waiting due heeds next =>
    cases acts with
    | elapse free le => exact ⟨_, _, _, .elapse free le, rfl, rfl, rfl, rfl⟩
    | wake cancelled => exact ⟨_, _, _, .wake cancelled, rfl, rfl, rfl, rfl⟩
  | ready code =>
    cases code with
    | done value =>
      cases acts with
      | proceed state =>
        exact ⟨_, _, _, .proceed state, congrArg Thread.ready (w.hushed_segment state), rfl, rfl, rfl⟩
      | leave => exact ⟨_, _, _, .leave, rfl, rfl, rfl, rfl⟩
    | panic x =>
      cases acts with
      | crash => exact ⟨_, _, _, .crash x, rfl, rfl, rfl, rfl⟩
    | wait ms heeds next =>
      cases acts with
      | skip free => exact ⟨_, _, _, .skip free, rfl, rfl, rfl, rfl⟩
      | notice cancelled => exact ⟨_, _, _, .notice cancelled, rfl, rfl, rfl, rfl⟩
      | sleep free some => exact ⟨_, _, _, .sleep free some, rfl, rfl, rfl, rfl⟩
    -- Only a line of the log could have been a warning, which `ready` excludes.
    | ask request next =>
      cases request with
      | log line =>
        have kept : (Thread.ready (.ask (I := C.poolInterface) (.log line) next)).hushed = _ :=
          congrArg Thread.ready (Program.hushed_ask_log ready next)
        exact exists_unhushed_ask ready (fun _ => rfl) (kept ▸ acts)
      | ended ending =>
        cases acts
        exact ⟨_, _, _, .ask (.ended ending) next, rfl, rfl, rfl, rfl⟩
      | _ => exact exists_unhushed_ask rfl (fun _ => rfl) acts

end Thread

namespace Pool

variable {p q : Pool C} {n : Nat} {seat : Seat C} {occurrence : Occurrence C} {story : List (Occurrence C)}

/-- What one thread does goes along with hushing the pool. -/
theorem hushed_withThread (p : Pool C) (n : Nat) (seat : Seat C) (thread : Thread C) (s : Shared C) :
    (p.withThread n seat thread s).hushed = p.hushed.withThread n seat.hushed thread.hushed s.hushed := by
  simp only [withThread, hushed, List.map_set]
  rfl

/-- The seats of a hushed pool are the hushed seats. -/
theorem at_hushed (at_n : p.crew[n]? = some seat) : p.hushed.crew[n]? = some seat.hushed := by
  simp [hushed, at_n]

/-- A step that leaves all as it was, when it is hushed, is none of the hushed pool. -/
theorem hushed_withThread_of_still {thread : Thread C} {s : Shared C} (at_n : p.crew[n]? = some seat)
    (still : thread.hushed = seat.thread.hushed ∧ s.hushed = p.shared.hushed) :
    (p.withThread n seat thread s).hushed = p.hushed := by
  obtain ⟨lt, same⟩ := List.getElem?_eq_some_iff.mp (at_hushed at_n)
  have unchanged : p.hushed.crew.set n seat.hushed = p.hushed.crew := by
    rw [← same, List.set_getElem_self]
  rw [hushed_withThread, still.1, still.2]
  exact congrArg (fun crew => ({ p.hushed with crew } : Pool C)) unchanged

/-- What happens to a pool happens to the hushed one, unless it is a warning, of which nothing is seen there. -/
theorem Occurs.hushed (h : p.Occurs occurrence q) : p.hushed.Chronicle occurrence.hushed.toList q.hushed := by
  cases h with
  | start started =>
    have started' := p.hushed_start
    rw [started] at started'
    exact .snoc .nil (.start started')
  | refuse refused =>
    have refused' := p.hushed_start
    rw [refused] at refused'
    exact .snoc .nil (.refuse refused')
  | receiveError =>
    have received := Occurs.receiveError (p := p.hushed)
    rw [hushed_receiveError] at received
    exact .snoc .nil received
  | @work n seat thread s steps at_n acts =>
    -- A step that writes a warning leaves the hushed pool where it is; any other is one of its steps too.
    cases warns : steps.any (·.deed.isHookWarning) with
    | true =>
      rw [hushed_withThread_of_still at_n (acts.still warns), Occurrence.hushed, if_pos warns]
      exact .nil
    | false =>
      rw [hushed_withThread, Occurrence.hushed, if_neg (by simp [warns])]
      exact .snoc .nil (.work (at_hushed at_n) (acts.hushed warns))
  | stop => exact .snoc .nil (p.hushed_stop ▸ .stop)
  | report => exact .snoc .nil (p.hushed_fireReports ▸ .report)
  | conclude finished => exact .snoc .nil (p.hushed_conclude ▸ .conclude (p.isOver_hushed.trans finished))
  | tick lt quiet le => exact .snoc .nil (.tick lt (quiet_hushed.mpr quiet) (p.dues_hushed ▸ le))
  | cancelParent => exact .snoc .nil .cancelParent
  | addHooks side hooks => exact .snoc .nil (.addHooks side hooks)
  | update change => exact .snoc .nil (.update change)
  | takeErrors => exact .snoc .nil .takeErrors
  | dropErrors => exact .snoc .nil .dropErrors
  | readErrors => exact .snoc .nil .readErrors

/-- A story of a pool becomes a story of the hushed pool once the warnings in it are struck out. -/
theorem Chronicle.hushed (h : p.Chronicle story q) :
    p.hushed.Chronicle (story.filterMap Occurrence.hushed) q.hushed := by
  induction h with
  | nil => exact .nil
  | @snoc _ occurrence _ _ _ occurs ih =>
    have told : [occurrence].filterMap Occurrence.hushed = occurrence.hushed.toList := by
      cases tells : occurrence.hushed <;> simp [tells]
    rw [List.filterMap_append, told]
    exact ih.trans occurs.hushed

/-- A worker may write the warnings that are due, of which nothing is seen in the hushed pool, until it is about to do
something else. -/
theorem exists_caught_up (at_n : p.crew[n]? = some seat) :
    ∃ story q seat', p.Chronicle story q ∧ story.filterMap Occurrence.hushed = [] ∧ q.hushed = p.hushed ∧
      q.crew[n]? = some seat' ∧ seat'.thread.isWarning = false := by
  obtain ⟨w, thread⟩ := seat
  cases thread with
  | waiting | exited => exact ⟨[], p, _, .nil, rfl, rfl, at_n, rfl⟩
  | ready code =>
    induction code generalizing p with
    | done | panic | wait => exact ⟨[], p, _, .nil, rfl, rfl, at_n, rfl⟩
    | ask request next ih =>
      cases warning : Request.isHookWarning request with
      | false => exact ⟨[], p, _, .nil, rfl, rfl, at_n, warning⟩
      | true =>
        have warns := Thread.Acts.ask (w := w) (s := p.shared) request next
        have warned : [(⟨p.shared.clock, .asked request (p.shared.answer (some w.id) request).1⟩ : Step C)].any
            (·.deed.isHookWarning) = true := by simpa [Deed.isHookWarning] using warning
        have still := hushed_withThread_of_still at_n (warns.still warned)
        obtain ⟨story, q, seat', chronicle, silent, same, at_n', ready⟩ :=
          ih (p.shared.answer (some w.id) request).1 (withThread_at_self at_n)
        refine ⟨_, q, seat', (Chronicle.snoc .nil (.work at_n warns)).trans chronicle, ?_, same.trans still,
          at_n', ready⟩
        rw [List.nil_append, List.singleton_append, List.filterMap_cons_none, silent]
        exact if_pos warned

/-- A worker of the pool that has caught up may take the step of its hushed twin. -/
theorem exists_unhushed_work {twin : Seat C} {thread : Thread C} {s : Shared C} {steps : List (Step C)}
    (at_n : p.hushed.crew[n]? = some twin) (acts : twin.thread.Acts twin.worker p.hushed.shared steps thread s) :
    ∃ story q, p.Chronicle story q ∧ q.hushed = p.hushed.withThread n twin thread s ∧
      story.filterMap Occurrence.hushed = [.work n steps] := by
  obtain ⟨first, at_first, _⟩ : ∃ first, p.crew[n]? = some first ∧ first.hushed = twin := by
    simpa [Pool.hushed] using at_n
  obtain ⟨story, q, later, chronicle, silent, same, at_later, ready⟩ := exists_caught_up at_first
  rw [← same] at at_n acts ⊢
  obtain rfl : later.hushed = twin := Option.some.inj ((at_hushed at_later).symm.trans at_n)
  obtain ⟨steps', thread', s', acts', rfl, rfl, others, rfl⟩ := Thread.Acts.exists_unhushed ready acts
  refine ⟨_, _, chronicle.snoc (.work at_later acts'), hushed_withThread .., ?_⟩
  rw [List.filterMap_append, silent, List.nil_append]
  have told : (Occurrence.work n steps').hushed = some (.work n (steps'.map Step.hushed)) :=
    if_neg (Bool.eq_false_iff.mp others)
  exact List.filterMap_cons_some told

/-- Whatever may happen to the hushed pool may happen to the pool, with warnings before it. -/
theorem Occurs.exists_unhushed {v : Pool C} (h : p.hushed.Occurs occurrence v) :
    ∃ story q, p.Chronicle story q ∧ q.hushed = v ∧ story.filterMap Occurrence.hushed = [occurrence] := by
  have one {q : Pool C} (occurs : p.Occurs occurrence q) (same : q.hushed = v)
      (plain : occurrence.hushed = some occurrence) :
      ∃ story q, p.Chronicle story q ∧ q.hushed = v ∧ story.filterMap Occurrence.hushed = [occurrence] :=
    ⟨[occurrence], q, .snoc .nil occurs, same, by simp [plain]⟩
  cases h with
  | start started =>
    rw [hushed_start] at started
    cases begun : p.start with
    | error => rw [begun] at started; cases started
    | ok q =>
      rw [begun] at started
      cases started
      exact one (.start begun) rfl rfl
  | refuse refused =>
    rw [hushed_start] at refused
    cases begun : p.start with
    | error =>
      rw [begun] at refused
      cases refused
      exact one (.refuse begun) rfl rfl
    | ok => rw [begun] at refused; cases refused
  | receiveError =>
    rw [hushed_receiveError] at one ⊢
    exact one .receiveError rfl rfl
  -- Warnings may stand before the step; nothing shows of them in the hushed pool.
  | work at_n acts => exact exists_unhushed_work at_n acts
  | stop => exact one .stop p.hushed_stop rfl
  | report => exact one .report p.hushed_fireReports rfl
  | conclude finished => exact one (.conclude (p.isOver_hushed.symm.trans finished)) p.hushed_conclude rfl
  | tick lt quiet le => exact one (.tick lt (quiet_hushed.mp quiet) (p.dues_hushed ▸ le)) rfl rfl
  | cancelParent => exact one .cancelParent rfl rfl
  | addHooks side hooks => exact one (.addHooks side hooks) rfl rfl
  | update change => exact one (.update change) rfl rfl
  | takeErrors => exact one .takeErrors rfl rfl
  | dropErrors => exact one .dropErrors rfl rfl
  | readErrors => exact one .readErrors rfl rfl

/-- Every story of a hushed pool comes from one of the pool: the warnings can be put back in. -/
theorem Chronicle.exists_unhushed {v : Pool C} (h : p.hushed.Chronicle story v) :
    ∃ story' q, p.Chronicle story' q ∧ q.hushed = v ∧ story'.filterMap Occurrence.hushed = story := by
  induction h with
  | nil => exact ⟨[], p, .nil, rfl, rfl⟩
  | @snoc story occurrence _ r before occurs ih =>
    obtain ⟨first, q, chronicle, rfl, told⟩ := ih
    obtain ⟨second, r', next, rfl, told'⟩ := occurs.exists_unhushed
    refine ⟨first ++ second, r', chronicle.trans next, rfl, ?_⟩
    rw [List.filterMap_append, told, told']

end Pool

end WorkerPool
