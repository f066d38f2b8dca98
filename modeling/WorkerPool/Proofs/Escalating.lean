import WorkerPool.Proofs.Chronicles
import WorkerPool.Proofs.Disposal
import WorkerPool.Proofs.Standing

/-!
# How requests to shut down reach the owner

A worker hands a request to shut the pool down over at most once, since it leaves then; so a channel that
has room for one entry of each worker is never full. As long as the reading end is not dropped, therefore,
everything that was handed over has been read or waits to be read, in the order in which it was handed
over, and once the run has returned a reader is told so when it has read all of it (`chronicle_escalates`).
-/

namespace WorkerPool

variable {C : Client} {T : Option Nat} {t : Nat}

/-! ## Handing over -/

/-- The request that a deed hands over, and whether the channel took it. -/
def Deed.handed? : Deed C → Option (PoolError × Bool)
  | .asked (.escalate error) taken => some (error, taken)
  | _ => none

/-- The requests that were handed over. -/
def handedOver (steps : List (Step C)) : List PoolError :=
  steps.filterMap fun step => step.deed.handed?.map (·.1)

@[simp] theorem handedOver_nil : handedOver ([] : List (Step C)) = [] := rfl

@[simp] theorem handedOver_append (first second : List (Step C)) :
    handedOver (first ++ second) = handedOver first ++ handedOver second :=
  List.filterMap_append

/-- A step hands over one request at most. -/
theorem handedOver_cons (step : Step C) (rest : List (Step C)) :
    handedOver (step :: rest) = (step.deed.handed?.map (·.1)).toList ++ handedOver rest := by
  unfold handedOver
  cases h : step.deed.handed? <;> simp [h]

@[simp] theorem handedOver_cons_waited (time : Nat) (heeds : Bool) (wake : Wake) (rest : List (Step C)) :
    handedOver (⟨time, .waited heeds wake⟩ :: rest) = handedOver rest := rfl

@[simp] theorem handedOver_cons_record (time : Nat) (metric : Metric) (answer : Unit) (rest : List (Step C)) :
    handedOver (⟨time, .asked (.record metric) answer⟩ :: rest) = handedOver rest := rfl

/-- The log hands nothing over. -/
@[simp] theorem handedOver_unlogged (steps : List (Step C)) : handedOver (unlogged steps) = handedOver steps := by
  induction steps with
  | nil => rfl
  | cons step rest ih =>
    obtain ⟨time, deed⟩ := step
    unfold unlogged at ih ⊢
    by_cases log : deed.isLog = true
    · have silent : deed.handed? = none := by
        cases deed with
        | waited => rfl
        | asked request => cases request <;> first | rfl | cases log
      simp [log, handedOver_cons, silent, ih]
    · simp [log, handedOver_cons, ih]

/-- What was handed over is as many requests as there were deeds that hand one over. -/
theorem length_handedOver (steps : List (Step C)) :
    (handedOver steps).length = steps.countP fun step => step.deed.handed?.isSome := by
  simp only [handedOver, List.length_filterMap_eq_countP, Option.isSome_map]

/-- The work leaves it to the loop to hand anything over. -/
theorem handedOver_of_follow {owed owed' : Option MetricKind} {steps : List (Step C)}
    (follows : Rule.follow bookkeeping owed steps = some owed') : handedOver steps = [] := by
  induction steps generalizing owed with
  | nil => rfl
  | cons step rest ih =>
    obtain ⟨between, allowed, later⟩ := Rule.exists_of_follow_cons follows
    rw [handedOver_cons, ih later]
    obtain ⟨time, deed⟩ := step
    cases deed with
    | waited => rfl
    | asked request => cases request <;> first | rfl | cases allowed

namespace Shift

/-- What a worker has to hand over after a call: the whole outcome, if what is beneath any wrapping asks for
the pool to be shut down. -/
def request? (shift : Shift C) : Option PoolError :=
  match shift.call.outcome with
  | .error e =>
    match e.innermost with
    | .poolShutdown _ => some e
    | _ => none
  | _ => none

/-- A worker hands over just what it has to hand over after a call. -/
theorem handedOver_handover (shift : Shift C) : handedOver shift.handover = shift.request?.toList := by
  unfold handover request? state
  cases shift.call.outcome with
  | ok => rfl
  | panic x => rfl
  | error e =>
    unfold Outcome.caught WorkerState.after WorkerState.afterError
    cases beneath : e.innermost <;> simp [beneath, handedOver_cons, Deed.handed?]

/-- Who has something to wait for has nothing to hand over. -/
theorem request?_eq_none {shift : Shift C} {schedule : PollSchedule} {delay : Duration}
    (interval : schedule.interval? shift.state = some delay) : shift.request? = none := by
  unfold request?
  unfold state at interval
  cases outcome : shift.call.outcome with
  | ok | panic x => rfl
  | error e =>
    rw [outcome] at interval
    cases beneath : e.innermost with
    | poolShutdown reason =>
      unfold Outcome.caught WorkerState.after WorkerState.afterError at interval
      simp [beneath, PollSchedule.interval?] at interval
    | _ => simp [beneath]

/-- To tell of a panic hands nothing over. -/
theorem handedOver_panicNote (id : String) (call : Stretch C Unit) : handedOver (panicNote id call) = [] := by
  unfold panicNote
  cases call.outcome <;> rfl

end Shift

namespace Worker

variable {w : Worker C} {shifts served : List (Shift C)} {it : Iteration C} {layers : List (Layer C)}

/-- Along the calls of a worker, all that is handed over is what it hands over after them, for within its work
nothing is. -/
theorem handedOver_stories (work : w.work = Layer.compose layers it.work)
    (isOf : ∀ shift ∈ shifts, shift.call.IsOf T (w.work w.id)) :
    handedOver (shifts.flatMap (·.story w.id)) = shifts.filterMap Shift.request? := by
  induction shifts with
  | nil => rfl
  | cons shift rest ih =>
    have run : (Layer.compose layers it.work w.id).Runs T _ shift.call.steps _ _ := work ▸ isOf shift (by simp)
    obtain ⟨owed, follows, _⟩ := (settles_compose layers).runs run
    rw [List.flatMap_cons, handedOver_append, ih fun other mem => isOf other (by simp [mem])]
    simp only [Shift.story, List.cons_append, handedOver_cons_waited, handedOver_append, handedOver_unlogged,
      handedOver_of_follow follows, shift.handedOver_handover, Shift.handedOver_panicNote, List.nil_append]
    cases asks : shift.request? <;> simp [asks]

/-- As long as there is something to wait for, nothing has been handed over. -/
theorem Row.no_request (row : w.Row T t shifts) {delay : Duration}
    (interval : w.schedule.interval? (standing shifts) = some delay) : shifts.filterMap Shift.request? = [] := by
  induction row generalizing delay with
  | nil => rfl
  | snoc _ earlier _ _ ih =>
    rw [standing_append] at interval
    simp [ih earlier, Shift.request?_eq_none interval]

/-- A worker has one request to hand over at most, since it leaves then. -/
theorem Row.request_le (row : w.Row T t shifts) : (shifts.filterMap Shift.request?).length ≤ 1 := by
  cases row with
  | nil => exact Nat.zero_le _
  | @snoc shifts shift _ row interval _ _ =>
    rw [List.filterMap_append, row.no_request interval]
    cases asks : shift.request? <;> simp [asks]

/-- Nothing is handed over on departure. -/
theorem handedOver_departure (state : WorkerState) (next : Option WorkerState) (time : Nat) :
    handedOver (w.departure state next time) = [] := by
  unfold departure
  split <;> rfl

/-- A worker has handed over what there was to hand over after its calls, unless it is about to. -/
theorem Stage.requests {history current late : List (Step C)} {code : Code C (Option WorkerState)}
    (work : w.work = Layer.compose layers it.work) (stage : w.Stage T t history code served current late) :
    (served.filterMap Shift.request?).length ≤ 1 ∧
      (handedOver history = served.filterMap Shift.request? ∨ code.isAsking = true ∧ handedOver history = []) := by
  cases stage with
  | between row did brief busy =>
    refine ⟨row.request_le, ?_⟩
    have all := congrArg handedOver did
    simp only [handedOver_append, handedOver_unlogged, greeting, handedOver_cons_record,
      handedOver_stories work row.isOf, handedOver_departure, List.append_nil] at all
    have le := row.request_le
    rw [← all, List.length_append] at le
    rcases busy with rfl | asking
    · exact .inl (by simpa using all)
    · cases before : handedOver history with
      | nil => exact .inr ⟨asking, rfl⟩
      | cons first rest =>
        rw [before, List.length_cons] at le
        have after : handedOver late = [] := List.length_eq_zero_iff.mp (by omega)
        rw [before, after, List.append_nil] at all
        exact .inl all
  | working row reaches pending did =>
    rw [work] at reaches
    obtain ⟨owed, follows, _⟩ := Program.Keeps.reaches (settles_compose layers) reaches
    refine ⟨row.request_le, .inl ?_⟩
    have all := congrArg handedOver did
    simpa [greeting, handedOver_stories work row.isOf, handedOver_of_follow follows] using all

end Worker

/-! ## The channel -/

/-- What the owner has read from the escalation channel. -/
def Occurrence.received : Occurrence C → List Escalation
  | readErrors entries => entries
  | receiveError (.entry entry) => [entry]
  | _ => []

namespace Pool

variable {plan : PoolPlan C} {p q : Pool C} {events : List (Nat × Step C)} {story : List (Occurrence C)}
  {n : Nat} {seat : Seat C}

/-- What the owner has read, in that order. -/
def received (story : List (Occurrence C)) : List Escalation :=
  story.flatMap Occurrence.received

/-- What the workers of a plan have handed over, in that order. -/
def sent (plan : PoolPlan C) (events : List (Nat × Step C)) : List Escalation :=
  events.filterMap fun event => event.2.deed.handed?.map fun handed =>
    { worker := (plan.worker (event.1 + 1)).id, error := handed.1 }

@[simp] theorem sent_append (first second : List (Nat × Step C)) :
    sent plan (first ++ second) = sent plan first ++ sent plan second :=
  List.filterMap_append

@[simp] theorem received_append (first second : List (Occurrence C)) :
    received (first ++ second) = received first ++ received second :=
  List.flatMap_append

@[simp] theorem received_singleton (occurrence : Occurrence C) : received [occurrence] = occurrence.received :=
  List.flatMap_singleton ..

/-- What is known of the requests of the worker with that number to shut the pool down, where `served` are the
calls of its work that are over. -/
structure Requests (p : Pool C) (events : List (Nat × Step C)) (n : Nat) (served : List (Shift C)) : Prop where
  stands : Stands p events n served
  once : (served.filterMap Shift.request?).length ≤ 1
  /-- The worker has handed over the outcome that asks for the pool to be shut down, if there was one, unless
  it is about to do so. -/
  handed : handedOver (history n events) = served.filterMap Shift.request? ∨
    handedOver (history n events) = [] ∧ ∃ seat, p.crew[n]? = some seat ∧ seat.thread.isAsking = true

/-- In every run, a worker has handed over what its calls gave it to hand over, up to a request that it is about
to hand over. -/
theorem runs_requests (b : PoolBuilder C) (state : C.State) (runs : (build b state).Runs events p)
    {served : List (Shift C)} (stands : Stands p events n served) : Requests p events n served := by
  cases at_n : p.crew[n]? with
  | none =>
    obtain rfl := stands.absent at_n
    refine ⟨stands, Nat.zero_le _, .inl ?_⟩
    rw [history_eq_nil_of_absent b state runs at_n]
    rfl
  | some seat =>
    obtain ⟨_, underway⟩ := exists_underway b state runs at_n
    obtain ⟨t, code, current, late, _, stage, asking⟩ := stands.seated seat at_n
    obtain ⟨once, handed⟩ := stage.requests (underway.work_eq at_n)
    exact ⟨stands, once, handed.imp_right fun ⟨asks, nothing⟩ => ⟨nothing, seat, at_n, asking ▸ asks⟩⟩

/-- A worker hands one request over at most, since it leaves with it. -/
theorem Requests.length_le {served : List (Shift C)} (h : Requests p events n served) :
    (handedOver (history n events)).length ≤ 1 := by
  rcases h.handed with all | ⟨none, _⟩
  · rw [all]
    exact h.once
  · rw [none]
    exact Nat.zero_le 1

/-- No more is handed over than there are workers. -/
theorem sent_le (b : PoolBuilder C) (state : C.State) (runs : (build b state).Runs events p) :
    (sent b.plan events).length ≤ b.plan.workers := by
  have count : (sent b.plan events).length =
      ∑ n ∈ Finset.range b.plan.workers, (handedOver (history n events)).length := by
    simp only [sent, List.length_filterMap_eq_countP, Option.isSome_map, length_handedOver]
    exact countP_eq_sum (fun step => step.deed.handed?.isSome) (runs.index_lt b state)
  rw [count]
  have each (n : Nat) : (handedOver (history n events)).length ≤ 1 := by
    obtain ⟨served, stands⟩ := runs_stands b state runs n
    exact (runs_requests b state runs stands).length_le
  refine Nat.le_trans (Finset.sum_le_sum fun n _ => each n) ?_
  simp

/-! ## What becomes of what was handed over -/

theorem channel_cancel (s : Shared C) (token : Token) : (s.cancel token).channel = s.channel := by
  cases token <;> rfl

theorem channel_stop (s : Shared C) (worker : Option String) : (s.stop worker).channel = s.channel := by
  unfold Shared.stop
  split <;> rfl

/-- Sending does nothing to the reading end. -/
theorem receiver_send (ch : Channel) (entry : Escalation) : (ch.send entry).2.receiver = ch.receiver := by
  unfold Channel.send
  split <;> rfl

/-- Only handing over puts anything on the channel. -/
theorem channel_answer (s : Shared C) (worker : Option String) (request : Request C) {answer : request.Answer}
    (other : (Deed.asked request answer).handed? = none) : (s.answer worker request).2.channel = s.channel := by
  cases request with
  | escalate => cases other
  | client request =>
    cases request with
    | cancel token => exact channel_cancel s token
    | stop => exact channel_stop s worker
    | update | note => rfl
  | now | enter | ended | log | record | registered | register | tally => rfl

/-- Nothing that running code asks for does anything to the reading end. -/
theorem receiver_answer (s : Shared C) (worker : Option String) (request : Request C) :
    (s.answer worker request).2.channel.receiver = s.channel.receiver := by
  cases hands : (Deed.asked request (s.answer worker request).1).handed? with
  | none => exact congrArg _ (channel_answer s worker request hands)
  | some handed =>
    cases request with
    | escalate error => exact receiver_send ..
    | _ => cases hands

/-- Who takes the receiver leaves the channel as it is otherwise. -/
theorem channel_take (ch : Channel) :
    ch.take.2.capacity = ch.capacity ∧ ch.take.2.closed = ch.closed ∧ ch.take.2.queue = ch.queue := by
  unfold Channel.take
  split <;> exact ⟨rfl, rfl, rfl⟩

/-- As long as nothing was dropped, everything that was handed over has been read or waits to be read, and
the channel took all of it. -/
structure Flows (plan : PoolPlan C) (p : Pool C) (story : List (Occurrence C)) : Prop where
  capacity_eq : p.shared.channel.capacity = plan.workers
  unclosed : p.shared.channel.closed = false
  flow : received story ++ p.shared.channel.queue = sent plan (eventsOf story)
  taken : ∀ event ∈ eventsOf story, ∀ handed ∈ event.2.deed.handed?, handed.2 = true

/-- What neither puts anything on the channel nor takes anything off it keeps it so. -/
theorem Flows.still {occurrence : Occurrence C} (h : Flows plan p story)
    (capacity : q.shared.channel.capacity = p.shared.channel.capacity)
    (closed : q.shared.channel.closed = p.shared.channel.closed)
    (queue : q.shared.channel.queue = p.shared.channel.queue) (unread : occurrence.received = [])
    (silent : ∀ event ∈ occurrence.events, event.2.deed.handed? = none) :
    Flows plan q (story ++ [occurrence]) := by
  have unsent : sent plan occurrence.events = [] := by
    rw [sent, List.filterMap_eq_nil_iff]
    intro event mem
    rw [silent event mem]
    rfl
  constructor
  case capacity_eq => exact capacity.trans h.capacity_eq
  case unclosed => exact closed.trans h.unclosed
  case flow => simp [unread, unsent, queue, h.flow]
  case taken =>
    intro event mem handed hands
    rw [eventsOf_append, eventsOf_singleton, List.mem_append] at mem
    rcases mem with mem | mem
    · exact h.taken event mem handed hands
    · rw [silent event mem] at hands
      cases hands

/-- What leaves the channel as it is, reads nothing and hands nothing over, lets everything flow as before. -/
theorem Flows.same {occurrence : Occurrence C} (h : p.shared.channel.receiver ≠ .dropped → Flows plan p story)
    (channel : q.shared.channel = p.shared.channel) (kept : q.shared.channel.receiver ≠ .dropped)
    (unread : occurrence.received = []) (silent : ∀ event ∈ occurrence.events, event.2.deed.handed? = none) :
    Flows plan q (story ++ [occurrence]) :=
  (h (channel ▸ kept)).still (congrArg _ channel) (congrArg _ channel) (congrArg _ channel) unread silent

/-- What a worker hands over is sent under its name. -/
theorem sent_escalate (n time : Nat) (error : PoolError) (taken : Bool) :
    sent plan (Occurrence.work n [⟨time, .asked (.escalate error) taken⟩]).events =
      [{ worker := (plan.worker (n + 1)).id, error }] := rfl

/-- A channel with room for an entry of each worker takes what is handed over. -/
theorem Flows.send (h : Flows plan p story) (worker : seat.worker = plan.worker (n + 1))
    (bound : (sent plan (eventsOf story)).length < plan.workers) (error : PoolError)
    {thread : Thread C} :
    let entry : Escalation := { worker := seat.worker.id, error }
    (p.shared.channel.send entry).1 = true ∧
      Flows plan (p.withThread n seat thread { p.shared with channel := (p.shared.channel.send entry).2 })
        (story ++ [.work n [⟨p.shared.clock, .asked (.escalate error) (p.shared.channel.send entry).1⟩]]) := by
  intro entry
  -- What is in the queue has been handed over, by fewer than there are workers, and so there is room.
  have queued : p.shared.channel.queue.length ≤ (sent plan (eventsOf story)).length := by
    rw [← h.flow, List.length_append]
    omega
  have accepts : p.shared.channel.accepts = true := by
    rw [Channel.accepts, h.unclosed, h.capacity_eq]
    simpa using Nat.lt_of_le_of_lt queued bound
  have sends : p.shared.channel.send entry =
      (true, { p.shared.channel with queue := p.shared.channel.queue ++ [entry] }) := by
    rw [Channel.send, if_pos accepts]
  rw [sends]
  refine ⟨rfl, h.capacity_eq, h.unclosed, ?_, ?_⟩
  · rw [received_append, eventsOf_append, eventsOf_singleton, sent_append, sent_escalate, ← h.flow]
    simp [Occurrence.received, withThread, entry, worker]
  · intro event mem handed hands
    rw [eventsOf_append, eventsOf_singleton, List.mem_append] at mem
    rcases mem with mem | mem
    · exact h.taken event mem handed hands
    · obtain rfl := List.mem_singleton.mp mem
      cases hands
      rfl

/-- Who takes one entry off the channel has received it. -/
theorem Flows.receiveError (h : p.shared.channel.receiver ≠ .dropped → Flows plan p story)
    (kept : p.receiveError.2.shared.channel.receiver ≠ .dropped) :
    Flows plan p.receiveError.2 (story ++ [.receiveError p.receiveError.1]) := by
  unfold Pool.receiveError Channel.receive at kept ⊢
  cases queue : p.shared.channel.queue with
  | nil =>
    rw [queue] at kept
    have unread : (.receiveError (if p.senders = 0 then .closed else .pending) : Occurrence C).received = [] := by
      split <;> rfl
    exact .same h rfl kept unread (List.forall_mem_nil _)
  | cons entry rest =>
    rw [queue] at kept
    have flows := h kept
    refine ⟨flows.capacity_eq, flows.unclosed, ?_, ?_⟩
    · simpa [Occurrence.received, Occurrence.events, queue] using flows.flow
    · simpa [Occurrence.events] using flows.taken

/-- Whatever a worker does lets everything flow: what it hands over comes last in the channel, which has room
for it. -/
theorem Flows.work {thread : Thread C} {s : Shared C} {steps : List (Step C)}
    (h : p.shared.channel.receiver ≠ .dropped → Flows plan p story) (worker : seat.worker = plan.worker (n + 1))
    (bound : (sent plan (eventsOf (story ++ [.work n steps]))).length ≤ plan.workers)
    (acts : seat.thread.Acts seat.worker p.shared steps thread s)
    (kept : s.channel.receiver ≠ .dropped) :
    Flows plan (p.withThread n seat thread s) (story ++ [.work n steps]) := by
  obtain ⟨w, thread⟩ := seat
  cases acts with
  | ask request next =>
    cases hands : (Deed.asked request (p.shared.answer (some w.id) request).1).handed? with
    | none =>
      exact .same h (channel_answer p.shared _ request hands) kept rfl (by simpa [Occurrence.events] using hands)
    | some handed =>
      cases request with
      | escalate error =>
        have flows := h fun dropped => kept ((receiver_send ..).trans dropped)
        refine (flows.send worker ?_ error).2
        rw [eventsOf_append, eventsOf_singleton, sent_append, List.length_append] at bound
        exact bound
      | _ => cases hands
  | skip | notice | elapse | wake => exact .same h rfl kept rfl (by simp [Occurrence.events, Deed.handed?])
  | sleep | proceed | leave | crash => exact .same h rfl kept rfl (List.forall_mem_nil _)

/-- Whatever occurs lets everything flow, as long as the reading end is not dropped. -/
theorem Flows.occurs (b : PoolBuilder C) (state : C.State) (before : (build b state).Chronicle story p)
    {occurrence : Occurrence C} (h : p.shared.channel.receiver ≠ .dropped → Flows b.plan p story)
    (occurs : p.Occurs occurrence q) (kept : q.shared.channel.receiver ≠ .dropped) :
    Flows b.plan q (story ++ [occurrence]) := by
  have bound := sent_le b state (before.snoc occurs).runs
  cases occurs with
  | start started =>
    obtain rfl := start_eq started
    have same : p.opened.channel = p.shared.channel := by
      rw [opened_eq]
      rfl
    exact .same h same kept rfl (List.forall_mem_nil _)
  | stop => exact .same h (channel_stop p.shared none) kept rfl (List.forall_mem_nil _)
  | refuse | cancelParent | addHooks | update | tick => exact .same h rfl kept rfl (List.forall_mem_nil _)
  | report =>
    have same : p.fireReports.shared.channel = p.shared.channel := by
      rw [fireReports_eq]
      rfl
    exact .same h same kept rfl (List.forall_mem_nil _)
  | conclude finished =>
    rw [Pool.conclude, if_pos finished] at kept ⊢
    have same : p.closed.channel = p.shared.channel := by
      rw [closed_eq]
      rfl
    exact .same h same kept rfl (List.forall_mem_nil _)
  | takeErrors =>
    -- Taking the reading end leaves it dropped if it was, so it was not.
    have before_kept : p.shared.channel.receiver ≠ .dropped := by
      intro dropped
      exact kept (by simp [Pool.takeErrors, Channel.take, dropped])
    obtain ⟨capacity, closed, queue⟩ := channel_take p.shared.channel
    exact (h before_kept).still capacity closed queue rfl (List.forall_mem_nil _)
  | dropErrors =>
    -- The pool drops its end only if nobody has taken it, and then it would be dropped now.
    have same : p.shared.channel.drop = p.shared.channel := by
      unfold Pool.dropErrors Channel.drop at kept
      unfold Channel.drop
      split
      · next taken => simp [taken] at kept
      · rfl
    exact .same h same kept rfl (List.forall_mem_nil _)
  | readErrors =>
    have flows := h kept
    refine ⟨flows.capacity_eq, flows.unclosed, ?_, ?_⟩
    · simpa [Occurrence.received, Occurrence.events, Pool.readErrors, Channel.drain] using flows.flow
    · simpa [Occurrence.events] using flows.taken
  | receiveError => exact .receiveError h kept
  | work at_n acts => exact .work h (runs_at b state before.runs at_n).2 bound acts kept

/-- In every story in which the reading end is not dropped, all that was handed over has been read or waits to
be read. -/
theorem chronicle_flows (b : PoolBuilder C) (state : C.State) (chronicle : (build b state).Chronicle story p)
    (kept : p.shared.channel.receiver ≠ .dropped) : Flows b.plan p story := by
  induction chronicle with
  | nil => exact ⟨rfl, rfl, rfl, List.forall_mem_nil _⟩
  | snoc before occurs ih => exact .occurs b state before ih occurs kept

/-! ## Reading on -/

/-- What a reader is told who reads that often from the escalation channel, and the pool then. -/
def receptions : Nat → Pool C → List Reception × Pool C
  | 0, p => ([], p)
  | times + 1, p =>
    let (first, p) := p.receiveError
    let (rest, p) := receptions times p
    (first :: rest, p)

/-- Once nobody can put anything on the channel, a reader is told everything that is there, and then that
there will be nothing more. -/
theorem receptions_of_closed (closed : p.senders = 0) (times : Nat) :
    (receptions (p.shared.channel.queue.length + times) p).1 =
      p.shared.channel.queue.map .entry ++ List.replicate times .closed := by
  generalize queue_eq : p.shared.channel.queue = queue
  induction queue generalizing p with
  | nil =>
    have reads : p.receiveError = (.closed, p) := by
      unfold receiveError Channel.receive
      rw [queue_eq]
      exact congrArg (·, p) (if_pos closed)
    simp only [List.length_nil, Nat.zero_add, List.map_nil, List.nil_append]
    induction times with
    | zero => rfl
    | succ times ih => simp only [receptions, reads, ih, List.replicate_succ]
  | cons entry rest ih =>
    have reads : p.receiveError =
        (.entry entry, { p with shared := { p.shared with channel := { p.shared.channel with queue := rest } } }) := by
      unfold receiveError Channel.receive
      rw [queue_eq]
    rw [List.length_cons, Nat.add_right_comm]
    simp only [receptions, reads, List.map_cons, List.cons_append]
    exact congrArg _ (ih closed rfl)

/-- When a run has returned, nobody is left who could hand anything over. -/
theorem Underway.senders_eq (h : Underway plan p events t) (returned : p.returned.isSome = true) :
    p.senders = 0 := by
  obtain ⟨⟨t', result⟩, returned_eq⟩ := Option.isSome_iff_exists.mp returned
  unfold senders
  rw [h.startedAt_eq]
  refine List.countP_eq_zero.mpr fun seat mem => ?_
  obtain ⟨n, at_n⟩ := List.mem_iff_getElem?.mp mem
  simp [((h.returned_at t' result returned_eq).all n seat at_n).1, Thread.isExited]

/-! ## Chronicles -/

/-- What is known of the requests to shut a pool down, where `served` are the calls of each worker's work that
are over. -/
structure Escalates (plan : PoolPlan C) (p : Pool C) (story : List (Occurrence C))
    (served : Nat → List (Shift C)) : Prop where
  requests : ∀ n < plan.workers, Requests p (eventsOf story) n (served n)
  /-- Everything that was handed over has been read or waits to be read, in the order in which it was handed
  over. -/
  flow : received story ++ p.shared.channel.queue = sent plan (eventsOf story)
  /-- The channel took all of it. -/
  taken : ∀ event ∈ eventsOf story, ∀ handed ∈ event.2.deed.handed?, handed.2 = true
  /-- To hand a request over changes the channel and the thread of the worker, and nothing else. -/
  spares : ∀ (n time : Nat) (error : PoolError) (answer : Bool) (q : Pool C),
    p.Occurs (.work n [⟨time, .asked (.escalate error) answer⟩]) q →
    ∃ seat thread, p.crew[n]? = some seat ∧
      q = p.withThread n seat thread { p.shared with channel := q.shared.channel }
  /-- When the run has returned, no request is left to be handed over, and a reader is told everything that is
  there and then that there will be nothing more. -/
  returned : p.returned.isSome = true →
    (∀ n < plan.workers, handedOver (history n (eventsOf story)) = (served n).filterMap Shift.request?) ∧
    ∀ times, (receptions (p.shared.channel.queue.length + times) p).1 =
      p.shared.channel.queue.map .entry ++ List.replicate times .closed

/-- Whatever happens to a pool, as long as the reading end of its escalation channel is not dropped, no
request to shut it down is lost. -/
theorem chronicle_escalates (b : PoolBuilder C) (state : C.State)
    (chronicle : (build b state).Chronicle story p) (kept : p.shared.channel.receiver ≠ .dropped) :
    ∃ served, Escalates b.plan p story served := by
  have flows := chronicle_flows b state chronicle kept
  choose served stands using runs_stands b state chronicle.runs
  have requests (n : Nat) := runs_requests b state chronicle.runs (stands n)
  refine ⟨served, ?_⟩
  constructor
  case requests => exact fun n _ => requests n
  case flow => exact flows.flow
  case taken => exact flows.taken
  case spares =>
    intro n time error answer q occurs
    generalize work_eq : Occurrence.work n [⟨time, .asked (.escalate error) answer⟩] = occurrence at occurs
    cases occurs with
    | @work m seat thread s steps at_n acts =>
      obtain ⟨w, before⟩ := seat
      cases work_eq
      cases acts with
      | ask request next => exact ⟨_, _, at_n, rfl⟩
    | _ => cases work_eq
  case returned =>
    intro returned
    rcases runs_follows b state chronicle.runs with before | ⟨t, underway⟩
    · rw [before.returned_eq] at returned
      cases returned
    refine ⟨fun n _ => ?_, receptions_of_closed (underway.senders_eq returned)⟩
    -- After the run has returned nobody is about to hand anything over.
    rcases (requests n).handed with all | ⟨_, seat, at_n, asking⟩
    · exact all
    · obtain ⟨⟨t', result⟩, returned_eq⟩ := Option.isSome_iff_exists.mp returned
      rw [((underway.returned_at t' result returned_eq).all n seat at_n).1] at asking
      cases asking

/-- Asks for the pool to be shut down whenever it is asked for a task. -/
def weary : Processor .bare :=
  { hasty with checkout := fun _ => .done (.error (.poolShutdown "weary")) }

/-- A pool of two workers, each of which asks for it to be shut down. -/
def worn : PoolBuilder .bare :=
  { lonely with processor := weary, workers := 2 }

/-- A run in which both workers hand a request over, of which nothing has been read when it has returned. -/
theorem chronicle_escalates_of_two :
    ∃ story p served, (build worn ()).Chronicle story p ∧ p.shared.channel.receiver ≠ .dropped ∧
      p.returned.isSome = true ∧ p.shared.channel.queue.map (·.worker) = ["lonely-worker-1", "lonely-worker-2"] ∧
      Escalates worn.plan p story served := by
  obtain ⟨events, runs⟩ := runs_perform worn () [.start, .advance 10]
  obtain ⟨story, _, chronicle⟩ := runs.exists_chronicle
  have kept : ((build worn ()).perform [.start, .advance 10]).shared.channel.receiver ≠ .dropped := by
    decide +kernel
  obtain ⟨served, escalates⟩ := chronicle_escalates worn () chronicle kept
  exact ⟨story, _, served, chronicle, kept, by decide +kernel, by decide +kernel, escalates⟩

end Pool

end WorkerPool
