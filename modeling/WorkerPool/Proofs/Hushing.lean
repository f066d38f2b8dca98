import WorkerPool.Pool.Plan
import WorkerPool.Proofs.Standing

/-!
# Hooks that never fail

A hook that returns an error is warned about, and nothing else comes of it. To say so, what a pool runs is
compared with what it would run if its hooks were `hushed`: they do what they do and panic where they panic,
but where they would return an error they return nothing. Code is hushed by striking the warnings from it and
by having it say of a hook that failed that it ended well (`Program.hushed`), which goes along with every
way of putting code together. The main fact is that the iterations of a pool whose hooks are hushed are the
hushed iterations of the pool (`Iteration.hushed_work`): no branch hangs on what a hook returns.
-/

namespace WorkerPool

variable {C : Client} {α β : Type}

/-! ## What is hushed -/

/-- The text of the warning about a hook of one side that failed. -/
def HookSide.warning : HookSide → String
  | pre => "Pre-process hook failed"
  | post => "Post-process hook failed"

/-- Whether a line warns about a hook that failed. -/
def LogLine.isHookWarning (line : LogLine) : Bool :=
  line.level = .warn && (line.text = HookSide.pre.warning || line.text = HookSide.post.warning)

/-- How a hook ended, an error passed over. -/
def Outcome.hushed : Outcome Unit → Outcome Unit
  | .error _ => .ok ()
  | outcome => outcome

/-- How a call ended, with the errors of hooks passed over. -/
def Ending.hushed : Ending C → Ending C
  | .preHook outcome => .preHook outcome.hushed
  | .postHook outcome => .postHook outcome.hushed
  | ending => ending

/-- What a hook does, without an error in the end. -/
def HookReply.hushed (reply : HookReply C) : HookReply C :=
  { reply with outcome := reply.outcome.hushed }

/-- A processor with the same code, none of whose hooks returns an error. -/
def Processor.hushed (P : Processor C) : Processor C :=
  { P with
    preHook := fun hook worker task state => (P.preHook hook worker task state).hushed
    postHook := fun hook worker task error state => (P.postHook hook worker task error state).hushed }

/-- Whether a hook leaves the same behind and does the same in two cases, and panics in both if it does in one.
What it returns may be different. -/
structure HookReply.Alike (reply other : HookReply C) : Prop where
  state : other.state = reply.state
  steps : other.steps = reply.steps
  panic : other.outcome.panic? = reply.outcome.panic?

/-- Whether two processors are the same but for what their hooks return where they do not panic. -/
structure Processor.Alike (P Q : Processor C) : Prop where
  taskId : Q.taskId = P.taskId
  checkout : Q.checkout = P.checkout
  process : Q.process = P.process
  complete : Q.complete = P.complete
  fail : Q.fail = P.fail
  preHook (hook : C.Hook) (worker : String) (task : C.Task) (state : C.State) :
    (P.preHook hook worker task state).Alike (Q.preHook hook worker task state)
  postHook (hook : C.Hook) (worker : String) (task : C.Task) (error : Option PoolError) (state : C.State) :
    (P.postHook hook worker task error state).Alike (Q.postHook hook worker task error state)

/-- Outcomes with the same panic, or both without one, are the same to who passes errors over. -/
theorem Outcome.hushed_eq_of_panic {outcome other : Outcome Unit} (same : other.panic? = outcome.panic?) :
    outcome.hushed = other.hushed := by
  cases outcome <;> cases other <;> cases same <;> rfl

/-- What two hooks do that are alike is the same to who passes errors over. -/
theorem HookReply.Alike.hushed_eq {reply other : HookReply C} (alike : reply.Alike other) :
    reply.hushed = other.hushed := by
  rw [hushed, hushed, alike.state, alike.steps, Outcome.hushed_eq_of_panic alike.panic]

/-- Processors that differ in what their hooks return are the same when the hooks are hushed. -/
theorem Processor.Alike.hushed_eq {P Q : Processor C} (alike : P.Alike Q) : P.hushed = Q.hushed := by
  unfold hushed
  congr 1
  · exact alike.taskId.symm
  · exact alike.checkout.symm
  · exact alike.process.symm
  · exact alike.complete.symm
  · exact alike.fail.symm
  · funext hook worker task state
    exact (alike.preHook hook worker task state).hushed_eq
  · funext hook worker task error state
    exact (alike.postHook hook worker task error state).hushed_eq

/-- The iteration of a processor none of whose hooks returns an error. -/
def Iteration.hushed (it : Iteration C) : Iteration C :=
  { it with processor := it.processor.hushed }

/-- The code that stands for a request in hushed code. -/
def Request.hushed : (request : Request C) → Code C request.Answer
  | .log line => if line.isHookWarning then .done () else .ask (I := C.poolInterface) (.log line) .done
  | .ended ending => .ask (I := C.poolInterface) (.ended ending.hushed) .done
  | request => .ask (I := C.poolInterface) request .done

/-- Code without the warnings about hooks, and without word of their errors. -/
def Program.hushed (code : Code C α) : Code C α :=
  code.interpret Request.hushed

/-! ## Ways of putting code together -/

namespace Program

@[simp] theorem hushed_pure (value : α) : (pure value : Code C α).hushed = pure value := rfl

/-- Hushing goes along with sequences. -/
@[simp] theorem hushed_bind (p : Code C α) (f : α → Code C β) :
    (p >>= f).hushed = p.hushed >>= fun value => (f value).hushed :=
  interpret_bind (I := C.poolInterface) (J := C.poolInterface) Request.hushed p f

@[simp] theorem hushed_map (f : α → β) (p : Code C α) : (f <$> p).hushed = f <$> p.hushed :=
  hushed_bind p (pure ∘ f)

@[simp] theorem hushed_sleepUnlessCancelled (ms : Nat) :
    (sleepUnlessCancelled ms : Code C Wake).hushed = sleepUnlessCancelled ms := rfl

@[simp] theorem hushed_ofOutcome (outcome : Outcome α) :
    (ofOutcome outcome : Code C (PoolResult α)).hushed = ofOutcome outcome := by
  cases outcome <;> rfl

/-- Where a panic is caught there is nothing more to hush. -/
@[simp] theorem hushed_guarded (p : Code C (PoolResult α)) : p.guarded.hushed = p.hushed.guarded := by
  unfold hushed
  induction p with
  | done result => cases result <;> rfl
  | panic => rfl
  | ask request next ih =>
    cases request with
    | log line =>
      simp only [guarded, interpret, Request.hushed]
      split
      · exact ih ()
      · exact congrArg (ask (I := C.poolInterface) (.log line)) (funext ih)
    | _ => exact congrArg (ask (I := C.poolInterface) _) (funext ih)
  | wait ms heeds next ih => exact congrArg (wait ms heeds) (funext ih)

end Program

namespace Code

/-- Client code warns about no hooks. -/
@[simp] theorem hushed_act (code : Act C α) : (act code).hushed = act code := by
  unfold act
  induction code with
  | done | panic => rfl
  | ask request next ih => exact congrArg (Program.ask (I := C.poolInterface) (.client request)) (funext ih)
  | wait ms heeds next ih => exact congrArg (Program.wait ms heeds) (funext ih)

@[simp] theorem hushed_now : (now : Code C Nat).hushed = now := rfl

@[simp] theorem hushed_enter (call : Call C) : (enter call).hushed = enter call := rfl

@[simp] theorem hushed_record (metric : Metric) : (record metric : Code C Unit).hushed = record metric := rfl

@[simp] theorem hushed_escalate (error : PoolError) : (escalate error : Code C Bool).hushed = escalate error := rfl

/-- Every other line stays. -/
theorem hushed_log {level : LogLevel} {text : String} {fields : List (String × LogValue)}
    (other : ({ level, text, fields } : LogLine).isHookWarning = false) :
    (log level text fields : Code C Unit).hushed = log level text fields := by
  have kept : (Request.log { level, text, fields } : Request C).hushed =
      .ask (I := C.poolInterface) (.log { level, text, fields }) .done := if_neg (by simp [other])
  exact congrArg (Program.bind · .done) kept

/-- Lines of other levels than that of a warning stay. -/
theorem hushed_log_of_level {level : LogLevel} {text : String} {fields : List (String × LogValue)}
    (other : level ≠ .warn) : (log level text fields : Code C Unit).hushed = log level text fields :=
  hushed_log (by simp [LogLine.isHookWarning, other])

/-- A call is hushed inside, and in what it says of how the client's code ended. -/
theorem hushed_call (ending : Outcome α → Ending C) (code : Code C (PoolResult α)) :
    (call ending code).hushed = call (fun outcome => (ending outcome).hushed) code.hushed := by
  simp only [call, Program.hushed_bind, Program.hushed_guarded, Program.hushed_ofOutcome]
  rfl

end Code

/-! ## Hooks -/

section

variable (reply : C.State → HookReply C) (ended : Outcome Unit → Ending C)

/-- What a hook does never panics; only the hook itself may. -/
theorem HookStep.guarded_codeOf (steps : List (HookStep C)) (outcome : Outcome Unit) :
    Program.guarded (do HookStep.codeOf steps; .ofOutcome outcome) = do
      HookStep.codeOf steps
      return outcome := by
  induction steps with
  | nil => exact Program.guarded_ofOutcome outcome
  | cons step rest ih => cases step <;> exact congrArg (Program.ask (I := C.poolInterface) _) (funext fun _ => ih)

/-- What a hook asks for in its one step is never a warning. -/
theorem HookStep.hushed_codeOf (steps : List (HookStep C)) :
    (HookStep.codeOf steps).hushed = HookStep.codeOf steps := by
  induction steps with
  | nil => rfl
  | cons step rest ih => cases step <;> exact congrArg (Program.ask (I := C.poolInterface) _) (funext fun _ => ih)

/-- What the call of a hook comes to that other code follows. -/
theorem call_runHook_bind (f : PoolResult Unit → Code C α) :
    (Code.call ended (runHook reply) >>= f) =
      .ask (I := C.poolInterface) (.client (.update fun state => (reply state).state)) fun state => (do
        HookStep.codeOf (reply state).steps
        Code.ended (ended (reply state).outcome)
        f (← Program.ofOutcome (reply state).outcome)) := by
  refine congrArg (Program.ask (I := C.poolInterface) _) (funext fun state => ?_)
  have called : (Program.guarded (do HookStep.codeOf (reply state).steps; .ofOutcome (reply state).outcome) >>=
      fun outcome => (do Code.ended (ended outcome); .ofOutcome outcome)) >>= f =
        (do
          HookStep.codeOf (reply state).steps
          Code.ended (ended (reply state).outcome)
          f (← Program.ofOutcome (reply state).outcome)) := by
    rw [HookStep.guarded_codeOf]
    simp only [bind_assoc, pure_bind]
  exact called

variable {ended}

/-- The call of a hook is the call of the hushed hook, hushed, if what follows an error is, hushed, what follows
where there is none. -/
theorem hushed_call_runHook_bind {f g : PoolResult Unit → Code C α}
    (ends : ∀ outcome, (ended outcome).hushed = ended outcome.hushed)
    (follows : ∀ result, (f result).hushed = g (.ok ())) :
    (Code.call ended (runHook reply) >>= f).hushed =
      Code.call ended (runHook fun state => (reply state).hushed) >>= g := by
  rw [call_runHook_bind, call_runHook_bind]
  refine congrArg (Program.ask (I := C.poolInterface) _) (funext fun state => ?_)
  have said (outcome : Outcome Unit) : (Code.ended (ended outcome)).hushed = Code.ended (ended outcome.hushed) :=
    congrArg Code.ended (ends outcome)
  refine (Program.hushed_bind _ _).trans ?_
  simp only [HookStep.hushed_codeOf, Program.hushed_bind, said, Program.hushed_ofOutcome, HookReply.hushed]
  cases (reply state).outcome with
  | ok value => exact bind_congr fun _ => bind_congr fun _ => follows (.ok value)
  | error e => exact bind_congr fun _ => bind_congr fun _ => follows (.error e)
  | panic x => rfl

/-- Of a warning about a hook nothing is left. -/
theorem hushed_warnHookFailed (side : HookSide) (worker taskId : String) (index : Nat) (error : PoolError) :
    (warnHookFailed side.warning worker taskId index error : Code C Unit).hushed = pure () := by
  cases side <;> rfl

/-- A pass over hooks, hushed, is the pass over the same hooks if they are hushed. -/
theorem hushed_runHooksFrom (side : HookSide) (worker taskId : String) (made : C.Hook → Call C)
    (reply : C.Hook → C.State → HookReply C) (ends : ∀ outcome, (ended outcome).hushed = ended outcome.hushed)
    (index : Nat) (hooks : List C.Hook) :
    (runHooksFrom side.warning worker taskId made ended reply index hooks).hushed =
      runHooksFrom side.warning worker taskId made ended (fun hook state => (reply hook state).hushed) index hooks := by
  induction hooks generalizing index with
  | nil => rfl
  | cons hook rest ih =>
    rw [runHooksFrom, runHooksFrom, Program.hushed_bind]
    refine bind_congr fun _ => ?_
    refine hushed_call_runHook_bind (reply hook) ends fun result => ?_
    cases result with
    | ok => exact ih (index + 1)
    | error e => rw [Program.hushed_bind, hushed_warnHookFailed, pure_bind, ih]

end

namespace Processor

variable (P : Processor C) (worker : String) (task : C.Task)

/-- The pass before a task, hushed, is that of hushed hooks. -/
theorem hushed_runPre : (P.runPre worker task).hushed = P.hushed.runPre worker task :=
  bind_congr (x := Code.registered .pre) fun hooks =>
    hushed_runHooksFrom .pre worker (P.taskId task) _ (P.preHook · worker task) (fun _ => rfl) 0 hooks

/-- The pass after a task, hushed, is that of hushed hooks. -/
theorem hushed_runPost (error : Option PoolError) :
    (P.runPost worker task error).hushed = P.hushed.runPost worker task error :=
  bind_congr (x := Code.registered .post) fun hooks =>
    hushed_runHooksFrom .post worker (P.taskId task) _ (P.postHook · worker task error) (fun _ => rfl) 0 hooks

end Processor

/-! ## Iterations -/

/-- Retries are hushed attempt by attempt. -/
theorem RetryPolicy.hushed_runFrom (policy : RetryPolicy) {operation operation' : Nat → Code C (PoolResult α)}
    (same : ∀ n, (operation n).hushed = operation' n) (attempt left : Nat) :
    (policy.runFrom operation attempt left).hushed = policy.runFrom operation' attempt left := by
  unfold runFrom
  rw [Program.hushed_bind, same]
  refine bind_congr fun result => ?_
  cases result with
  | ok value => dsimp only; split <;> simp [Code.hushed_log_of_level]
  | error e =>
    cases left with
    | zero => dsimp only; split <;> simp [Code.hushed_log_of_level]
    | succ left =>
      have later := policy.hushed_runFrom same (attempt + 1) left
      simp (disch := decide) only [Program.hushed_bind, Code.hushed_log_of_level, Program.hushed_sleepUnlessCancelled]
      refine bind_congr fun _ => bind_congr fun _ => bind_congr fun wake => ?_
      cases wake with
      | cancelled => rfl
      | elapsed => simp [later]

namespace Iteration

variable (it : Iteration C) (worker : String) (task : C.Task)

/-- An attempt has no hooks, and stays as it is but for the name of the processor. -/
theorem hushed_attempt : (it.attempt task).hushed = it.hushed.attempt task := by
  simp only [attempt, Program.hushed_bind, Code.hushed_enter, Code.hushed_call, Code.hushed_act]
  rfl

/-- Processing, hushed, is processing with hushed hooks: the error of the attempts is handed on whatever the
hooks return. -/
theorem hushed_processWithHooks :
    (it.processWithHooks worker task).hushed = it.hushed.processWithHooks worker task := by
  have retried : (it.retry.run fun _ => it.attempt task).hushed = it.hushed.retry.run fun _ => it.hushed.attempt task :=
    it.retry.hushed_runFrom (fun _ => it.hushed_attempt task) _ _
  unfold processWithHooks
  simp only [Program.hushed_bind, Processor.hushed_runPre, retried]
  refine bind_congr fun _ => bind_congr fun result => ?_
  cases result with
  | ok done => simp [Processor.hushed_runPost, hushed]
  | error e => simp [Processor.hushed_runPost, hushed]

/-- The same goes for processing within its boundary. -/
theorem hushed_processGuarded : (it.processGuarded worker task).hushed = it.hushed.processGuarded worker task := by
  unfold processGuarded
  simp only [Program.hushed_bind, Program.hushed_guarded, hushed_processWithHooks]
  refine bind_congr fun outcome => ?_
  cases outcome with
  | ok | error => rfl
  | panic x => simp [Code.hushed_log_of_level]; rfl

/-- Completing a task has no hooks. -/
theorem hushed_completeTask (taskId : String) (done : C.Task) (duration : Duration) :
    (it.completeTask worker taskId done duration).hushed = it.hushed.completeTask worker taskId done duration := by
  unfold completeTask
  simp only [Program.hushed_bind, Code.hushed_enter, Code.hushed_call, Code.hushed_act, Code.hushed_record]
  refine bind_congr fun _ => bind_congr fun result => bind_congr fun _ => ?_
  cases result with
  | ok => simp [Code.hushed_log_of_level]
  | error e => rfl

/-- Failing a task has no hooks. -/
theorem hushed_failTask (taskId : String) (error : PoolError) (duration : Duration) :
    (it.failTask worker taskId task error duration).hushed = it.hushed.failTask worker taskId task error duration := by
  unfold failTask
  simp only [Program.hushed_bind, Code.hushed_enter, Code.hushed_call, Code.hushed_act]
  refine bind_congr fun _ => bind_congr fun result => ?_
  cases result with
  | ok | error => rfl

/-- The work on a task, hushed, is that with hushed hooks. -/
theorem hushed_workOn : (it.workOn worker task).hushed = it.hushed.workOn worker task := by
  unfold workOn
  simp (disch := decide) only [Program.hushed_bind, Code.hushed_record, Code.hushed_log_of_level, Code.hushed_now,
    hushed_processGuarded]
  refine bind_congr fun _ => bind_congr fun _ => bind_congr fun started => bind_congr fun processed =>
    bind_congr fun resumed => ?_
  cases processed with
  | ok done => exact it.hushed_completeTask ..
  | error e => exact it.hushed_failTask ..

/-- An iteration of hushed hooks is the iteration, hushed. -/
theorem hushed_work : (it.work worker).hushed = it.hushed.work worker := by
  unfold work
  simp only [Program.hushed_bind, Code.hushed_call, Code.hushed_act, Code.hushed_enter]
  refine bind_congr fun result => bind_congr fun _ => ?_
  cases result with
  | ok task => exact it.hushed_workOn worker task
  | error e => dsimp only; split <;> rfl

end Iteration

/-! ## Layers -/

/-- A limit on failures looks at results alone, and its line about too many of them is no warning about a hook. -/
theorem ErrorLimit.hushed_observe (limit : ErrorLimit) (worker : String) (result : PoolResult Unit) :
    (limit.observe worker result : Code C (PoolResult Unit)).hushed = limit.observe worker result := by
  cases result with
  | ok => rfl
  | error e =>
    unfold observe
    dsimp only
    split
    · refine (Program.hushed_bind _ _).trans (bind_congr fun count => ?_)
      split <;> rfl
    · rfl

namespace Layer

/-- A layer of the client's own is hushed in what it surrounds; its own code cannot write to the log. -/
theorem hushed_around (code : LayerAct C) (inner : Code C (PoolResult Unit)) :
    (around code inner).hushed = around code inner.hushed := by
  unfold around
  induction code with
  | done | panic => rfl
  | ask request next ih =>
    cases request with
    | client request => exact congrArg (Program.ask (I := C.poolInterface) (.client request)) (funext ih)
    | inner => exact (Program.hushed_bind inner _).trans (bind_congr ih)
  | wait ms heeds next ih => exact congrArg (Program.wait ms heeds) (funext ih)

/-- Any layer is hushed in what it surrounds. -/
theorem hushed_wrap (layer : Layer C) (next : Work C) (worker : String) :
    (layer.wrap next worker).hushed = layer.wrap (fun worker => (next worker).hushed) worker := by
  cases layer with
  | client code => exact hushed_around (code worker) (next worker)
  | errorLimit limit =>
    exact (Program.hushed_bind (next worker) _).trans (bind_congr fun result => limit.hushed_observe worker result)

/-- No layer sees what hooks return. -/
theorem hushed_compose (layers : List (Layer C)) (base : Work C) (worker : String) :
    (compose layers base worker).hushed = compose layers (fun worker => (base worker).hushed) worker := by
  induction layers generalizing worker with
  | nil => rfl
  | cons layer rest ih => exact (layer.hushed_wrap ..).trans (congrArg (layer.wrap · worker) (funext ih))

end Layer

/-! ## Workers -/

/-- A worker whose work is hushed. -/
def Worker.hushed (w : Worker C) : Worker C :=
  { w with work := fun worker => (w.work worker).hushed }

namespace Worker

variable (w : Worker C)

@[simp] theorem hushed_id : w.hushed.id = w.id := rfl

/-- What a worker says of a panic of its work is no warning about a hook. -/
theorem hushed_contain (outcome : Outcome Unit) : (w.contain outcome).hushed = w.contain outcome := by
  cases outcome with
  | ok | error => rfl
  | panic x => simp [contain, Code.hushed_log_of_level]

/-- What a worker says of a request that could not be handed over is no warning about a hook. -/
theorem hushed_escalate (error : PoolError) : (w.escalate error).hushed = w.escalate error := by
  refine (Program.hushed_bind _ _).trans (bind_congr fun taken => ?_)
  cases taken <;> rfl

/-- How a worker reacts to an error does not change. -/
theorem hushed_react (next : WorkerState) (error : PoolError) : (w.react next error).hushed = w.react next error := by
  cases next with
  | shuttingDown => simp [react, Code.hushed_log_of_level, hushed_escalate]
  | terminated => exact Code.hushed_log_of_level (by decide)
  | active | idle =>
    dsimp only [react]
    split
    · rfl
    · exact Code.hushed_log_of_level (by decide)

/-- How it goes on after a result does not change. -/
theorem hushed_follow (state : WorkerState) (result : PoolResult Unit) :
    (w.follow state result).hushed = w.follow state result := by
  cases result with
  | ok =>
    dsimp only [follow]
    split <;> simp [Code.hushed_log_of_level]
  | error e =>
    dsimp only [follow]
    rw [Program.hushed_bind, hushed_react]
    refine bind_congr fun _ => ?_
    split <;> simp [Code.hushed_log_of_level]

/-- Nor does all that comes after a call of its work. -/
theorem hushed_aftermath (state : WorkerState) (outcome : Outcome Unit) :
    (w.aftermath state outcome).hushed = w.aftermath state outcome := by
  simp [aftermath, hushed_contain, hushed_follow]

theorem hushed_opening : w.opening.hushed = w.opening := by
  simp [opening, Code.hushed_log_of_level]

theorem hushed_closing : w.closing.hushed = w.closing := by
  simp [closing, Code.hushed_log_of_level]

/-- Waking up, hushed, is waking up to hushed work. -/
theorem hushed_wakeUp (state : WorkerState) (wake : Wake) :
    (w.wakeUp state wake).hushed = w.hushed.wakeUp state wake := by
  cases wake with
  | cancelled =>
    simp (disch := decide) only [wakeUp, Program.hushed_bind, Code.hushed_log_of_level, hushed_closing]
    rfl
  | elapsed =>
    rw [wakeUp_elapsed, wakeUp_elapsed, Program.hushed_bind, Program.hushed_guarded]
    exact bind_congr fun outcome => w.hushed_aftermath state outcome

/-- A segment of a loop, hushed, is one with hushed work. -/
theorem hushed_segment (state : WorkerState) : (w.segment state).hushed = w.hushed.segment state := by
  cases interval : w.schedule.interval? state with
  | none =>
    rw [segment_of_over interval, segment_of_over (w := w.hushed) interval, Program.hushed_bind, hushed_closing]
    rfl
  | some delay =>
    rw [segment_of_interval interval, segment_of_interval (w := w.hushed) interval]
    exact congrArg (Program.wait _ _) (funext fun wake => w.hushed_wakeUp state wake)

/-- So is the start of a loop. -/
theorem hushed_start : w.start.hushed = w.hushed.start := by
  simp only [start, Program.hushed_bind, hushed_opening, hushed_segment]
  rfl

end Worker

/-! ## Plans -/

/-- The plan with hushed hooks. -/
def PoolPlan.hushed (plan : PoolPlan C) : PoolPlan C :=
  { plan with iteration := plan.iteration.hushed }

/-- The workers of a pool with hushed hooks are the hushed workers of the pool. -/
theorem PoolPlan.hushed_worker (plan : PoolPlan C) (n : Nat) : (plan.worker n).hushed = plan.hushed.worker n := by
  have work : (fun worker => (plan.work worker).hushed) = plan.hushed.work := by
    funext worker
    simp only [PoolPlan.work, Layer.hushed_compose, Iteration.hushed_work]
    rfl
  exact congrArg (Worker.mk _ _) work

end WorkerPool
