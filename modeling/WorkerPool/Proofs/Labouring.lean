import WorkerPool.Iteration
import WorkerPool.Proofs.Rules

/-!
# What an iteration does

An iteration calls client code, waits for it and between attempts, and says in the journal, to the log and to the
collector what becomes of it. The counts of error limits and the escalation channel are none of its business: they are
left to the layers around it and to the loop of the worker (`labours_work`).
-/

namespace WorkerPool

variable {C : Client} {α : Type}

/-- Whether a deed is one that may be done in an iteration. -/
def Deed.isLabour : Deed C → Bool
  | .asked (.tally _ _ _) _ | .asked (.escalate _) _ => false
  | _ => true

/-- Whether code does nothing else. -/
def Program.Labours (code : Code C α) : Prop :=
  code.Shuns fun deed => !deed.isLabour

variable {worker : String} {task : C.Task} {it : Iteration C}

/-! ## Single requests -/

theorem labours_log {level : LogLevel} {text : String} {fields : List (String × LogValue)} :
    (Code.log level text fields : Code C Unit).Labours :=
  .ask (fun _ => rfl) fun _ => .pure _

theorem labours_record (metric : Metric) : (Code.record metric : Code C Unit).Labours :=
  .ask (fun _ => rfl) fun _ => .pure _

theorem labours_enter (call : Call C) : (Code.enter call).Labours :=
  .ask (fun _ => rfl) fun _ => .pure _

/-- A call of the client's code stays within the work, for that code cannot ask for what is reserved. -/
theorem labours_call {ending : Outcome α → Ending C} (code : Act C α) :
    (Code.call ending (Code.act code)).Labours :=
  Code.shuns_call (.act (fun _ _ => rfl) (fun _ _ => rfl) code) fun _ => rfl

/-! ## Hooks -/

/-- What hooks ask for is within the work. -/
theorem labours_codeOf (list : List (HookStep C)) : (HookStep.codeOf list).Labours := by
  induction list with
  | nil => exact .pure _
  | cons step rest ih =>
    have one : step.code.Labours := by
      cases step <;> exact .ask (fun _ => rfl) fun _ => .pure _
    exact one.bind fun _ => ih

/-- So are all hooks of a pass, with the warnings between them. -/
theorem labours_runHooksFrom {text taskId : String} {made : C.Hook → Call C} {ended : Outcome Unit → Ending C}
    {reply : C.Hook → C.State → HookReply C} (index : Nat) (hooks : List C.Hook) :
    (runHooksFrom text worker taskId made ended reply index hooks).Labours := by
  induction hooks generalizing index with
  | nil => exact .pure _
  | cons hook rest ih =>
    have hook_code : (runHook (reply hook)).Labours :=
      .ask (fun _ => rfl) fun state => (labours_codeOf (reply hook state).steps).bind fun _ => .ofOutcome _
    refine (labours_enter _).bind fun _ => (Code.shuns_call hook_code fun _ => rfl).bind fun result => ?_
    cases result with
    | ok => exact ih (index + 1)
    | error e => exact labours_log.bind fun _ => ih (index + 1)

/-- The pass before a task stays within the work. -/
theorem labours_runPre (P : Processor C) : (P.runPre worker task).Labours :=
  .ask (fun _ => rfl) fun hooks => labours_runHooksFrom 0 hooks

theorem labours_runPost (P : Processor C) (error : Option PoolError) :
    (P.runPost worker task error).Labours :=
  .ask (fun _ => rfl) fun hooks => labours_runHooksFrom 0 hooks

/-! ## Attempts -/

/-- An attempt stays within the work. -/
theorem labours_attempt : (it.attempt task).Labours :=
  (labours_enter _).bind fun _ => labours_call _

/-- Retries stay within the work if the attempts do. -/
theorem labours_runFrom {policy : RetryPolicy} {operation : Nat → Code C (PoolResult α)}
    (h : ∀ n, (operation n).Labours) (n left : Nat) :
    (policy.runFrom operation n left).Labours := by
  unfold RetryPolicy.runFrom
  refine (h n).bind fun result => ?_
  cases result with
  | ok value =>
    dsimp only
    split
    · exact labours_log.bind fun _ => (labours_record _).bind fun _ => .pure _
    · exact .pure _
  | error e =>
    refine labours_log.bind fun _ => ?_
    cases left with
    | zero =>
      dsimp only
      split
      · exact (labours_record _).bind fun _ => .pure _
      · exact .pure _
    | succ left =>
      refine labours_log.bind fun _ => .wait (fun _ => rfl) fun wake => ?_
      cases wake with
      | cancelled => exact .pure _
      | elapsed => exact (labours_record _).bind fun _ => labours_runFrom h (n + 1) left

/-! ## Tasks -/

/-- Processing stays within the work, with its boundary. -/
theorem labours_processGuarded : (it.processGuarded worker task).Labours := by
  have hooked : (it.processWithHooks worker task).Labours := by
    refine (labours_runPre it.processor).bind fun _ => ?_
    refine (labours_runFrom (fun _ => labours_attempt) _ _).bind fun result => ?_
    cases result with
    | ok done => exact (labours_runPost it.processor none).bind fun _ => .pure _
    | error e => exact (labours_runPost it.processor (some e)).bind fun _ => .pure _
  refine hooked.guarded.bind fun outcome => ?_
  cases outcome with
  | ok | error => exact .pure _
  | panic x => exact labours_log.bind fun _ => (labours_record _).bind fun _ => .pure _

theorem labours_completeTask {taskId : String} {done : C.Task} {duration : Duration} :
    (it.completeTask worker taskId done duration).Labours := by
  refine (labours_enter _).bind fun _ => (labours_call _).bind fun result => (labours_record _).bind fun _ => ?_
  cases result with
  | ok | error => exact labours_log.bind fun _ => .pure _

theorem labours_failTask {taskId : String} {error : PoolError} {duration : Duration} :
    (it.failTask worker taskId task error duration).Labours := by
  have told : (do
      Code.record (.taskFailed worker duration)
      Code.log .warn "Task failed" [
        ("worker", .text worker),
        ("task_id", .text taskId),
        ("error", .text error.message)]
      return .error error : Code C (PoolResult Unit)).Labours :=
    (labours_record _).bind fun _ => labours_log.bind fun _ => .pure _
  refine (labours_enter _).bind fun _ => (labours_call _).bind fun result => ?_
  cases result with
  | ok => exact told
  | error => exact labours_log.bind fun _ => told

/-- An iteration of a worker labours. -/
theorem labours_work : (it.work worker).Labours := by
  refine (labours_call _).bind fun result => (labours_enter _).bind fun _ => ?_
  cases result with
  | ok task =>
    refine (labours_record _).bind fun _ => labours_log.bind fun _ => .ask (fun _ => rfl) fun started => ?_
    refine labours_processGuarded.bind fun processed => .ask (fun _ => rfl) fun resumed => ?_
    cases processed with
    | ok done => exact labours_completeTask
    | error e => exact labours_failTask
  | error e =>
    dsimp only
    split
    · exact .pure _
    · exact labours_log.bind fun _ => (labours_record _).bind fun _ => .pure _

end WorkerPool
