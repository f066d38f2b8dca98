import WorkerPool.Layer
import WorkerPool.Iteration
import WorkerPool.Proofs.Counting
import WorkerPool.Proofs.Rules

/-!
# How promptly a worker tells the collector

Two things that happen within the work of a worker are to be told to the collector: a checkout that
fails otherwise than by a signal, and a panic in a hook or in an attempt at a task. The work does so
before it waits for anything or incurs another such debt, so at any moment it owes at most one recording,
and while it waits none. That is the rule `bookkeeping`, to which all of the work keeps
(`settles_compose`); what it comes to in numbers is `bookkeeping_balance`. The rule also says what the
work leaves to others: to put requests on the escalation channel, and to say that the pool is being
stopped.
-/

namespace WorkerPool

variable {C : Client} {α : Type} {T : Option Nat} {t t' : Nat}

/-- The text of the line that says that the pool is being stopped. -/
def stoppingText : String := "🔨 Stopping worker pool"

/-- Whether the work of a worker leaves a request to the loop around it or to the pool. -/
def Request.isReserved : Request C → Bool
  | .escalate _ => true
  | .log line => line.text = stoppingText
  | _ => false

namespace Mark

/-- What a mark obliges the worker to tell the collector. -/
def due? : Mark C → Option MetricKind
  | .made (.checkout (.error e)) => if Iteration.isSignal e then none else some .checkoutError
  | .ended (.process (.panic _)) | .ended (.preHook (.panic _)) | .ended (.postHook (.panic _)) =>
    some .workerPanicked
  | _ => none

/-- The debt that a mark pays, if it is one that may be owed. -/
def paid? : Mark C → Option MetricKind
  | .told (.checkoutError _) => some .checkoutError
  | .told (.workerPanicked _) => some .workerPanicked
  | _ => none

/-- What is owed after a mark: a debt is incurred only when none is left, and only debts are paid. -/
def account? (owed : Option MetricKind) (mark : Mark C) : Option (Option MetricKind) :=
  match mark.due?, mark.paid? with
  | some kind, _ => if owed = none then some (some kind) else none
  | none, some kind => if owed = some kind then some none else none
  | none, none => some owed

/-- Whether a mark obliges the worker to tell the collector something of that kind. -/
def obliges (kind : MetricKind) (mark : Mark C) : Bool :=
  mark.due? = some kind

end Mark

/-- The rule of the work: debts are paid one by one, and before any wait. -/
def bookkeeping : Rule C (Option MetricKind)
  | owed, .waited _ _ => if owed = none then some none else none
  | owed, .asked request answer =>
    if request.isReserved then none
    else
      match (Deed.asked request answer).mark? with
      | none => some owed
      | some mark => mark.account? owed

/-- The debts that are due at some time. -/
def MetricKind.isOwed : MetricKind → Bool
  | .checkoutError | .workerPanicked => true
  | _ => false

namespace Mark

/-- What pays no debt tells of none. -/
theorem tells_eq_paid {kind : MetricKind} (isOwed : kind.isOwed = true) (mark : Mark C) :
    mark.tells kind = decide (mark.paid? = some kind) := by
  cases mark with
  | made | ended => rfl
  | told metric => cases kind <;> first | (cases metric <;> rfl) | cases isOwed

/-- No mark both incurs a debt and pays one. -/
theorem paid?_eq_none {kind : MetricKind} {mark : Mark C} (due : mark.due? = some kind) : mark.paid? = none := by
  cases mark with
  | made | ended => rfl
  | told metric => cases due

/-- What is due after a mark or was owed before it is told by it or owed after it. -/
theorem account_balance {kind : MetricKind} (isOwed : kind.isOwed = true) {owed owed' : Option MetricKind}
    {mark : Mark C} (h : mark.account? owed = some owed') :
    (if mark.obliges kind then 1 else 0) + (if owed = some kind then 1 else 0) =
      (if mark.tells kind then 1 else 0) + if owed' = some kind then 1 else 0 := by
  rw [mark.tells_eq_paid isOwed]
  unfold account? at h
  unfold obliges
  cases due : mark.due? with
  | some other =>
    rw [due] at h
    dsimp only at h
    split at h
    · next free =>
      cases h
      simp [free, paid?_eq_none due]
    · cases h
  | none =>
    rw [due] at h
    cases paid : mark.paid? with
    | some other =>
      rw [paid] at h
      dsimp only at h
      split at h
      · next owing =>
        cases h
        simp [owing]
      · cases h
    | none =>
      rw [paid] at h
      cases h
      simp

end Mark

/-- A worker has told what was due, up to what it owes. -/
theorem bookkeeping_balance {kind : MetricKind} (isOwed : kind.isOwed = true)
    {owed owed' : Option MetricKind} {steps : List (Step C)}
    (h : Rule.follow bookkeeping owed steps = some owed') :
    countMarks (Mark.obliges kind) steps + (if owed = some kind then 1 else 0) =
      told kind steps + if owed' = some kind then 1 else 0 := by
  induction steps generalizing owed with
  | nil =>
    cases h
    rfl
  | cons step rest ih =>
    obtain ⟨between, allowed, follows⟩ := Rule.exists_of_follow_cons h
    have later := ih follows
    rw [told] at later ⊢
    rw [countMarks_cons, countMarks_cons]
    -- A wait has to find nothing owed; any other deed with a mark moves the account by what the mark says.
    obtain ⟨time, deed⟩ := step
    cases deed with
    | waited heeds wake =>
      simp only [bookkeeping] at allowed
      split at allowed
      · next free =>
        cases allowed
        subst free
        simpa [Deed.mark?] using later
      · cases allowed
    | asked request answer =>
      simp only [bookkeeping] at allowed
      split at allowed
      · cases allowed
      · cases marked : (Deed.asked request answer).mark? with
        | none =>
          rw [marked] at allowed
          cases allowed
          simpa [marked] using later
        | some mark =>
          rw [marked] at allowed
          have balance := mark.account_balance isOwed allowed
          simp only [Option.any_some]
          omega

/-! ## Single requests -/

section

variable {post : Option MetricKind → Except Panic α → Prop} {owed : Option MetricKind}

/-- Code keeps to the rule that asks for something which moves no debt, and goes on so whatever it is told. -/
theorem keeps_ask {request : Request C} {next : request.Answer → Code C α}
    (neutral : ∀ answer, bookkeeping owed (.asked request answer) = some owed)
    (rest : ∀ answer, (next answer).Keeps bookkeeping post owed) :
    (Program.ask (I := C.poolInterface) request next).Keeps bookkeeping post owed :=
  fun answer => ⟨owed, neutral answer, rest answer⟩

variable {f : Unit → Code C α}

/-- A line of the log may be written at any time, unless it says that the pool is being stopped. -/
theorem keeps_log_bind {level : LogLevel} {text : String} {fields : List (String × LogValue)}
    (other : text ≠ stoppingText) (rest : (f ()).Keeps bookkeeping post owed) :
    (Code.log level text fields >>= f).Keeps bookkeeping post owed :=
  fun _ => ⟨owed, by simp [bookkeeping, Request.isReserved, other, Deed.mark?], rest⟩

/-- A call may be entered whatever is owed, unless entering it incurs a debt. -/
theorem keeps_enter_bind {call : Call C} (free : (Mark.made call).due? = none)
    (rest : (f ()).Keeps bookkeeping post owed) :
    (Code.enter call >>= f).Keeps bookkeeping post owed :=
  fun _ => ⟨owed, by simp [bookkeeping, Request.isReserved, Deed.mark?, Mark.account?, free, Mark.paid?], rest⟩

/-- The collector may be told at any time of what is never owed. -/
theorem keeps_record_bind {metric : Metric} (free : (Mark.told metric : Mark C).paid? = none)
    (rest : (f ()).Keeps bookkeeping post owed) :
    (Code.record metric >>= f).Keeps bookkeeping post owed :=
  fun _ => ⟨owed, by simp [bookkeeping, Request.isReserved, Deed.mark?, Mark.account?, free, Mark.due?], rest⟩

/-- A recording pays what is owed. -/
theorem keeps_pay_bind {metric : Metric} {kind : MetricKind}
    (pays : (Mark.told metric : Mark C).paid? = some kind) (rest : (f ()).Keeps bookkeeping post none) :
    (Code.record metric >>= f).Keeps bookkeeping post (some kind) :=
  fun _ => ⟨none, by simp [bookkeeping, Request.isReserved, Deed.mark?, Mark.account?, pays, Mark.due?], rest⟩

end

/-- What is owed of code that ends with a panic: that the collector be told of it. -/
def owedFor : Except Panic α → Option MetricKind
  | .ok _ => none
  | .error _ => some .workerPanicked

/-- Whether code, begun without debts, keeps to the rule of the work and ends without debts. -/
def Program.Settles (code : Code C α) : Prop :=
  code.Keeps bookkeeping (fun owed _ => owed = none) none

/-- Whether code, begun without debts, keeps to the rule of the work and leaves no debts but for a panic
with which it ends. -/
def Program.OwesPanic (code : Code C α) : Prop :=
  code.Keeps bookkeeping (fun owed e => owed = owedFor e) none

/-- Whatever the client's code does, it neither incurs debts nor pays any. -/
theorem settles_act (code : Act C α) : (Code.act code).Settles :=
  Program.keeps_act (fun request _ => by cases request <;> rfl) (fun _ _ => rfl) (fun _ => rfl) code

/-- A call that obliges the worker to tell of its panic. -/
theorem owesPanic_call {ending : Outcome α → Ending C} {code : Code C (PoolResult α)} (settles : code.Settles)
    (due : ∀ outcome, (Mark.ended (ending outcome)).due? = owedFor outcome.ending) :
    (Code.call ending code).OwesPanic := by
  refine Code.keeps_call (settles.mono fun owed e free outcome same => ?_)
  subst free
  refine ⟨owedFor outcome.ending, ?_, rfl⟩
  have due := due outcome
  cases owed_eq : owedFor outcome.ending <;>
    simp [bookkeeping, Request.isReserved, Deed.mark?, Mark.account?, due, owed_eq, Mark.paid?]

/-- A call of whose panic nothing has to be told. -/
theorem settles_call {ending : Outcome α → Ending C} {code : Code C (PoolResult α)} (settles : code.Settles)
    (free : ∀ outcome, (Mark.ended (ending outcome)).due? = none) : (Code.call ending code).Settles := by
  refine Code.keeps_call (settles.mono fun owed e none outcome same => ?_)
  subst none
  refine ⟨none, ?_, rfl⟩
  simp [bookkeeping, Request.isReserved, Deed.mark?, Mark.account?, free outcome, Mark.paid?]

/-- Code after code that owes for its panic. -/
theorem Program.OwesPanic.bind {β : Type} {p : Code C α} {f : α → Code C β} (h : p.OwesPanic)
    (g : ∀ value, (f value).OwesPanic) : (p >>= f).OwesPanic := by
  refine Program.keeps_bind.mpr (h.mono fun owed e owes => ?_)
  subst owes
  cases e with
  | ok value => exact g value
  | error x => rfl

/-- Code that settles can be put together from parts that do. -/
theorem Program.Settles.bind {β : Type} {p : Code C α} {f : α → Code C β} (h : p.Settles)
    (g : ∀ value, (f value).Settles) : (p >>= f).Settles := by
  refine Program.keeps_bind.mpr (h.mono fun owed e none => ?_)
  subst none
  cases e with
  | ok value => exact g value
  | error x => rfl

/-! ## Hooks -/

/-- What a hook asks for in its one step moves no debts. -/
theorem settles_hookStep (step : HookStep C) : step.code.Settles := by
  cases step <;> exact keeps_ask (fun _ => rfl) fun _ => rfl

/-- So neither does all that a hook asks for. -/
theorem settles_codeOf (list : List (HookStep C)) : (HookStep.codeOf list).Settles := by
  induction list with
  | nil => rfl
  | cons step rest ih => exact (settles_hookStep step).bind fun _ => ih

/-- A hook that is run settles; it is the pass around it that owes the telling of its panic. -/
theorem settles_runHook (reply : C.State → HookReply C) : (runHook reply).Settles :=
  keeps_ask (fun _ => rfl) fun state =>
    (settles_codeOf (reply state).steps).bind fun _ => Program.keeps_ofOutcome.mpr rfl

/-- A pass of hooks owes nothing in the end, unless one of its hooks panicked: then that panic is still to be
told of. -/
theorem owesPanic_runHooksFrom {text worker taskId : String} {made : C.Hook → Call C}
    {ended : Outcome Unit → Ending C} {reply : C.Hook → C.State → HookReply C} (other : text ≠ stoppingText)
    (free : ∀ hook, (Mark.made (made hook)).due? = none)
    (due : ∀ outcome, (Mark.ended (ended outcome)).due? = owedFor outcome.ending)
    (index : Nat) (hooks : List C.Hook) :
    (runHooksFrom text worker taskId made ended reply index hooks).OwesPanic := by
  induction hooks generalizing index with
  | nil => rfl
  | cons hook rest ih =>
    refine keeps_enter_bind (free hook) ((owesPanic_call (settles_runHook (reply hook)) due).bind fun result => ?_)
    cases result with
    | ok => exact ih (index + 1)
    | error e => exact keeps_log_bind other (ih (index + 1))

variable {it : Iteration C} {worker : String} {task : C.Task}

/-- The pass before a task owes nothing but its panic. -/
theorem owesPanic_runPre (P : Processor C) : (P.runPre worker task).OwesPanic :=
  keeps_ask (fun _ => rfl) fun hooks => owesPanic_runHooksFrom (by decide) (fun _ => rfl)
    (fun outcome => by cases outcome <;> rfl) 0 hooks

/-- The pass after a task owes nothing but its panic. -/
theorem owesPanic_runPost (P : Processor C) (error : Option PoolError) :
    (P.runPost worker task error).OwesPanic :=
  keeps_ask (fun _ => rfl) fun hooks => owesPanic_runHooksFrom (by decide) (fun _ => rfl)
    (fun outcome => by cases outcome <;> rfl) 0 hooks

/-! ## Attempts -/

/-- An attempt owes nothing but its panic. -/
theorem owesPanic_attempt : (it.attempt task).OwesPanic :=
  keeps_enter_bind rfl (owesPanic_call (settles_act _) fun outcome => by cases outcome <;> rfl)

/-- Retries owe no more than the attempt at which they end, for every other one returned. -/
theorem owesPanic_runFrom {policy : RetryPolicy} {operation : Nat → Code C (PoolResult α)}
    (h : ∀ n, (operation n).OwesPanic) (n left : Nat) : (policy.runFrom operation n left).OwesPanic := by
  unfold RetryPolicy.runFrom
  refine (h n).bind fun result => ?_
  cases result with
  | ok value =>
    dsimp only
    split
    · exact keeps_log_bind (by decide) (keeps_record_bind rfl rfl)
    · rfl
  | error e =>
    refine keeps_log_bind (by decide) ?_
    cases left with
    | zero =>
      dsimp only
      split
      · exact keeps_record_bind rfl rfl
      · rfl
    | succ left =>
      refine keeps_log_bind (by decide) fun wake => ⟨none, rfl, ?_⟩
      cases wake with
      | cancelled => rfl
      | elapsed => exact keeps_record_bind rfl (owesPanic_runFrom h (n + 1) left)

/-! ## Tasks -/

/-- Processing owes nothing but the panic that it ends with, which the boundary around it catches and tells of. -/
theorem owesPanic_processWithHooks : (it.processWithHooks worker task).OwesPanic := by
  refine (owesPanic_runPre it.processor).bind fun _ => ?_
  refine (owesPanic_runFrom (fun _ => owesPanic_attempt) _ _).bind fun result => ?_
  cases result with
  | ok done => exact (owesPanic_runPost it.processor none).bind fun _ => rfl
  | error e => exact (owesPanic_runPost it.processor (some e)).bind fun _ => rfl

/-- The boundary around the processing pays for the panic that it catches. -/
theorem settles_processGuarded : (it.processGuarded worker task).Settles := by
  refine Program.keeps_bind.mpr (Program.keeps_guarded.mpr ?_)
  refine owesPanic_processWithHooks.mono fun owed e owes outcome same => ?_
  subst same owes
  cases outcome with
  | ok | error => rfl
  | panic x => exact keeps_log_bind (by decide) (keeps_pay_bind rfl rfl)

/-- Completing a task settles, however the client's code for it ends. -/
theorem settles_completeTask {taskId : String} {done : C.Task} {duration : Duration} :
    (it.completeTask worker taskId done duration).Settles := by
  refine keeps_enter_bind rfl ((settles_call (settles_act _) fun _ => rfl).bind fun result => ?_)
  refine keeps_record_bind rfl ?_
  cases result with
  | ok | error => exact keeps_log_bind (by decide) rfl

/-- Failing a task settles, however the client's code for it ends. -/
theorem settles_failTask {taskId : String} {error : PoolError} {duration : Duration} :
    (it.failTask worker taskId task error duration).Settles := by
  refine keeps_enter_bind rfl ((settles_call (settles_act _) fun _ => rfl).bind fun result => ?_)
  cases result with
  | ok => exact keeps_record_bind rfl (keeps_log_bind (by decide) rfl)
  | error => exact keeps_log_bind (by decide) (keeps_record_bind rfl (keeps_log_bind (by decide) rfl))

/-- The work on a task settles: what its processing owed is paid at the boundary, before the task is disposed
of. -/
theorem settles_workOn : (it.workOn worker task).Settles := by
  refine keeps_record_bind rfl (keeps_log_bind (by decide) (keeps_ask (fun _ => rfl) fun started => ?_))
  refine settles_processGuarded.bind fun processed => keeps_ask (fun _ => rfl) fun resumed => ?_
  cases processed with
  | ok done => exact settles_completeTask
  | error e => exact settles_failTask

/-- An iteration pays for a checkout that failed. -/
theorem settles_work : (it.work worker).Settles := by
  refine (settles_call (settles_act _) fun _ => rfl).bind fun result => ?_
  cases result with
  | ok task => exact keeps_enter_bind rfl settles_workOn
  | error e =>
    by_cases signal : Iteration.isSignal e = true
    · refine keeps_enter_bind (by simp [Mark.due?, signal]) ?_
      dsimp only
      rw [if_pos signal]
      rfl
    · refine fun _ => ⟨some .checkoutError, ?_, ?_⟩
      · simp [bookkeeping, Request.isReserved, Deed.mark?, Mark.account?, Mark.due?, signal]
      · dsimp only
        rw [if_neg signal]
        exact keeps_log_bind (by decide) (keeps_pay_bind rfl rfl)

/-! ## Layers -/

/-- Counts of failures are no debts. -/
theorem settles_tally (limit : String) (change : Nat → Nat) :
    (Code.tally limit worker change : Code C Nat).Settles :=
  keeps_ask (fun _ => rfl) fun _ => rfl

/-- A limit on failures only counts and writes to the log. -/
theorem settles_observe (limit : ErrorLimit) (result : PoolResult Unit) :
    (limit.observe worker result : Code C (PoolResult Unit)).Settles := by
  cases result with
  | ok => exact (settles_tally limit.name _).bind fun _ => rfl
  | error e =>
    unfold ErrorLimit.observe
    dsimp only
    split
    · refine (settles_tally limit.name _).bind fun count => ?_
      split
      · exact keeps_log_bind (by decide) ((settles_tally limit.name _).bind fun _ => rfl)
      · rfl
    · rfl

/-- A layer of the client's own settles if what it surrounds does. -/
theorem settles_around {inner : Code C (PoolResult Unit)} (h : inner.Settles) (code : LayerAct C) :
    (Layer.around code inner).Settles := by
  unfold Layer.around
  induction code with
  | done | panic => rfl
  | ask request next ih =>
    cases request with
    | client request => exact keeps_ask (fun _ => by cases request <;> rfl) fun answer => ih answer
    | inner => exact h.bind fun result => ih result
  | wait ms heeds next ih => exact fun wake => ⟨none, rfl, ih wake⟩

/-- Whatever the layers, the work keeps to the rule. -/
theorem settles_compose (layers : List (Layer C)) : (Layer.compose layers it.work worker).Settles := by
  induction layers with
  | nil => exact settles_work
  | cons layer layers ih =>
    cases layer with
    | client code => exact settles_around ih (code worker)
    | errorLimit limit => exact ih.bind fun result => settles_observe limit result

end WorkerPool
