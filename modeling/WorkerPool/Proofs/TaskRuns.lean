import WorkerPool.Iteration
import WorkerPool.Proofs.HookPasses
import WorkerPool.Proofs.Limiting
import WorkerPool.Proofs.Retrying

/-!
# What becomes of a task

A `TaskRun` is everything that shows of the work on one task: the hooks before it, the attempts, the
hooks after it, and the call that disposed of it. `TaskRun.Follows` says which task runs there are: the
processing goes as the iteration has it, and what lies between the marks of the call that disposed of the task is a
run of the client's code for that, of the kind that `TaskRun.disposalCode` tells. `work_round` says that every
iteration which checks a task out is one of them.
-/

namespace WorkerPool

variable {C : Client} {α : Type} {T : Option Nat} {t t' : Nat} {steps : List (Step C)}

/-- The mark of a panic that a worker caught. -/
def panicMarks (worker : String) (time : Nat) (outcome : Outcome α) : List (Nat × Mark C) :=
  match outcome with
  | .panic _ => [(time, .told (.workerPanicked worker))]
  | _ => []

/-! ## Attempts -/

/-- The marks of attempts at a task, the first of which has that number. -/
def attemptMarks (task : C.Task) : (attempt : Nat) → List (Stretch C C.Task) → List (Nat × Mark C)
  | _, [] => []
  | n, a :: more =>
    (if 1 < n then [(a.begun, .told (.retryAttempt n))] else []) ++
      (a.begun, .made (.process task)) :: (a.ended, .ended (.process a.outcome)) ::
      attemptMarks task (n + 1) more

/-- The marks of what the collector is told when the retries are over. -/
def verdictMarks (policy : RetryPolicy) (count time : Nat) (result : Outcome α) : List (Nat × Mark C) :=
  (policy.verdict count result).map fun metric => (time, .told metric)

variable {it : Iteration C} {task : C.Task}

/-- An attempt makes its call and ends it, and does nothing else that shows. -/
theorem marks_of_attempt {outcome : Outcome C.Task}
    (h : (it.attempt task).Runs T t steps outcome.ending t') :
    marks steps = [(t, .made (.process task)), (t', .ended (.process outcome))] := by
  rw [Iteration.attempt, Code.runs_enter_bind] at h
  obtain ⟨_, rfl, call⟩ := h
  obtain ⟨ending, inner, rfl, same, act⟩ := Code.runs_call call
  obtain rfl := Outcome.ending_inj.mp same
  simp [marks_of_act act, Deed.mark?]

/-- The attempts after the first show as one mark for the retry and those of the attempt, each. -/
theorem marks_story {n : Nat} {attempts : List (Stretch C C.Task)}
    (isOf : ∀ a ∈ attempts, a.IsOf T (it.attempt task)) :
    marks (RetryPolicy.story n attempts) = attemptMarks task n attempts := by
  induction attempts generalizing n with
  | nil => rfl
  | cons a more ih =>
    have head : marks a.steps = _ := marks_of_attempt (isOf a (by simp))
    have tail := ih (n := n + 1) fun b mem => isOf b (by simp [mem])
    rw [RetryPolicy.story, attemptMarks, marks_append, marks_append, marks_unlogged, head, tail]
    split <;> simp [Deed.mark?]

/-- The end of a run shows in its verdict only. -/
theorem marks_coda {policy : RetryPolicy} {count time : Nat} {result : Outcome α}
    (failed : ∀ e, result = .error e →
      e = .cancelled ∨ ∃ source, e = .retriesExhausted policy.maxAttempts source) :
    marks (policy.coda count time result : List (Step C)) = verdictMarks policy count time result := by
  cases result with
  | ok value =>
    simp only [RetryPolicy.coda, RetryPolicy.successNote, verdictMarks, RetryPolicy.verdict]
    split <;> rfl
  | panic x => rfl
  | error e =>
    cases e with
    | retriesExhausted =>
      simp only [RetryPolicy.coda, RetryPolicy.exhaustionNote, verdictMarks, RetryPolicy.verdict]
      split <;> rfl
    | cancelled => rfl
    | _ => rcases failed _ rfl with h | ⟨_, h⟩ <;> cases h

/-- How the attempts at a task go: as the policy has it, each a call of the processor. -/
def Tries (it : Iteration C) (T : Option Nat) (task : C.Task) (t : Nat)
    (attempts : List (Stretch C C.Task)) (result : Outcome C.Task) (t' : Nat) : Prop :=
  ∃ steps last, it.retry.Course (fun _ => it.attempt task) T t steps result t' attempts last

/-- Under its policy a task is tried: the attempts are runs of the client's code, and these are the marks. -/
theorem retry_tries {e : Except Panic (PoolResult C.Task)}
    (h : (it.retry.run fun _ => it.attempt task).Runs T t steps e t') :
    ∃ attempts result, e = result.ending ∧ Tries it T task t attempts result t' ∧
      marks steps = attemptMarks task 1 attempts ++ verdictMarks it.retry attempts.length t' result := by
  obtain ⟨attempts, last, result, he, course⟩ := RetryPolicy.exists_course h
  refine ⟨attempts, result, he, ⟨steps, last, course⟩, ?_⟩
  have isOf : ∀ a ∈ attempts, a.IsOf T (it.attempt task) := by
    intro a mem
    obtain ⟨i, _, at_i⟩ := List.getElem_of_mem mem
    exact course.isOf i a (List.getElem?_eq_some_iff.mpr ⟨_, at_i⟩)
  rw [← marks_unlogged, course.unlogged_eq, marks_append, marks_story isOf, marks_coda course.failed]

/-! ## Processing -/

/-- The processing of a task between its hooks: `tried` is how the attempts ended, `none` if there were
none. -/
structure Processing (C : Client) where
  pre : List (HookCall C)
  attempts : List (Stretch C C.Task)
  tried : Option (Outcome C.Task)
  post : List (HookCall C)
  outcome : Outcome C.Task

namespace Processing

/-- How the processing of a task goes from millisecond `t` to `t'`. A panic in a hook or in an attempt
ends it. -/
inductive Goes (it : Iteration C) (T : Option Nat) (task : C.Task) (t : Nat) :
    Processing C → Nat → Prop
  | unbegun {hooks : List C.Hook} {pre : List (HookCall C)} {x : Panic}
      (pass : HookPass hooks pre (some x)) : Goes it T task t ⟨pre, [], none, [], .panic x⟩ t
  | panicked {hooks : List C.Hook} {pre : List (HookCall C)} {attempts : List (Stretch C C.Task)}
      {x : Panic} {t' : Nat} (pass : HookPass hooks pre none)
      (tries : Tries it T task t attempts (.panic x) t') :
      Goes it T task t ⟨pre, attempts, some (.panic x), [], .panic x⟩ t'
  | finished {hooks hooks' : List C.Hook} {pre post : List (HookCall C)}
      {attempts : List (Stretch C C.Task)} {result : Outcome C.Task} {panic : Option Panic} {t' : Nat}
      (pass : HookPass hooks pre none) (tries : Tries it T task t attempts result t')
      (survived : result.panic? = none) (pass' : HookPass hooks' post panic) :
      Goes it T task t ⟨pre, attempts, some result, post, panic.elim result .panic⟩ t'

/-- The call of a hook after attempts that ended so. -/
def postCall (task : C.Task) (tried : Option (Outcome C.Task)) (hook : C.Hook) : Call C :=
  match tried with
  | some (.ok done) => .postHook hook done none
  | some (.error e) => .postHook hook task (some e)
  | _ => .postHook hook task none

/-- The marks of a processing that took from millisecond `t` to `t'`. -/
def marks (policy : RetryPolicy) (task : C.Task) (t t' : Nat) (p : Processing C) :
    List (Nat × Mark C) :=
  passMarks t (.preHook · task) .preHook p.pre ++
    (attemptMarks task 1 p.attempts ++
      p.tried.elim [] (verdictMarks policy p.attempts.length t')) ++
    passMarks t' (postCall task p.tried) .postHook p.post

end Processing

variable {worker : String}

/-- The hooks after the attempts make a pass, and a panic of theirs takes the place of what the attempts came
to. -/
theorem post_runs {P : Processor C} {error : Option PoolError} {value : PoolResult C.Task}
    {e : Except Panic (PoolResult C.Task)}
    (h : Program.Runs T (do P.runPost worker task error; return value) t steps e t') :
    ∃ hooks calls panic, HookPass hooks calls panic ∧ t' = t ∧ e = panic.elim (.ok value) .error ∧
      marks steps = passMarks t (.postHook · task error) .postHook calls := by
  rcases Program.runs_bind.mp h with ⟨x, rfl, run⟩ | ⟨_, t₁, first, second, rfl, run, last⟩
  · obtain ⟨hooks, calls, panic, pass, ht, he, marks_eq⟩ := runPost_pass run
    cases panic with
    | none => cases he
    | some y =>
      cases he
      exact ⟨hooks, calls, some x, pass, ht, rfl, marks_eq⟩
  · obtain ⟨hooks, calls, panic, pass, rfl, he, marks_eq⟩ := runPost_pass run
    obtain ⟨rfl, rfl, rfl⟩ := Program.runs_pure.mp last
    cases panic with
    | none => exact ⟨hooks, calls, none, pass, rfl, rfl, by simpa using marks_eq⟩
    | some y => cases he

/-- Processing between the hooks goes in one of the ways in which it may go, and ends with its
outcome. -/
theorem processWithHooks_goes {e : Except Panic (PoolResult C.Task)}
    (h : (it.processWithHooks worker task).Runs T t steps e t') :
    ∃ p : Processing C, p.Goes it T task t t' ∧ e = p.outcome.ending ∧
      marks steps = p.marks it.retry task t t' := by
  rcases Program.runs_bind.mp h with ⟨x, rfl, run⟩ | ⟨_, t₁, first, rest, rfl, run, next⟩
  · obtain ⟨hooks, calls, panic, pass, rfl, he, marks_eq⟩ := runPre_pass run
    cases panic with
    | none => cases he
    | some y =>
      cases he
      exact ⟨_, .unbegun pass, rfl, by simp [Processing.marks, marks_eq, attemptMarks, passMarks]⟩
  obtain ⟨hooks, calls, panic, pass, rfl, he, first_marks⟩ := runPre_pass run
  cases panic with
  | some y => cases he
  | none =>
    obtain ⟨result, second, t₂, run, last⟩ := Program.runs_bind_outcome next
    -- The hooks before the task have let it through; what its attempts come to decides about those after it.
    obtain ⟨attempts, outcome, same, tries, second_marks⟩ := retry_tries run
    obtain rfl := Outcome.ending_inj.mp same
    cases result with
    | panic x =>
      obtain ⟨rfl, rfl, rfl⟩ := last
      exact ⟨_, .panicked pass tries, rfl, by simp [Processing.marks, first_marks, second_marks, passMarks]⟩
    | ok done =>
      obtain ⟨third, rfl, last⟩ := last
      obtain ⟨hooks', post, panic, pass', rfl, rfl, third_marks⟩ := post_runs last
      refine ⟨_, .finished pass tries rfl pass', by cases panic <;> rfl, ?_⟩
      simp [Processing.marks, first_marks, second_marks, third_marks, passMarks, Processing.postCall]
    | error error =>
      obtain ⟨third, rfl, last⟩ := last
      obtain ⟨hooks', post, panic, pass', rfl, rfl, third_marks⟩ := post_runs last
      refine ⟨_, .finished pass tries rfl pass', by cases panic <;> rfl, ?_⟩
      simp [Processing.marks, first_marks, second_marks, third_marks, passMarks, Processing.postCall]

/-- Around the processing there is a boundary at which a panic becomes an error. -/
theorem processGuarded_goes {e : Except Panic (PoolResult C.Task)}
    (h : (it.processGuarded worker task).Runs T t steps e t') :
    ∃ p : Processing C, p.Goes it T task t t' ∧ e = .ok p.outcome.caught ∧
      marks steps = p.marks it.retry task t t' ++ panicMarks worker t' p.outcome := by
  rcases Program.runs_bind.mp h with ⟨x, rfl, guarded⟩ | ⟨outcome, t₁, inner, rest, rfl, guarded, next⟩
  · obtain ⟨outcome, he, _⟩ := Program.runs_guarded.mp guarded
    cases he
  obtain ⟨outcome, he, run⟩ := Program.runs_guarded.mp guarded
  cases he
  obtain ⟨p, goes, same, inner_marks⟩ := processWithHooks_goes run
  obtain rfl := Outcome.ending_inj.mp same
  cases outcome_eq : p.outcome with
  | ok | error =>
    rw [outcome_eq] at next
    obtain ⟨rfl, rfl, rfl⟩ := Program.runs_pure.mp next
    exact ⟨p, goes, by rw [outcome_eq]; rfl, by simp [inner_marks, outcome_eq, panicMarks]⟩
  | panic x =>
    rw [outcome_eq] at next
    simp only [Code.runs_log_bind, Code.runs_record_bind, Program.runs_pure] at next
    obtain ⟨_, rfl, _, rfl, rfl, rfl, rfl⟩ := next
    exact ⟨p, goes, by rw [outcome_eq]; rfl, by simp [inner_marks, outcome_eq, panicMarks, Deed.mark?]⟩

/-! ## Disposal -/

/-- The marks of a call that took from millisecond `t` to `t'`, and of what the collector is told if it
returned. -/
def disposalMarks (made : Call C) (ended : Outcome Unit → Ending C) (metric : Metric) (t t' : Nat)
    (outcome : Outcome Unit) : List (Nat × Mark C) :=
  (t, .made made) :: (t', .ended (ended outcome)) ::
    if outcome.panic? = none then [(t', .told metric)] else []

/-- Completing a task is a run of the client's `complete`, with the marks of one call around it. -/
theorem completeTask_runs {taskId : String} {done : C.Task} {duration : Duration}
    {e : Except Panic (PoolResult Unit)}
    (h : (it.completeTask worker taskId done duration).Runs T t steps e t') :
    ∃ outcome : Outcome Unit, e = outcome.ending ∧
      (∃ inner, (Code.act (it.processor.complete done duration)).Runs T t inner outcome.ending t') ∧
      marks steps = disposalMarks (.complete done duration) .complete
        (.taskCompleted worker duration) t t' outcome := by
  rw [Iteration.completeTask, Code.runs_enter_bind] at h
  obtain ⟨_, rfl, h⟩ := h
  obtain ⟨outcome, first, t₁, call, next⟩ := Program.runs_bind_outcome h
  obtain ⟨ending, inner, rfl, same, act⟩ := Code.runs_call call
  obtain rfl := Outcome.ending_inj.mp same
  refine ⟨outcome, ?_⟩
  cases outcome with
  | panic x =>
    obtain ⟨rfl, rfl, rfl⟩ := next
    exact ⟨rfl, ⟨inner, act⟩, by simp [disposalMarks, marks_of_act act, Deed.mark?, Outcome.panic?]⟩
  | ok | error =>
    obtain ⟨second, rfl, next⟩ := next
    simp only [Code.runs_record_bind, Code.runs_log_bind, Program.runs_pure] at next
    obtain ⟨_, rfl, _, rfl, rfl, rfl, rfl⟩ := next
    exact ⟨rfl, ⟨inner, act⟩, by simp [disposalMarks, marks_of_act act, Deed.mark?, Outcome.panic?]⟩

/-- Failing a task is a run of the client's `fail`, with the marks of one call around it; unless the
client panics, the error of the task is the result. -/
theorem failTask_runs {taskId : String} {error : PoolError} {duration : Duration}
    {e : Except Panic (PoolResult Unit)}
    (h : (it.failTask worker taskId task error duration).Runs T t steps e t') :
    ∃ outcome : Outcome Unit, e = outcome.panic?.elim (.ok (.error error)) .error ∧
      (∃ inner, (Code.act (it.processor.fail task error)).Runs T t inner outcome.ending t') ∧
      marks steps = disposalMarks (.fail task error) .fail (.taskFailed worker duration) t t'
        outcome := by
  rw [Iteration.failTask, Code.runs_enter_bind] at h
  obtain ⟨_, rfl, h⟩ := h
  obtain ⟨outcome, first, t₁, call, next⟩ := Program.runs_bind_outcome h
  obtain ⟨ending, inner, rfl, same, act⟩ := Code.runs_call call
  obtain rfl := Outcome.ending_inj.mp same
  refine ⟨outcome, ?_⟩
  cases outcome with
  | panic x =>
    obtain ⟨rfl, rfl, rfl⟩ := next
    exact ⟨rfl, ⟨inner, act⟩, by simp [disposalMarks, marks_of_act act, Deed.mark?, Outcome.panic?]⟩
  | ok =>
    obtain ⟨second, rfl, next⟩ := next
    simp only [Code.runs_record_bind, Code.runs_log_bind, Program.runs_pure] at next
    obtain ⟨_, rfl, _, rfl, rfl, rfl, rfl⟩ := next
    exact ⟨rfl, ⟨inner, act⟩, by simp [disposalMarks, marks_of_act act, Deed.mark?, Outcome.panic?]⟩
  | error =>
    obtain ⟨second, rfl, next⟩ := next
    simp only [Code.runs_record_bind, Code.runs_log_bind, Program.runs_pure] at next
    obtain ⟨_, rfl, _, rfl, _, rfl, rfl, rfl, rfl⟩ := next
    exact ⟨rfl, ⟨inner, act⟩, by simp [disposalMarks, marks_of_act act, Deed.mark?, Outcome.panic?]⟩

/-! ## Rounds -/

/-- The work on one task: when it was checked out, how it was processed and until when, and how and when
the call ended that disposed of it. -/
structure TaskRun (C : Client) where
  task : C.Task
  claimed : Nat
  processing : Processing C
  resumed : Nat
  disposal : Outcome Unit
  ended : Nat

namespace TaskRun

/-- The time from the checkout to the end of the processing. -/
def duration (run : TaskRun C) : Duration :=
  .ofMillis (run.resumed - run.claimed)

/-- The client's code that disposes of the task: `complete` of what the processing returned, and `fail`
with the error that it came to. -/
def disposalCode (it : Iteration C) (run : TaskRun C) : Code C (PoolResult Unit) :=
  match run.processing.outcome.caught with
  | .ok done => Code.act (it.processor.complete done run.duration)
  | .error e => Code.act (it.processor.fail run.task e)

/-- Whether the task was processed as the iteration has it, and then disposed of by a run of the code that
the client has for it. -/
structure Follows (it : Iteration C) (T : Option Nat) (run : TaskRun C) : Prop where
  processed : run.processing.Goes it T run.task run.claimed run.resumed
  disposed : ∃ steps, (run.disposalCode it).Runs T run.resumed steps run.disposal.ending run.ended

/-- Disposing of a task does not go back in time. -/
theorem Follows.resumed_le_ended {it : Iteration C} {run : TaskRun C} (h : run.Follows it T) :
    run.resumed ≤ run.ended := by
  obtain ⟨_, disposes⟩ := h.disposed
  exact disposes.le

/-- The marks of the call that disposed of the task. -/
def disposalMarks (worker : String) (run : TaskRun C) : List (Nat × Mark C) :=
  match run.processing.outcome.caught with
  | .ok done =>
    WorkerPool.disposalMarks (.complete done run.duration) .complete
      (.taskCompleted worker run.duration) run.resumed run.ended run.disposal
  | .error e =>
    WorkerPool.disposalMarks (.fail run.task e) .fail (.taskFailed worker run.duration) run.resumed
      run.ended run.disposal

/-- The marks of the work on a task, from its checkout on. -/
def marks (policy : RetryPolicy) (worker : String) (run : TaskRun C) : List (Nat × Mark C) :=
  (run.claimed, .ended (.checkout (.ok run.task))) :: (run.claimed, .made (.checkout (.ok run.task))) ::
    (run.claimed, .told (.taskCheckedOut worker)) ::
    run.processing.marks policy run.task run.claimed run.resumed ++
    panicMarks worker run.resumed run.processing.outcome ++ run.disposalMarks worker

/-- How the iteration ended. -/
def outcome (run : TaskRun C) : Outcome Unit :=
  match run.disposal, run.processing.outcome.caught with
  | .panic x, _ => .panic x
  | _, .error e => .error e
  | .ok (), .ok _ => .ok ()
  | .error e, .ok _ => .error e

end TaskRun

/-- The work on a task that has been checked out follows the iteration, however it ends, and these are its
marks. -/
theorem workOn_follows {e : Except Panic (PoolResult Unit)}
    (h : (it.workOn worker task).Runs T t steps e t') :
    ∃ run : TaskRun C, run.task = task ∧ run.claimed = t ∧ run.ended = t' ∧ run.Follows it T ∧
      e = run.outcome.ending ∧
      marks steps = (t, .told (.taskCheckedOut worker)) ::
        run.processing.marks it.retry task t run.resumed ++
        panicMarks worker run.resumed run.processing.outcome ++ run.disposalMarks worker := by
  simp only [Iteration.workOn, Code.runs_record_bind, Code.runs_log_bind, Code.runs_now_bind] at h
  obtain ⟨_, rfl, _, rfl, rest, rfl, h⟩ := h
  rcases Program.runs_bind.mp h with ⟨x, rfl, run⟩ | ⟨result, t₁, first, second, rfl, run, next⟩
  · obtain ⟨p, _, he, _⟩ := processGuarded_goes run
    cases he
  obtain ⟨p, goes, he, first_marks⟩ := processGuarded_goes run
  cases he
  rw [Code.runs_now_bind] at next
  obtain ⟨third, rfl, next⟩ := next
  -- Once it has been processed, a task is either completed or failed, by a call that may itself panic.
  cases caught : p.outcome.caught with
  | ok done =>
    rw [caught] at next
    obtain ⟨disposal, rfl, ⟨inner, disposes⟩, third_marks⟩ := completeTask_runs next
    refine ⟨⟨task, t, p, t₁, disposal, t'⟩, rfl, rfl, rfl, ⟨goes, inner, ?_⟩, ?_, ?_⟩
    · simpa [TaskRun.disposalCode, TaskRun.duration, caught] using disposes
    · cases disposal <;> simp [TaskRun.outcome, caught]
    · simp [first_marks, third_marks, TaskRun.disposalMarks, TaskRun.duration, caught, Deed.mark?]
  | error error =>
    rw [caught] at next
    obtain ⟨disposal, rfl, ⟨inner, disposes⟩, third_marks⟩ := failTask_runs next
    refine ⟨⟨task, t, p, t₁, disposal, t'⟩, rfl, rfl, rfl, ⟨goes, inner, ?_⟩, ?_, ?_⟩
    · simpa [TaskRun.disposalCode, caught] using disposes
    · cases disposal <;> simp [TaskRun.outcome, caught, Outcome.panic?, Outcome.ending]
    · simp [first_marks, third_marks, TaskRun.disposalMarks, TaskRun.duration, caught, Deed.mark?]

/-- What one iteration comes to: the work on a task, or a checkout that returned none. -/
inductive Round (C : Client) where
  | worked (run : TaskRun C)
  | idle (time : Nat) (error : PoolError)
  | panicked (time : Nat) (panic : Panic)

namespace Round

/-- Whether a task was worked on as the iteration has it, if there was one. -/
def Follows (it : Iteration C) (T : Option Nat) : Round C → Prop
  | worked run => run.Follows it T
  | idle _ _ | panicked _ _ => True

/-- The marks of an iteration. -/
def marks (policy : RetryPolicy) (worker : String) : Round C → List (Nat × Mark C)
  | worked run => run.marks policy worker
  | idle time error =>
    (time, .ended (.checkout (.error error))) :: (time, .made (.checkout (.error error))) ::
      if Iteration.isSignal error then [] else [(time, .told (.checkoutError worker))]
  | panicked time panic => [(time, .ended (.checkout (.panic panic)))]

/-- How the iteration ended. -/
def outcome : Round C → Outcome Unit
  | worked run => run.outcome
  | idle _ error => .error error
  | panicked _ x => .panic x

end Round

/-- Every iteration is a round. -/
theorem work_round {e : Except Panic (PoolResult Unit)} (h : (it.work worker).Runs T t steps e t') :
    ∃ round : Round C, round.Follows it T ∧ e = round.outcome.ending ∧
      marks steps = round.marks it.retry worker := by
  obtain ⟨outcome, first, t₁, call, next⟩ := Program.runs_bind_outcome h
  obtain ⟨ending, inner, rfl, same, act⟩ := Code.runs_call call
  obtain rfl := Outcome.ending_inj.mp same
  cases outcome with
  | panic x =>
    obtain ⟨rfl, rfl, rfl⟩ := next
    exact ⟨.panicked t' x, trivial, rfl, by simp [Round.marks, marks_of_act act, Deed.mark?]⟩
  | ok task =>
    obtain ⟨second, rfl, next⟩ := next
    rw [Code.runs_enter_bind] at next
    obtain ⟨_, rfl, next⟩ := next
    obtain ⟨run, rfl, rfl, rfl, follows, rfl, second_marks⟩ := workOn_follows next
    refine ⟨.worked run, follows, rfl, ?_⟩
    simp [Round.marks, TaskRun.marks, marks_of_act act, second_marks, Deed.mark?]
  | error error =>
    obtain ⟨second, rfl, next⟩ := next
    rw [Code.runs_enter_bind] at next
    obtain ⟨_, rfl, next⟩ := next
    refine ⟨.idle t₁ error, trivial, ?_⟩
    dsimp only at next
    by_cases signal : Iteration.isSignal error = true
    · simp only [if_pos signal, Program.runs_pure] at next
      obtain ⟨rfl, rfl, rfl⟩ := next
      exact ⟨rfl, by simp [Round.marks, marks_of_act act, signal, Deed.mark?]⟩
    · simp only [if_neg signal, Code.runs_log_bind, Code.runs_record_bind, Program.runs_pure] at next
      obtain ⟨_, rfl, _, rfl, rfl, rfl, rfl⟩ := next
      exact ⟨rfl, by simp [Round.marks, marks_of_act act, signal, Deed.mark?]⟩

/-! ## Layers around the work -/

/-- Whether marks are those of iterations, one after another. -/
def IsRounds (it : Iteration C) (T : Option Nat) (worker : String) (marks : List (Nat × Mark C)) :
    Prop :=
  ∃ rounds : List (Round C), (∀ round ∈ rounds, round.Follows it T) ∧
    marks = rounds.flatMap (·.marks it.retry worker)

theorem IsRounds.nil : IsRounds it T worker [] :=
  ⟨[], nofun, rfl⟩

theorem IsRounds.append {first second : List (Nat × Mark C)} (h : IsRounds it T worker first)
    (g : IsRounds it T worker second) : IsRounds it T worker (first ++ second) := by
  obtain ⟨rounds, follows, rfl⟩ := h
  obtain ⟨more, follows', rfl⟩ := g
  refine ⟨rounds ++ more, ?_, by rw [List.flatMap_append]⟩
  intro round mem
  rcases List.mem_append.mp mem with mem | mem
  · exact follows round mem
  · exact follows' round mem

/-- What a limit makes of a result does not show. -/
theorem marks_of_observe {limit : ErrorLimit} {result : PoolResult Unit}
    {e : Except Panic (PoolResult Unit)} (h : (limit.observe worker result).Runs T t steps e t') :
    marks steps = [] := by
  obtain ⟨_, _, _, observes⟩ := ErrorLimit.observes_of_runs h
  cases observes <;> rfl

/-- What a layer of the client does around work leaves no marks but those of the work. -/
theorem around_rounds {code : LayerAct C} {inner : Code C (PoolResult Unit)}
    (rounds : ∀ {t steps e t'}, inner.Runs T t steps e t' → IsRounds it T worker (marks steps))
    {e : Except Panic (PoolResult Unit)} (h : (Layer.around code inner).Runs T t steps e t') :
    IsRounds it T worker (marks steps) := by
  unfold Layer.around at h
  induction code generalizing t steps with
  | done | panic =>
    cases h
    exact .nil
  | ask request next ih =>
    cases request with
    | client request =>
      obtain ⟨answer, rest, _, rfl, run⟩ := (Program.runs_ask (.client request)).mp h
      have shown : IsRounds it T worker (marks rest) := ih answer run
      simpa [Deed.mark?] using shown
    | inner =>
      rcases Program.runs_bind.mp h with ⟨x, rfl, run⟩ | ⟨result, t₁, first, second, rfl, run, more⟩
      · exact rounds run
      · rw [marks_append]
        exact (rounds run).append (ih result more)
  | wait ms heeds next ih =>
    cases h with
    | wait ends rest =>
      have shown := ih _ rest
      simpa [Deed.mark?] using shown

/-- Whatever the layers, the marks of a call of the work are those of iterations. -/
theorem compose_rounds {layers : List (Layer C)} {e : Except Panic (PoolResult Unit)}
    (h : (Layer.compose layers it.work worker).Runs T t steps e t') :
    IsRounds it T worker (marks steps) := by
  induction layers generalizing t steps e t' with
  | nil =>
    obtain ⟨round, follows, _, marks_eq⟩ := work_round h
    exact ⟨[round], by simpa using follows, by simpa using marks_eq⟩
  | cons layer layers ih =>
    cases layer with
    | client code => exact around_rounds ih h
    | errorLimit limit =>
      rcases Program.runs_bind.mp h with ⟨x, rfl, run⟩ | ⟨result, t₁, first, second, rfl, run, last⟩
      · exact ih run
      · rw [marks_append, marks_of_observe last, List.append_nil]
        exact ih run

end WorkerPool