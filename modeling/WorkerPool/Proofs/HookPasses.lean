import WorkerPool.Hooks
import WorkerPool.Proofs.Observation

/-!
# How a pass over the hooks goes

A pass takes no time: a hook cannot wait. It calls the hooks that were registered when it began, one
after another, and it is over with the first that panics; a hook that fails is warned about and that is
all.
-/

namespace WorkerPool

variable {C : Client} {T : Option Nat} {t t' : Nat} {steps : List (Step C)}

/-- The call of a hook, and how it ended. -/
structure HookCall (C : Client) where
  hook : C.Hook
  outcome : Outcome Unit

/-- The calls of a pass over hooks, and the panic that ended it, if one did. -/
inductive HookPass : List C.Hook → List (HookCall C) → Option Panic → Prop
  | done : HookPass [] [] none
  | panicked (hook : C.Hook) (rest : List C.Hook) (x : Panic) :
      HookPass (hook :: rest) [⟨hook, .panic x⟩] (some x)
  | next (hook : C.Hook) {rest : List C.Hook} {outcome : Outcome Unit} {calls : List (HookCall C)}
      {panic : Option Panic} (survived : outcome.panic? = none) (more : HookPass rest calls panic) :
      HookPass (hook :: rest) (⟨hook, outcome⟩ :: calls) panic

/-- The marks of a pass. -/
def passMarks (time : Nat) (made : C.Hook → Call C) (ended : Outcome Unit → Ending C)
    (calls : List (HookCall C)) : List (Nat × Mark C) :=
  calls.flatMap fun call => [(time, .made (made call.hook)), (time, .ended (ended call.outcome))]

/-- How code ended that has no result: with a panic, if there was one. -/
def endingOf (panic : Option Panic) : Except Panic Unit :=
  match panic with
  | none => .ok ()
  | some x => .error x

/-! ## One hook -/

/-- A deed of a hook takes no time, cannot panic and leaves no mark. -/
theorem HookStep.code_runs {step : HookStep C} {e : Except Panic Unit}
    (h : step.code.Runs T t steps e t') : e = .ok () ∧ t' = t ∧ marks steps = [] := by
  cases step <;>
  · obtain ⟨answer, rest, _, rfl, done⟩ := (Program.runs_ask _).mp h
    cases done
    exact ⟨rfl, rfl, rfl⟩

/-- Neither do all the deeds of a hook together. -/
theorem HookStep.codeOf_runs {list : List (HookStep C)} {e : Except Panic Unit}
    (h : (HookStep.codeOf list).Runs T t steps e t') : e = .ok () ∧ t' = t ∧ marks steps = [] := by
  induction list generalizing steps with
  | nil =>
    cases h
    exact ⟨rfl, rfl, rfl⟩
  | cons step rest ih =>
    rcases Program.runs_bind.mp h with ⟨x, rfl, run⟩ | ⟨_, t₁, first, second, rfl, run, more⟩
    · cases (code_runs run).1
    · obtain ⟨_, rfl, no_first⟩ := code_runs run
      obtain ⟨he, ht, no_second⟩ := ih more
      exact ⟨he, ht, by rw [marks_append, no_first, no_second]; rfl⟩

/-- What a hook does takes no time and leaves no marks. -/
theorem runHook_runs {reply : C.State → HookReply C} {e : Except Panic (PoolResult Unit)}
    (h : (runHook reply).Runs T t steps e t') : t' = t ∧ marks steps = [] := by
  obtain ⟨state, rest, _, rfl, run⟩ := (Program.runs_ask _).mp h
  rcases Program.runs_bind.mp run with ⟨x, rfl, code⟩ | ⟨_, t₁, first, second, rfl, code, last⟩
  · cases (HookStep.codeOf_runs code).1
  · obtain ⟨_, rfl, none⟩ := HookStep.codeOf_runs code
    obtain ⟨rfl, _, rfl⟩ := Program.runs_ofOutcome.mp last
    exact ⟨rfl, by simpa [Deed.mark?] using none⟩

/-- A call of a hook takes no time, and its one mark says how the hook ended. -/
theorem call_hook_runs {ended : Outcome Unit → Ending C} {reply : C.State → HookReply C}
    {outcome : Outcome Unit} (h : (Code.call ended (runHook reply)).Runs T t steps outcome.ending t') :
    t' = t ∧ marks steps = [(t, .ended (ended outcome))] := by
  obtain ⟨ending, inner, rfl, same, run⟩ := Code.runs_call h
  obtain rfl := Outcome.ending_inj.mp same
  obtain ⟨rfl, none⟩ := runHook_runs run
  exact ⟨rfl, by simp [none, Deed.mark?]⟩

/-! ## A pass -/

/-- A warning takes no time and leaves no mark. -/
theorem marks_of_warnHookFailed {text worker taskId : String} {index : Nat} {error : PoolError}
    {e : Except Panic Unit} (h : (warnHookFailed text worker taskId index error).Runs T t steps e t') :
    e = .ok () ∧ t' = t ∧ marks steps = [] := by
  obtain ⟨rfl, rfl, rfl⟩ := Code.runs_log.mp h
  exact ⟨rfl, rfl, rfl⟩

section

variable {text worker taskId : String} {made : C.Hook → Call C} {ended : Outcome Unit → Ending C}
  {reply : C.Hook → C.State → HookReply C} {e : Except Panic Unit}

/-- Running hooks takes no time, calls one after another as `HookPass` has it, and ends with the panic that cut
it short, if one did. -/
theorem runHooksFrom_pass {index : Nat} {hooks : List C.Hook}
    (h : (runHooksFrom text worker taskId made ended reply index hooks).Runs T t steps e t') :
    ∃ calls panic, HookPass hooks calls panic ∧ t' = t ∧ e = endingOf panic ∧
      marks steps = passMarks t made ended calls := by
  induction hooks generalizing steps index with
  | nil =>
    cases h
    exact ⟨[], none, .done, rfl, rfl, rfl⟩
  | cons hook rest ih =>
    rw [runHooksFrom, Code.runs_enter_bind] at h
    obtain ⟨_, rfl, h⟩ := h
    obtain ⟨outcome, first, t₁, call, next⟩ := Program.runs_bind_outcome h
    obtain ⟨rfl, first_marks⟩ := call_hook_runs call
    -- A panic ends the pass; otherwise it goes on with the next hook, after a warning if this one failed.
    cases outcome with
    | panic x =>
      obtain ⟨rfl, rfl, rfl⟩ := next
      exact ⟨[⟨hook, .panic x⟩], some x, .panicked hook rest x, rfl, rfl,
        by simp [passMarks, first_marks, Deed.mark?]⟩
    | ok value =>
      obtain ⟨second, rfl, next⟩ := next
      obtain ⟨calls, panic, pass, rfl, he, second_marks⟩ := ih next
      exact ⟨⟨hook, .ok value⟩ :: calls, panic, .next hook rfl pass, rfl, he,
        by simp [passMarks, first_marks, second_marks, Deed.mark?]⟩
    | error error =>
      obtain ⟨second, rfl, next⟩ := next
      rcases Program.runs_bind.mp next with ⟨x, rfl, warn⟩ | ⟨_, t₂, warning, third, rfl, warn, others⟩
      · cases (marks_of_warnHookFailed warn).1
      · obtain ⟨_, rfl, no_marks⟩ := marks_of_warnHookFailed warn
        obtain ⟨calls, panic, pass, rfl, he, third_marks⟩ := ih others
        exact ⟨⟨hook, .error error⟩ :: calls, panic, .next hook rfl pass, rfl, he,
          by simp [passMarks, first_marks, no_marks, third_marks, Deed.mark?]⟩

end

variable {P : Processor C} {worker : String} {task : C.Task} {e : Except Panic Unit}

/-- So goes the pass before a task. -/
theorem runPre_pass (h : (P.runPre worker task).Runs T t steps e t') :
    ∃ hooks calls panic, HookPass hooks calls panic ∧ t' = t ∧ e = endingOf panic ∧
      marks steps = passMarks t (.preHook · task) .preHook calls := by
  obtain ⟨hooks, rest, rfl, run⟩ := Code.runs_registered_bind.mp h
  obtain ⟨calls, panic, pass, ht, he, marks_eq⟩ := runHooksFrom_pass run
  exact ⟨hooks, calls, panic, pass, ht, he, by simpa [Deed.mark?] using marks_eq⟩

/-- So goes the pass after a task. -/
theorem runPost_pass {error : Option PoolError} (h : (P.runPost worker task error).Runs T t steps e t') :
    ∃ hooks calls panic, HookPass hooks calls panic ∧ t' = t ∧ e = endingOf panic ∧
      marks steps = passMarks t (.postHook · task error) .postHook calls := by
  obtain ⟨hooks, rest, rfl, run⟩ := Code.runs_registered_bind.mp h
  obtain ⟨calls, panic, pass, ht, he, marks_eq⟩ := runHooksFrom_pass run
  exact ⟨hooks, calls, panic, pass, ht, he, by simpa [Deed.mark?] using marks_eq⟩

end WorkerPool
