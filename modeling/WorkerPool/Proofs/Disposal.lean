import WorkerPool.Proofs.Histories
import WorkerPool.Proofs.TaskRuns

/-!
# Every task is disposed of once

What a worker's calls of client code are, over a whole run of a pool, is a matter of rounds: in each, a
checkout, and if that returned a task, the hooks before it, the attempts, the hooks after it, and one
call that completes or fails the task (`TaskRun.calls`). How these hang together is `TaskRun.Orderly`, and
`TaskRun.Follows.terminal_runs` says that the last of them is a run of the client's code for it. In every
run the calls of each worker are the beginning of such rounds, and all of them when the run has returned
(`runs_dispose`). The same goes for whatever else shows of a worker, beside what its loop tells of itself
(`runs_rounds`).
-/

namespace WorkerPool

variable {C : Client} {α : Type} {T : Option Nat} {t t' : Nat} {steps : List (Step C)}

/-! ## Calls -/

/-- Whether a mark is that of a call of client code. -/
def Mark.isCall : Mark C → Bool
  | .told _ => false
  | _ => true

/-- Whether a mark is that of a call that disposes of a task. -/
def Mark.isTerminal : Mark C → Bool
  | .made (.complete ..) | .made (.fail ..) => true
  | _ => false

/-- The marks of the calls of client code. -/
def callsIn (marks : List (Nat × Mark C)) : List (Nat × Mark C) :=
  marks.filter fun mark => mark.2.isCall

/-- The calls that dispose of a task. -/
def terminalsIn (marks : List (Nat × Mark C)) : List (Nat × Mark C) :=
  marks.filter fun mark => mark.2.isTerminal

@[simp] theorem callsIn_append (first second : List (Nat × Mark C)) :
    callsIn (first ++ second) = callsIn first ++ callsIn second :=
  List.filter_append ..

@[simp] theorem terminalsIn_append (first second : List (Nat × Mark C)) :
    terminalsIn (first ++ second) = terminalsIn first ++ terminalsIn second :=
  List.filter_append ..

/-- Where no item shows a terminal call, there is none in all of them. -/
theorem terminalsIn_flatMap_eq_nil {ι : Type} {f : ι → List (Nat × Mark C)} (items : List ι)
    (none : ∀ item, terminalsIn (f item) = []) : terminalsIn (items.flatMap f) = [] := by
  induction items with
  | nil => rfl
  | cons item rest ih => rw [List.flatMap_cons, terminalsIn_append, none item, ih, List.append_nil]

/-- The calls of attempts at a task. -/
def attemptCalls (task : C.Task) (attempts : List (Stretch C C.Task)) : List (Nat × Mark C) :=
  attempts.flatMap fun a => [(a.begun, .made (.process task)), (a.ended, .ended (.process a.outcome))]

/-- Hooks leave no marks but those of calls. -/
theorem callsIn_passMarks (time : Nat) (made : C.Hook → Call C) (ended : Outcome Unit → Ending C)
    (pass : List (HookCall C)) : callsIn (passMarks time made ended pass) = passMarks time made ended pass := by
  unfold callsIn passMarks
  rw [List.filter_eq_self]
  intro mark mem
  obtain ⟨call, _, mem⟩ := List.mem_flatMap.mp mem
  simp only [List.mem_cons, List.not_mem_nil, or_false] at mem
  rcases mem with rfl | rfl
  · rfl
  · rfl

/-- Of attempts, the calls remain, and not what the collector is told of retries. -/
theorem callsIn_attemptMarks (task : C.Task) (n : Nat) (attempts : List (Stretch C C.Task)) :
    callsIn (attemptMarks task n attempts) = attemptCalls task attempts := by
  induction attempts generalizing n with
  | nil => rfl
  | cons a more ih =>
    have retried : callsIn (if 1 < n then [(a.begun, (.told (.retryAttempt n) : Mark C))] else []) = [] := by
      split <;> rfl
    have rest := ih (n + 1)
    rw [attemptMarks, callsIn_append, retried, List.nil_append, attemptCalls, List.flatMap_cons,
      ← attemptCalls, ← rest]
    rfl

/-- A verdict on retries is told to the collector, and is no call. -/
theorem callsIn_verdictMarks (policy : RetryPolicy) (count time : Nat) (result : Outcome α) :
    callsIn (verdictMarks policy count time result : List (Nat × Mark C)) = [] := by
  rw [callsIn, List.filter_eq_nil_iff]
  intro mark mem
  obtain ⟨metric, _, rfl⟩ := List.mem_map.mp mem
  exact Bool.false_ne_true

/-- A panic is told to the collector, and is no call. -/
theorem callsIn_panicMarks (worker : String) (time : Nat) (outcome : Outcome α) :
    callsIn (panicMarks worker time outcome : List (Nat × Mark C)) = [] := by
  cases outcome <;> rfl

/-- Disposing of a task is one call, from when it is made to when it has ended. -/
theorem callsIn_disposalMarks (made : Call C) (ended : Outcome Unit → Ending C) (metric : Metric)
    (t t' : Nat) (outcome : Outcome Unit) :
    callsIn (disposalMarks made ended metric t t' outcome) = [(t, .made made), (t', .ended (ended outcome))] := by
  unfold disposalMarks
  split <;> rfl

/-! ## Rounds -/

namespace TaskRun

/-- The call that disposes of the task. -/
def terminal (run : TaskRun C) : Call C :=
  match run.processing.outcome.caught with
  | .ok done => .complete done run.duration
  | .error e => .fail run.task e

/-- How the call ended that disposed of the task. -/
def ending (run : TaskRun C) : Ending C :=
  match run.processing.outcome.caught with
  | .ok _ => .complete run.disposal
  | .error _ => .fail run.disposal

/-- The calls of the work on a task. -/
def calls (run : TaskRun C) : List (Nat × Mark C) :=
  [(run.claimed, .ended (.checkout (.ok run.task))), (run.claimed, .made (.checkout (.ok run.task)))] ++
    passMarks run.claimed (.preHook · run.task) .preHook run.processing.pre ++
    attemptCalls run.task run.processing.attempts ++
    passMarks run.resumed (Processing.postCall run.task run.processing.tried) .postHook
      run.processing.post ++
    [(run.resumed, .made run.terminal), (run.ended, .ended run.ending)]

/-- The calls among the marks of the work on a task are those that `TaskRun.calls` lists. -/
theorem callsIn_marks (policy : RetryPolicy) (worker : String) (run : TaskRun C) :
    callsIn (run.marks policy worker) = run.calls := by
  have disposed : callsIn (run.disposalMarks worker) =
      [(run.resumed, .made run.terminal), (run.ended, .ended run.ending)] := by
    unfold disposalMarks terminal ending
    cases run.processing.outcome.caught with
    | ok => exact callsIn_disposalMarks ..
    | error => exact callsIn_disposalMarks ..
  have tried : callsIn (run.processing.tried.elim []
      (verdictMarks policy run.processing.attempts.length run.resumed)) = ([] : List (Nat × Mark C)) := by
    cases run.processing.tried with
    | none => rfl
    | some result => exact callsIn_verdictMarks ..
  have processed : callsIn (run.processing.marks policy run.task run.claimed run.resumed) =
      passMarks run.claimed (.preHook · run.task) .preHook run.processing.pre ++
        attemptCalls run.task run.processing.attempts ++
        passMarks run.resumed (Processing.postCall run.task run.processing.tried) .postHook
          run.processing.post := by
    simp only [Processing.marks, callsIn_append, callsIn_passMarks, callsIn_attemptMarks, tried,
      List.append_nil]
  have claimed (rest : List (Nat × Mark C)) :
      callsIn ((run.claimed, .ended (.checkout (.ok run.task))) ::
        (run.claimed, .made (.checkout (.ok run.task))) ::
        (run.claimed, .told (.taskCheckedOut worker)) :: rest) =
      (run.claimed, .ended (.checkout (.ok run.task))) ::
        (run.claimed, .made (.checkout (.ok run.task))) :: callsIn rest := rfl
  simp only [marks, calls, List.cons_append, claimed, callsIn_append, processed, callsIn_panicMarks,
    disposed, List.nil_append, List.append_assoc]

end TaskRun

/-- The calls of a round. -/
def Round.calls : Round C → List (Nat × Mark C)
  | worked run => run.calls
  | idle time error =>
    [(time, .ended (.checkout (.error error))), (time, .made (.checkout (.error error)))]
  | panicked time panic => [(time, .ended (.checkout (.panic panic)))]

/-- The calls among the marks of a round are those that `Round.calls` lists. -/
theorem Round.callsIn_marks (policy : RetryPolicy) (worker : String) (round : Round C) :
    callsIn (round.marks policy worker) = round.calls := by
  cases round with
  | worked run => exact run.callsIn_marks policy worker
  | idle time error =>
    simp only [Round.marks, Round.calls]
    split <;> rfl
  | panicked => rfl

/-! ## How a round hangs together -/

/-- Whether a call ended in a panic. -/
def Outcome.Panics (outcome : Outcome α) : Prop :=
  ∃ x, outcome = .panic x

/-- What carries no panic has not panicked. -/
theorem Outcome.not_panics_of_panic?_eq_none {outcome : Outcome α} (h : outcome.panic? = none) :
    ¬ outcome.Panics := by
  rintro ⟨x, rfl⟩
  cases h

namespace HookPass

variable {hooks : List C.Hook} {pass : List (HookCall C)} {panic : Option Panic}

/-- A pass ends with a panic just if one of its hooks panicked. -/
theorem panics_iff (h : HookPass hooks pass panic) :
    (∃ call ∈ pass, call.outcome.Panics) ↔ panic.isSome = true := by
  induction h with
  | done => simp
  | panicked hook rest x => simp [Outcome.Panics]
  | next hook survived _ ih =>
    simp only [List.mem_cons, exists_eq_or_imp, Outcome.not_panics_of_panic?_eq_none survived, false_or, ih]

/-- A hook that panics is the last of its pass. -/
theorem last_of_panics (h : HookPass hooks pass panic) (i : Nat) (call : HookCall C)
    (at_i : pass[i]? = some call) (panics : call.outcome.Panics) : i + 1 = pass.length := by
  induction h generalizing i with
  | done => cases at_i
  | panicked hook rest x =>
    obtain ⟨lt, _⟩ := List.getElem?_eq_some_iff.mp at_i
    simpa using lt
  | next hook survived _ ih =>
    cases i with
    | zero =>
      cases at_i
      exact absurd panics (Outcome.not_panics_of_panic?_eq_none survived)
    | succ i => rw [List.length_cons, ih i at_i]

end HookPass

section

variable {it : Iteration C} {task : C.Task} {attempts : List (Stretch C C.Task)}
  {result : Outcome C.Task}

/-- There is an attempt at least. -/
theorem Tries.ne_nil (h : Tries it T task t attempts result t') : attempts ≠ [] := by
  obtain ⟨_, last, course⟩ := h
  rintro rfl
  cases course.last_eq

/-- If an attempt panicked, it is the last one. -/
theorem Tries.panics_iff (h : Tries it T task t attempts result t') :
    (∃ a ∈ attempts, a.outcome.Panics) ↔ result.Panics := by
  obtain ⟨_, last, course⟩ := h
  constructor
  · rintro ⟨a, mem, x, panic⟩
    obtain ⟨i, lt, at_i⟩ := List.getElem_of_mem mem
    have at_i? : attempts[i]? = some a := List.getElem?_eq_some_iff.mpr ⟨lt, at_i⟩
    by_cases more : i + 1 < attempts.length
    · obtain ⟨⟨e, failed⟩, _⟩ := course.between i a _ at_i? (List.getElem?_eq_getElem more)
      rw [panic] at failed
      cases failed
    · have last_eq := course.last_eq
      rw [List.getLast?_eq_getElem?, show attempts.length - 1 = i by omega, at_i?] at last_eq
      cases last_eq
      exact ⟨x, (course.panicked_iff x).mpr panic⟩
  · rintro ⟨x, rfl⟩
    exact ⟨last, List.mem_of_getLast? course.last_eq, x, (course.panicked_iff x).mp rfl⟩

/-- Retries succeed with what the last attempt returned. -/
theorem Tries.ok_iff (h : Tries it T task t attempts result t') (done : C.Task) :
    result = .ok done ↔ ∃ last, attempts.getLast? = some last ∧ last.outcome = .ok done := by
  obtain ⟨_, last, course⟩ := h
  rw [course.succeeded_iff, course.last_eq]
  simp

end

namespace Processing.Goes

variable {it : Iteration C} {task : C.Task} {p : Processing C}

/-- The hooks before a task make a pass, whatever became of the task. -/
theorem pre_pass (h : p.Goes it T task t t') : ∃ hooks panic, HookPass hooks p.pre panic := by
  cases h with
  | unbegun pass | panicked pass | finished pass => exact ⟨_, _, pass⟩

/-- So do the hooks after it, which may be none. -/
theorem post_pass (h : p.Goes it T task t t') : ∃ hooks panic, HookPass hooks p.post panic := by
  cases h with
  | unbegun | panicked => exact ⟨_, _, .done⟩
  | finished _ _ _ pass' => exact ⟨_, _, pass'⟩

/-- Where there are attempts, they go as the policy has it. -/
theorem tries (h : p.Goes it T task t t') (tried : p.attempts ≠ []) :
    ∃ result, p.tried = some result ∧ Tries it T task t p.attempts result t' := by
  cases h with
  | unbegun => exact absurd rfl tried
  | panicked _ tries | finished _ tries => exact ⟨_, rfl, tries⟩

/-- A task is left untried only because a hook before it panicked. -/
theorem untried_iff (h : p.Goes it T task t t') :
    p.attempts = [] ↔ ∃ call ∈ p.pre, call.outcome.Panics := by
  cases h with
  | unbegun pass => exact iff_of_true rfl (pass.panics_iff.mpr rfl)
  | panicked pass tries | finished pass tries =>
    refine iff_of_false tries.ne_nil fun panics => ?_
    cases pass.panics_iff.mp panics

/-- After a panic in a hook or in an attempt, no hook is run any more. -/
theorem unhooked (h : p.Goes it T task t t')
    (panics : (∃ call ∈ p.pre, call.outcome.Panics) ∨ ∃ a ∈ p.attempts, a.outcome.Panics) :
    p.post = [] := by
  cases h with
  | unbegun | panicked => rfl
  | finished pass tries survived =>
    rcases panics with panics | panics
    · cases pass.panics_iff.mp panics
    · exact absurd (tries.panics_iff.mp panics) (Outcome.not_panics_of_panic?_eq_none survived)

/-- Processing succeeds if nothing panics and the last attempt succeeds. -/
theorem ok_iff (h : p.Goes it T task t t') (done : C.Task) :
    p.outcome = .ok done ↔ (∀ call ∈ p.pre ++ p.post, ¬ call.outcome.Panics) ∧
      (∀ a ∈ p.attempts, ¬ a.outcome.Panics) ∧
      ∃ last, p.attempts.getLast? = some last ∧ last.outcome = .ok done := by
  cases h with
  -- Only a processing that went all the way can end well; the others have ended with a panic.
  | unbegun pass =>
    refine iff_of_false nofun ?_
    rintro ⟨_, _, last, last_eq, _⟩
    cases last_eq
  | panicked pass tries =>
    refine iff_of_false nofun ?_
    rintro ⟨_, calm, _⟩
    obtain ⟨a, mem, panics⟩ := tries.panics_iff.mpr ⟨_, rfl⟩
    exact calm a mem panics
  | @finished _ _ _ _ _ result panic _ pass tries survived pass' =>
    cases panic with
    | some x =>
      refine iff_of_false nofun ?_
      rintro ⟨calm, _⟩
      obtain ⟨call, mem, panics⟩ := pass'.panics_iff.mpr rfl
      exact calm call (List.mem_append_right _ mem) panics
    | none =>
      rw [Option.elim_none, tries.ok_iff]
      -- Nothing has panicked, so the outcome is that of the last attempt.
      refine ⟨fun succeeded => ⟨?_, ?_, succeeded⟩, fun ⟨_, _, succeeded⟩ => succeeded⟩
      · intro call mem panics
        rcases List.mem_append.mp mem with mem | mem
        · cases pass.panics_iff.mp ⟨call, mem, panics⟩
        · cases pass'.panics_iff.mp ⟨call, mem, panics⟩
      · intro a mem panics
        exact Outcome.not_panics_of_panic?_eq_none survived (tries.panics_iff.mp ⟨a, mem, panics⟩)

end Processing.Goes

/-- How the calls of the work on a task hang together. -/
structure TaskRun.Orderly (maxAttempts : Nat) (run : TaskRun C) : Prop where
  /-- A hook that panics is the last of its pass. -/
  pre_last : ∀ (i : Nat) (call : HookCall C), run.processing.pre[i]? = some call →
    call.outcome.Panics → i + 1 = run.processing.pre.length
  post_last : ∀ (i : Nat) (call : HookCall C), run.processing.post[i]? = some call →
    call.outcome.Panics → i + 1 = run.processing.post.length
  /-- There are attempts unless a hook before them panicked, and no more than the policy has. -/
  untried_iff : run.processing.attempts = [] ↔ ∃ call ∈ run.processing.pre, call.outcome.Panics
  length_le : run.processing.attempts.length ≤ maxAttempts
  /-- An attempt that another one follows returned an error. -/
  failed : ∀ (i : Nat) (a b : Stretch C C.Task), run.processing.attempts[i]? = some a →
    run.processing.attempts[i + 1]? = some b → ∃ e, a.outcome = .error e
  /-- After a panic there are no hooks. -/
  unhooked : (∃ call ∈ run.processing.pre, call.outcome.Panics) ∨
    (∃ a ∈ run.processing.attempts, a.outcome.Panics) → run.processing.post = []
  /-- The task is completed if nothing panicked and the last attempt succeeded, with what that one
  returned. -/
  completes_iff : ∀ done, run.terminal = .complete done run.duration ↔
    (∀ call ∈ run.processing.pre ++ run.processing.post, ¬ call.outcome.Panics) ∧
      (∀ a ∈ run.processing.attempts, ¬ a.outcome.Panics) ∧
      ∃ last, run.processing.attempts.getLast? = some last ∧ last.outcome = .ok done
  /-- Otherwise it is failed, as it was checked out. -/
  fails : (∀ done, run.terminal ≠ .complete done run.duration) → ∃ e, run.terminal = .fail run.task e
  /-- One call disposes of the task. -/
  once : terminalsIn run.calls = [(run.resumed, .made run.terminal)]

namespace TaskRun

variable {it : Iteration C} {run : TaskRun C}

/-- Among the calls of the work on a task, there is one that disposes of it, and it is the last. -/
theorem terminalsIn_calls (run : TaskRun C) :
    terminalsIn run.calls = [(run.resumed, .made run.terminal)] := by
  have pre : terminalsIn (passMarks run.claimed (.preHook · run.task) .preHook run.processing.pre) = [] :=
    terminalsIn_flatMap_eq_nil _ fun _ => rfl
  have attempts : terminalsIn (attemptCalls run.task run.processing.attempts) = [] :=
    terminalsIn_flatMap_eq_nil _ fun _ => rfl
  have post : terminalsIn (passMarks run.resumed (Processing.postCall run.task run.processing.tried)
      .postHook run.processing.post) = [] := by
    refine terminalsIn_flatMap_eq_nil _ fun call => ?_
    unfold Processing.postCall
    split <;> rfl
  have last : terminalsIn [(run.resumed, .made run.terminal), (run.ended, .ended run.ending)] =
      [(run.resumed, .made run.terminal)] := by
    unfold terminal
    split <;> rfl
  rw [calls, terminalsIn_append, terminalsIn_append, terminalsIn_append, terminalsIn_append, pre,
    attempts, post, last]
  rfl

/-- The task is completed with what the processing returned, if that returned anything. -/
theorem terminal_eq_complete_iff (run : TaskRun C) (done : C.Task) :
    run.terminal = .complete done run.duration ↔ run.processing.outcome = .ok done := by
  unfold terminal
  cases run.processing.outcome with
  | ok => simp [Outcome.caught]
  | error | panic => simp [Outcome.caught]

/-- What is not completed is failed. -/
theorem terminal_eq_fail (run : TaskRun C)
    (h : ∀ done, run.terminal ≠ .complete done run.duration) : ∃ e, run.terminal = .fail run.task e := by
  unfold terminal at h ⊢
  cases caught : run.processing.outcome.caught with
  | ok done =>
    rw [caught] at h
    exact absurd rfl (h done)
  | error e => exact ⟨e, rfl⟩

/-- What lies between the marks of the call that disposes of the task is a run of the client's code for that call,
and it ended as the marks have it. -/
theorem Follows.terminal_runs (h : run.Follows it T) :
    (∀ done, run.terminal = .complete done run.duration → ∃ steps,
      (Code.act (it.processor.complete done run.duration)).Runs T run.resumed steps run.disposal.ending run.ended) ∧
    ∀ e, run.terminal = .fail run.task e → ∃ steps,
      (Code.act (it.processor.fail run.task e)).Runs T run.resumed steps run.disposal.ending run.ended := by
  obtain ⟨steps, disposes⟩ := h.disposed
  unfold disposalCode at disposes
  unfold terminal
  cases caught : run.processing.outcome.caught with
  | ok done =>
    rw [caught] at disposes
    refine ⟨?_, nofun⟩
    rintro _ ⟨⟩
    exact ⟨steps, disposes⟩
  | error e =>
    rw [caught] at disposes
    refine ⟨nofun, ?_⟩
    rintro _ ⟨⟩
    exact ⟨steps, disposes⟩

/-- The work on a task is orderly. -/
theorem Follows.orderly (h : run.Follows it T) : run.Orderly it.retry.maxAttempts := by
  have goes := h.processed
  obtain ⟨_, _, pre⟩ := goes.pre_pass
  obtain ⟨_, _, post⟩ := goes.post_pass
  constructor
  case pre_last => exact pre.last_of_panics
  case post_last => exact post.last_of_panics
  case untried_iff => exact goes.untried_iff
  case length_le =>
    by_cases untried : run.processing.attempts = []
    · rw [untried]
      exact Nat.zero_le _
    · obtain ⟨_, _, _, _, course⟩ := goes.tries untried
      exact course.length_le
  case failed =>
    intro i a b at_i at_next
    obtain ⟨_, _, _, _, course⟩ := goes.tries (List.ne_nil_of_mem (List.mem_of_getElem? at_i))
    exact (course.between i a b at_i at_next).1
  case unhooked => exact goes.unhooked
  case completes_iff => exact fun done => (run.terminal_eq_complete_iff done).trans (goes.ok_iff done)
  case fails => exact run.terminal_eq_fail
  case once => exact run.terminalsIn_calls

end TaskRun

/-- Whether the work of a round is orderly, if it came to work. -/
def Round.Orderly (maxAttempts : Nat) : Round C → Prop
  | worked run => run.Orderly maxAttempts
  | idle _ _ | panicked _ _ => True

/-- The work in a round is orderly, if there was any. -/
theorem Round.Follows.orderly {it : Iteration C} {round : Round C} (h : round.Follows it T) :
    round.Orderly it.retry.maxAttempts := by
  cases round with
  | worked run => exact TaskRun.Follows.orderly h
  | idle | panicked => exact trivial

/-! ## Loops -/

namespace Worker

variable {w : Worker C}

/-- What shows of a call of the work is what shows within it, and its panic. -/
theorem marks_story (id : String) (shift : Shift C) :
    marks (shift.story id) = marks shift.call.steps ++ panicMarks id shift.call.ended shift.call.outcome := by
  have silent : marks shift.handover = [] := by
    unfold Shift.handover
    split
    · rfl
    · split <;> rfl
  have waited (rest : List (Step C)) :
      marks (⟨shift.call.begun, .waited true .elapsed⟩ :: rest) = marks rest := rfl
  rw [Shift.story, List.cons_append, List.cons_append, waited, marks_append, marks_append, marks_unlogged,
    silent, List.append_nil]
  unfold Shift.panicNote
  cases shift.call.outcome <;> rfl

/-- The marks of steps one after another are their marks one after another. -/
theorem marks_flatMap {ι : Type} (f : ι → List (Step C)) (items : List ι) :
    marks (items.flatMap f) = items.flatMap fun item => marks (f item) := by
  induction items with
  | nil => rfl
  | cons item rest ih => rw [List.flatMap_cons, marks_append, ih, List.flatMap_cons]

/-- Of a departure, nothing shows but that the worker says that it stops. -/
theorem marks_departure (state : WorkerState) (next : Option WorkerState) (time : Nat) :
    marks (w.departure state next time) =
      if next = none then [(time, .told (.workerStopped w.id))] else [] := by
  unfold departure
  split <;> rfl

/-- What shows of calls of the work, and of those that panicked. -/
def callMarks (w : Worker C) (shifts : List (Shift C)) : List (Nat × Mark C) :=
  shifts.flatMap fun shift =>
    marks shift.call.steps ++ panicMarks w.id shift.call.ended shift.call.outcome

/-- What shows of a loop: that it began, its calls of the work, and that it ended. -/
theorem Loops.marks_eq {steps : List (Step C)} {e : Except Panic (Option WorkerState)}
    (h : w.Loops T t steps e t') :
    ∃ (next : Option WorkerState) (shifts : List (Shift C)), e = .ok next ∧
      (∀ shift ∈ shifts, shift.call.IsOf T (w.work w.id)) ∧
      marks steps = (t, .told (.workerStarted w.id)) :: w.callMarks shifts ++
        if next = none then [(t', .told (.workerStopped w.id))] else [] := by
  obtain ⟨next, did, shifts, he, unlogged_eq, row, _, did_eq, _⟩ := h.consists
  refine ⟨next, shifts, he, row.isOf, ?_⟩
  rw [← marks_unlogged, unlogged_eq, did_eq, marks_cons, marks_append, marks_departure, marks_flatMap]
  simp only [marks_story]
  rfl

variable {it : Iteration C} {layers : List (Layer C)} {shows : Mark C → Bool}

/-- What shows of calls of the work, beside that they panicked, is what shows of rounds. -/
theorem filter_callMarks (work : w.work = Layer.compose layers it.work)
    (quiet : shows (.told (.workerPanicked w.id)) = false) {shifts : List (Shift C)}
    (isOf : ∀ shift ∈ shifts, shift.call.IsOf T (w.work w.id)) :
    ∃ shown, IsRounds it T w.id shown ∧
      (w.callMarks shifts).filter (fun mark => shows mark.2) = shown.filter fun mark => shows mark.2 := by
  induction shifts with
  | nil => exact ⟨[], .nil, rfl⟩
  | cons shift rest ih =>
    obtain ⟨later, rounds, later_eq⟩ := ih fun other mem => isOf other (by simp [mem])
    have run : shift.call.IsOf T (Layer.compose layers it.work w.id) := work ▸ isOf shift (by simp)
    have panicked : (panicMarks w.id shift.call.ended shift.call.outcome).filter (fun mark => shows mark.2) = [] := by
      cases shift.call.outcome <;> simp [panicMarks, quiet]
    refine ⟨marks shift.call.steps ++ later, (compose_rounds run).append rounds, ?_⟩
    rw [callMarks, List.flatMap_cons, ← callMarks, List.filter_append, List.filter_append, panicked, later_eq,
      List.append_nil, List.filter_append]

/-- What shows of a loop, beside what it tells of itself, is what shows of rounds. -/
theorem Loops.filter_marks (work : w.work = Layer.compose layers it.work)
    (quiet : shows (.told (.workerStarted w.id)) = false ∧ shows (.told (.workerStopped w.id)) = false ∧
      shows (.told (.workerPanicked w.id)) = false)
    {e : Except Panic (Option WorkerState)} (h : w.Loops T t steps e t') :
    ∃ shown, IsRounds it T w.id shown ∧
      (marks steps).filter (fun mark => shows mark.2) = shown.filter fun mark => shows mark.2 := by
  obtain ⟨next, shifts, _, isOf, marks_eq⟩ := h.marks_eq
  obtain ⟨begins, ends, panics⟩ := quiet
  obtain ⟨shown, rounds, shown_eq⟩ := filter_callMarks work panics isOf
  refine ⟨shown, rounds, ?_⟩
  rw [marks_eq, List.cons_append, List.filter_cons_of_neg (by simp [begins]), List.filter_append, shown_eq]
  cases next <;> simp [ends]

end Worker

/-! ## Whole runs -/

namespace Pool

variable {plan : PoolPlan C} {events : List (Nat × Step C)} {p : Pool C}

/-- What shows of a worker, beside what it tells of itself, is the beginning of what shows of rounds, and all of it
when the worker has left. -/
theorem Underway.exists_rounds (h : Underway plan p events t) {n : Nat} {seat : Seat C}
    (at_n : p.crew[n]? = some seat) (shows : Mark C → Bool)
    (quiet : ∀ id, shows (.told (.workerStarted id)) = false ∧ shows (.told (.workerStopped id)) = false ∧
      shows (.told (.workerPanicked id)) = false) :
    ∃ (rounds : List (Round C)) (ahead : List (Nat × Mark C)),
      (∀ round ∈ rounds, round.Follows plan.iteration p.shared.cancelledSince) ∧
      (marks (history n events)).filter (fun mark => shows mark.2) ++ ahead = rounds.flatMap (fun round =>
        (round.marks plan.iteration.retry (plan.worker (n + 1)).id).filter fun mark => shows mark.2) ∧
      (seat.thread = .exited → ahead = []) := by
  have : Nonempty C.State := ⟨p.shared.state⟩
  obtain ⟨ahead, next, t', loops, whole⟩ := (h.at_history n seat at_n).exists_loops
  obtain ⟨shown, ⟨rounds, follows, rounds_eq⟩, shown_eq⟩ := loops.filter_marks (h.work_eq at_n) (quiet _)
  rw [rounds_eq, h.worker_eq at_n, List.filter_flatMap, marks_append, List.filter_append] at shown_eq
  refine ⟨rounds, _, follows, shown_eq, fun exited => ?_⟩
  rw [(whole exited).1]
  rfl

/-- The calls of a worker are the beginning of rounds, and whole rounds when it has left. -/
theorem Underway.rounds (h : Underway plan p events t) {n : Nat} {seat : Seat C}
    (at_n : p.crew[n]? = some seat) :
    ∃ (rounds : List (Round C)) (ahead : List (Nat × Mark C)),
      (∀ round ∈ rounds, round.Follows plan.iteration p.shared.cancelledSince) ∧
      callsIn (marks (history n events)) ++ ahead = rounds.flatMap Round.calls ∧
      (seat.thread = .exited → ahead = []) := by
  obtain ⟨rounds, ahead, follows, shown, whole⟩ := h.exists_rounds at_n Mark.isCall fun _ => ⟨rfl, rfl, rfl⟩
  refine ⟨rounds, ahead, follows, shown.trans ?_, whole⟩
  exact congrArg (rounds.flatMap ·) (funext fun round => round.callsIn_marks ..)

/-- In every run of a pool what shows of a worker, beside what it tells of itself, is the beginning of what shows of
rounds, and all of it when the run has returned. -/
theorem runs_rounds (b : PoolBuilder C) (state : C.State) (runs : (build b state).Runs events p) (n : Nat)
    (shows : Mark C → Bool)
    (quiet : ∀ id, shows (.told (.workerStarted id)) = false ∧ shows (.told (.workerStopped id)) = false ∧
      shows (.told (.workerPanicked id)) = false) :
    ∃ (rounds : List (Round C)) (ahead : List (Nat × Mark C)),
      (∀ round ∈ rounds, round.Follows b.plan.iteration p.shared.cancelledSince) ∧
      (marks (history n events)).filter (fun mark => shows mark.2) ++ ahead = rounds.flatMap (fun round =>
        (round.marks b.plan.iteration.retry (b.plan.worker (n + 1)).id).filter fun mark => shows mark.2) ∧
      (p.returned.isSome = true → ahead = []) := by
  cases at_n : p.crew[n]? with
  | none =>
    rw [history_eq_nil_of_absent b state runs at_n]
    exact ⟨[], [], nofun, rfl, fun _ => rfl⟩
  | some seat =>
    obtain ⟨t, underway⟩ := exists_underway b state runs at_n
    obtain ⟨rounds, ahead, follows, shown, whole⟩ := underway.exists_rounds at_n shows quiet
    refine ⟨rounds, ahead, follows, shown, fun returned => ?_⟩
    obtain ⟨⟨t', result⟩, returned_eq⟩ := Option.isSome_iff_exists.mp returned
    exact whole ((underway.returned_at t' result returned_eq).all n seat at_n).1

/-- In every run of a pool, whatever the workers, the owner and the code of the client do, the calls of
each worker are the beginning of orderly rounds, in each of which the client's code was run that its marks tell of;
when the run has returned, nothing of them is left to be done. -/
theorem runs_dispose (b : PoolBuilder C) (state : C.State) (runs : (build b state).Runs events p)
    (n : Nat) :
    ∃ (rounds : List (Round C)) (ahead : List (Nat × Mark C)),
      (∀ round ∈ rounds, round.Follows b.plan.iteration p.shared.cancelledSince ∧
        round.Orderly b.plan.iteration.retry.maxAttempts) ∧
      callsIn (marks (history n events)) ++ ahead = rounds.flatMap Round.calls ∧
      (p.returned.isSome = true → ahead = []) := by
  obtain ⟨rounds, ahead, follows, shown, whole⟩ :=
    runs_rounds b state runs n Mark.isCall fun _ => ⟨rfl, rfl, rfl⟩
  refine ⟨rounds, ahead, fun round mem => ⟨follows round mem, (follows round mem).orderly⟩, shown.trans ?_, whole⟩
  exact congrArg (rounds.flatMap ·) (funext fun round => round.callsIn_marks ..)

/-- Supplies a task whenever it is asked for one, and has the pool stopped as soon as one is completed. -/
def hasty : Processor .bare where
  taskId := fun _ => ""
  checkout := fun _ => .done (.ok ())
  process := fun _ => .done (.ok ())
  complete := fun _ _ => .ask (I := Client.interface .bare) .stop fun _ => .done (.ok ())
  fail := fun _ _ => .done (.ok ())
  preHook := fun _ _ _ state => { state }
  postHook := fun _ _ _ _ state => { state }

/-- A pool of one worker that looks for work every ten milliseconds. -/
def lonely : PoolBuilder .bare where
  name := "lonely"
  processor := hasty
  workers := 1
  pollInterval := .ofMillis 10

/-- A run with one task. -/
theorem runs_dispose_of_one :
    ∃ events p, (build lonely ()).Runs events p ∧ p.returned.isSome = true ∧
      ∃ rounds : List (Round .bare),
        (∀ round ∈ rounds, round.Orderly lonely.plan.iteration.retry.maxAttempts) ∧
        callsIn (marks (history 0 events)) = rounds.flatMap Round.calls := by
  obtain ⟨events, runs⟩ := runs_perform lonely () [.start, .advance 10]
  have returned : ((build lonely ()).perform [.start, .advance 10]).returned.isSome = true := by
    decide +kernel
  obtain ⟨rounds, ahead, sound, calls_eq, whole⟩ := runs_dispose lonely () runs 0
  rw [whole returned, List.append_nil] at calls_eq
  exact ⟨events, _, runs, returned, rounds, fun round mem => (sound round mem).2, calls_eq⟩

end Pool

end WorkerPool
