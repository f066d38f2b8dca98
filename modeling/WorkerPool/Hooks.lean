import WorkerPool.Code

/-!
# Hooks

Hooks run once for each task that was checked out, around its processing, in the order in which they
were registered. A pass runs the hooks that were registered when it began. A hook that fails is
warned about and changes nothing; a panic ends the pass and goes on outwards.
-/

namespace WorkerPool

/-- The hooks that are registered, in the order of registration. -/
structure Hooks (η : Type) where
  pre : List η := []
  post : List η := []
deriving DecidableEq, Repr

namespace Hooks

variable {η : Type}

/-- The hooks of one side. -/
def of (hooks : Hooks η) : HookSide → List η
  | .pre => hooks.pre
  | .post => hooks.post

/-- Register further hooks on one side. -/
def add (hooks : Hooks η) : HookSide → List η → Hooks η
  | .pre, more => { hooks with pre := hooks.pre ++ more }
  | .post, more => { hooks with post := hooks.post ++ more }

/-- Hooks that are added to a side come after those that are there. -/
theorem of_add_self (hooks : Hooks η) (side : HookSide) (more : List η) :
    (hooks.add side more).of side = hooks.of side ++ more := by
  cases side <;> rfl

/-- Adding hooks to one side leaves the other side alone. -/
theorem of_add_of_ne (hooks : Hooks η) {side other : HookSide} (more : List η) (h : other ≠ side) :
    (hooks.add side more).of other = hooks.of other := by
  match side, other with
  | .pre, .post => rfl
  | .post, .pre => rfl
  | .pre, .pre => exact absurd rfl h
  | .post, .post => exact absurd rfl h

end Hooks

variable {C : Client}

namespace HookStep

/-- Do one thing a hook does. -/
def code : HookStep C → Code C Unit
  | note n => .ask (I := C.poolInterface) (.client (.note n)) fun _ => .done ()
  | register side hooks => .ask (I := C.poolInterface) (.register side hooks) fun _ => .done ()
  | cancel token => .ask (I := C.poolInterface) (.client (.cancel token)) fun _ => .done ()
  | stop => .ask (I := C.poolInterface) (.client .stop) fun _ => .done ()

/-- Do the things a hook does, one after another. -/
def codeOf : List (HookStep C) → Code C Unit
  | [] => .done ()
  | step :: rest => do
    step.code
    codeOf rest

end HookStep

/-- Run one hook: what it does follows from the client's state in one step. -/
def runHook (reply : C.State → HookReply C) : Code C (PoolResult Unit) :=
  .ask (I := C.poolInterface) (.client (.update fun state => (reply state).state)) fun state => do
    HookStep.codeOf (reply state).steps
    .ofOutcome (reply state).outcome

/-- The warning about a hook that failed. -/
def warnHookFailed (text worker taskId : String) (index : Nat) (error : PoolError) : Code C Unit :=
  Code.log .warn text [
    ("worker", .text worker),
    ("task_id", .text taskId),
    ("hook", .number index),
    ("error", .text error.message)]

/-- Run the hooks of a pass, the first of them with that index. `made` is the call of a hook, `ended`
its ending, and `reply` what it does. -/
def runHooksFrom (text worker taskId : String) (made : C.Hook → Call C)
    (ended : Outcome Unit → Ending C) (reply : C.Hook → C.State → HookReply C) :
    Nat → List C.Hook → Code C Unit
  | _, [] => .done ()
  | index, hook :: rest => do
    Code.enter (made hook)
    match ← Code.call ended (runHook (reply hook)) with
    | .ok () => runHooksFrom text worker taskId made ended reply (index + 1) rest
    | .error e =>
      warnHookFailed text worker taskId index e
      runHooksFrom text worker taskId made ended reply (index + 1) rest

namespace Processor

variable (P : Processor C)

/-- Run every hook before a task is processed. -/
def runPre (worker : String) (task : C.Task) : Code C Unit := do
  runHooksFrom "Pre-process hook failed" worker (P.taskId task) (.preHook · task) .preHook
    (P.preHook · worker task) 0 (← Code.registered .pre)

/-- Run every hook after a task was processed, or failed with an error. -/
def runPost (worker : String) (task : C.Task) (error : Option PoolError) : Code C Unit := do
  runHooksFrom "Post-process hook failed" worker (P.taskId task) (.postHook · task error) .postHook
    (P.postHook · worker task error) 0 (← Code.registered .post)

end Processor

end WorkerPool
