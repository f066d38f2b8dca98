import WorkerPool.Proofs.Alone
import WorkerPool.Proofs.HookPasses

/-!
# What becomes of the registered hooks

Hooks are registered and run by turns, and a hook that runs may register others, on its own side too. What a
step of such a history does is told by an `Episode`: the hooks that were called, each with its reply, and the
panic that ended the pass if one did. A pass calls the hooks that were registered when it began and no others
(`playAlone_runHooks`), and whatever a step adds comes behind what was there, even if it panics
(`Episode.Goes.hooks_eq`).

So after any steps each side holds what it held before them and then what was added since, in the order of
adding, and the next pass calls all of that (`Processor.registry_grows`).
-/

namespace WorkerPool

variable {C : Client} {α β : Type} {worker : Option String} {cancelAt : Option Nat} {s s' : Shared C}

/-! ## Code in a row -/

namespace Program

/-- Code played alone ends with a value and what comes after it goes on from there. -/
theorem playAlone_bind {p : Code C α} {value : α} (h : p.playAlone worker cancelAt s = (.ok value, s'))
    (f : α → Code C β) : (p >>= f).playAlone worker cancelAt s = (f value).playAlone worker cancelAt s' := by
  induction p generalizing s with
  | done => cases h; rfl
  | panic => cases h
  | ask request next ih => exact ih _ h
  | wait ms heeds next ih => exact ih _ h

/-- Code played alone panics and nothing comes after it. -/
theorem playAlone_bind_panic {p : Code C α} {x : Panic} (h : p.playAlone worker cancelAt s = (.error x, s'))
    (f : α → Code C β) : (p >>= f).playAlone worker cancelAt s = (.error x, s') := by
  induction p generalizing s with
  | done => cases h
  | panic => cases h; rfl
  | ask request next ih => exact ih _ h
  | wait ms heeds next ih => exact ih _ h

/-- Playing a given outcome gives it back and changes nothing. -/
theorem playAlone_ofOutcome (outcome : Outcome α) (s : Shared C) :
    (ofOutcome outcome : Code C (PoolResult α)).playAlone worker cancelAt s = (outcome.ending, s) := by
  cases outcome <;> rfl

/-- Where panics are caught, code does what it does elsewhere. -/
theorem playAlone_guarded {p : Code C (PoolResult α)} {outcome : Outcome α}
    (h : p.playAlone worker cancelAt s = (outcome.ending, s')) :
    p.guarded.playAlone worker cancelAt s = (.ok outcome, s') := by
  induction p generalizing s with
  | done result => cases result <;> cases outcome <;> cases h <;> rfl
  | panic => cases outcome <;> cases h; rfl
  | ask request next ih => exact ih _ h
  | wait ms heeds next ih => exact ih _ h

end Program

/-- The marks around a call leave its ending and what it does as they are. -/
theorem Code.playAlone_call {ending : Outcome α → Ending C} {code : Code C (PoolResult α)} {outcome : Outcome α}
    (h : code.playAlone worker cancelAt s = (outcome.ending, s')) :
    (call ending code).playAlone worker cancelAt s = (outcome.ending, s') :=
  (Program.playAlone_bind (Program.playAlone_guarded h) _).trans (Program.playAlone_ofOutcome outcome s')

/-! ## One hook -/

/-- The call that an event tells of. -/
def Event.call? : Event C → Option (Call C)
  | .call made => some made
  | _ => none

/-- The calls of client code that the journal tells of. -/
def Shared.calls (s : Shared C) : List (Call C) :=
  s.journal.toList.filterMap (·.event.call?)

theorem Shared.calls_enter (s : Shared C) (worker : Option String) (event : Event C) :
    (s.enter worker event).calls = s.calls ++ event.call?.toList := by
  simp only [calls, enter, Array.toList_push, List.filterMap_append]
  cases h : event.call? <;> simp [h]

namespace HookStep

/-- What one thing a hook does comes to. -/
def take (worker : Option String) (s : Shared C) : HookStep C → Shared C
  | note n => s.enter worker (.note n)
  | register side hooks => { s with hooks := s.hooks.add side hooks }
  | cancel token => s.cancel token
  | stop => s.stop worker

/-- The hooks that it registers on one side. -/
def registered (side : HookSide) : HookStep C → List C.Hook
  | register other hooks => if other = side then hooks else []
  | _ => []

/-- The code of a hook's steps takes the steps one after the other. -/
theorem playAlone_codeOf (steps : List (HookStep C)) (s : Shared C) :
    (codeOf steps).playAlone worker cancelAt s = (.ok (), steps.foldl (take worker) s) := by
  induction steps generalizing s with
  | nil => rfl
  | cons step rest ih =>
    have taken : step.code.playAlone worker cancelAt s = (.ok (), take worker s step) := by
      cases step <;> rfl
    exact (Program.playAlone_bind taken _).trans (ih _)

end HookStep

/-- What is added to one side of the hooks comes after what is there, and the other side stays as it is. -/
theorem Hooks.of_add {η : Type} (hooks : Hooks η) (side other : HookSide) (more : List η) :
    (hooks.add other more).of side = hooks.of side ++ if other = side then more else [] := by
  by_cases same : other = side
  · subst same
    rw [if_pos rfl, of_add_self]
  · rw [if_neg same, of_add_of_ne _ _ (Ne.symm same), List.append_nil]

/-- Whether the client's state and the calls in the journal stayed what they were, and hooks were added. -/
structure Shared.Registers (s s' : Shared C) (added : HookSide → List C.Hook) : Prop where
  state : s'.state = s.state
  calls : s'.calls = s.calls
  hooks : ∀ side, s'.hooks.of side = s.hooks.of side ++ added side

theorem Shared.registers_log (s : Shared C) (worker : Option String) (line : LogLine) :
    s.Registers (s.enter worker (.log line)) fun _ => [] where
  state := rfl
  calls := (s.calls_enter worker (.log line)).trans (List.append_nil _)
  hooks _ := (List.append_nil _).symm

namespace HookStep

/-- Whatever a step does, it adds the hooks that it registers, and leaves the client's state and the calls
alone. -/
theorem registers_take (worker : Option String) (s : Shared C) (step : HookStep C) :
    s.Registers (take worker s step) (registered · step) := by
  have unchanged {s' : Shared C} (state : s'.state = s.state) (calls : s'.calls = s.calls)
      (hooks : s'.hooks = s.hooks) : s.Registers s' fun _ => [] :=
    ⟨state, calls, fun side => by rw [hooks, List.append_nil]⟩
  cases step with
  | note n => exact unchanged rfl ((s.calls_enter worker (.note n)).trans (List.append_nil _)) rfl
  | register other hooks => exact ⟨rfl, rfl, fun side => s.hooks.of_add side other hooks⟩
  | cancel token => cases token <;> exact unchanged rfl rfl rfl
  | stop =>
    show s.Registers (s.stop worker) _
    unfold Shared.stop
    split
    · exact unchanged rfl ((s.calls_enter worker (.log _)).trans (List.append_nil _)) rfl
    · exact unchanged rfl rfl rfl

/-- Taken one after the other, steps add the hooks of each of them in turn. -/
theorem registers_foldl (worker : Option String) (s : Shared C) (steps : List (HookStep C)) :
    s.Registers (steps.foldl (take worker) s) fun side => steps.flatMap (registered side) := by
  induction steps generalizing s with
  | nil => exact ⟨rfl, rfl, fun side => (List.append_nil _).symm⟩
  | cons step rest ih =>
    obtain ⟨state, calls, hooks⟩ := registers_take worker s step
    obtain ⟨state', calls', hooks'⟩ := ih (take worker s step)
    refine ⟨state'.trans state, calls'.trans calls, fun side => ?_⟩
    rw [List.foldl_cons, hooks', hooks, List.flatMap_cons, List.append_assoc]

end HookStep

/-- What is shared after a hook has run. -/
def Shared.afterHook (s : Shared C) (worker : Option String) (made : Call C) (reply : HookReply C) : Shared C :=
  reply.steps.foldl (HookStep.take worker) { s.enter worker (.call made) with state := reply.state }

/-- A hook that runs alone ends with the outcome of its reply, after the steps of its reply. -/
theorem playAlone_runHook (reply : C.State → HookReply C) (made : Call C) (s : Shared C) :
    (runHook reply).playAlone worker cancelAt (s.enter worker (.call made)) =
      ((reply s.state).outcome.ending, s.afterHook worker made (reply s.state)) :=
  (Program.playAlone_bind (HookStep.playAlone_codeOf ..) _).trans (Program.playAlone_ofOutcome ..)

/-! ## A pass -/

/-- A hook that was called, and what it did. -/
structure HookRun (C : Client) where
  hook : C.Hook
  reply : HookReply C

namespace HookRun

/-- The call, and how it ended. -/
def call (run : HookRun C) : HookCall C :=
  ⟨run.hook, run.reply.outcome⟩

/-- The hooks that were registered on one side meanwhile. -/
def registered (side : HookSide) (run : HookRun C) : List C.Hook :=
  run.reply.steps.flatMap (·.registered side)

/-- Whether hooks did so one after another, the first of them in that state of the client. -/
def Replied (reply : C.Hook → C.State → HookReply C) : C.State → List (HookRun C) → Prop
  | _, [] => True
  | state, run :: rest => run.reply = reply run.hook state ∧ Replied reply run.reply.state rest

end HookRun

/-- Whether a pass over hooks calls these, one after another, and ends with that panic, if with any. -/
structure PassGoes (made : C.Hook → Call C) (reply : C.Hook → C.State → HookReply C) (hooks : List C.Hook)
    (s : Shared C) (runs : List (HookRun C)) (panic : Option Panic) (s' : Shared C) : Prop where
  called : HookPass hooks (runs.map (·.call)) panic
  replied : HookRun.Replied reply s.state runs
  told : s'.calls = s.calls ++ runs.map (made ·.hook)
  registered : ∀ side, s'.hooks.of side = s.hooks.of side ++ runs.flatMap (·.registered side)

section

variable {text name taskId : String} {made : C.Hook → Call C} {ended : Outcome Unit → Ending C}
  {reply : C.Hook → C.State → HookReply C} {hook : C.Hook} {rest : List C.Hook} {runs : List (HookRun C)}
  {panic : Option Panic} {s₁ : Shared C}

/-- After a hook the state is that of its reply, one call has been made and the hooks that it registers stand at
the end. -/
theorem Shared.afterHook_told (s : Shared C) (worker : Option String) (made : Call C) (reply : HookReply C) :
    (s.afterHook worker made reply).state = reply.state ∧
      (s.afterHook worker made reply).calls = s.calls ++ [made] ∧
      ∀ side, (s.afterHook worker made reply).hooks.of side =
        s.hooks.of side ++ reply.steps.flatMap (·.registered side) := by
  obtain ⟨state, calls, hooks⟩ :=
    HookStep.registers_foldl worker { s.enter worker (.call made) with state := reply.state } reply.steps
  exact ⟨state, calls.trans (s.calls_enter worker (.call made)), hooks⟩

/-- A hook that panics ends the pass. -/
theorem PassGoes.panicked {x : Panic} (outcome : (reply hook s.state).outcome = .panic x) :
    PassGoes made reply (hook :: rest) s [⟨hook, reply hook s.state⟩] (some x)
      (s.afterHook worker (made hook) (reply hook s.state)) := by
  obtain ⟨_, calls, hooks⟩ := s.afterHook_told worker (made hook) (reply hook s.state)
  refine ⟨?_, ⟨rfl, trivial⟩, calls, fun side => ?_⟩
  · rw [List.map_singleton, HookRun.call, outcome]
    exact .panicked hook rest x
  · rw [hooks, List.flatMap_singleton]
    rfl

/-- After a hook that does not, the pass goes on, whatever is written to the log in between. -/
theorem PassGoes.next (survived : (reply hook s.state).outcome.panic? = none)
    (between : (s.afterHook worker (made hook) (reply hook s.state)).Registers s₁ fun _ => [])
    (more : PassGoes made reply rest s₁ runs panic s') :
    PassGoes made reply (hook :: rest) s (⟨hook, reply hook s.state⟩ :: runs) panic s' := by
  obtain ⟨state, calls, hooks⟩ := s.afterHook_told worker (made hook) (reply hook s.state)
  refine ⟨.next hook survived more.called, ⟨rfl, ?_⟩, ?_, fun side => ?_⟩
  · rw [← state, ← between.state]
    exact more.replied
  · rw [more.told, between.calls, calls, List.append_assoc]
    rfl
  · rw [more.registered, between.hooks, hooks, List.append_nil, List.append_assoc]
    rfl

/-- A warning is a line of the log. -/
theorem playAlone_warnHookFailed (text name taskId : String) (index : Nat) (e : PoolError) (worker : Option String)
    (cancelAt : Option Nat) (s : Shared C) :
    ∃ s', (warnHookFailed text name taskId index e).playAlone worker cancelAt s = (.ok (), s') ∧
      s.Registers s' fun _ => [] :=
  ⟨_, rfl, s.registers_log worker _⟩

/-- A pass calls one hook after another, up to the first that panics. -/
theorem playAlone_runHooksFrom (index : Nat) (hooks : List C.Hook) (s : Shared C) :
    ∃ runs panic s', (runHooksFrom text name taskId made ended reply index hooks).playAlone worker cancelAt s =
      (endingOf panic, s') ∧ PassGoes made reply hooks s runs panic s' := by
  induction hooks generalizing index s with
  | nil => exact ⟨[], none, s, rfl, .done, trivial, (List.append_nil _).symm, fun _ => (List.append_nil _).symm⟩
  | cons hook rest ih =>
    have one :
        (Code.call ended (runHook (reply hook))).playAlone worker cancelAt (s.enter worker (.call (made hook))) =
          ((reply hook s.state).outcome.ending, s.afterHook worker (made hook) (reply hook s.state)) :=
      Code.playAlone_call (playAlone_runHook ..)
    -- How the hook ended decides whether and how the pass goes on; the state it left is the same in all cases.
    generalize outcome : (reply hook s.state).outcome = o at one
    cases o with
    | panic x => exact ⟨_, _, _, Program.playAlone_bind_panic one _, .panicked outcome⟩
    | ok value =>
      obtain ⟨runs, panic, s', played, goes⟩ :=
        ih (index + 1) (s.afterHook worker (made hook) (reply hook s.state))
      exact ⟨_, _, _, (Program.playAlone_bind one _).trans played,
        goes.next (by rw [outcome]; rfl) ⟨rfl, rfl, fun _ => (List.append_nil _).symm⟩⟩
    | error e =>
      obtain ⟨s₁, warned, between⟩ := playAlone_warnHookFailed text name taskId index e worker cancelAt
        (s.afterHook worker (made hook) (reply hook s.state))
      obtain ⟨runs, panic, s', played, goes⟩ := ih (index + 1) s₁
      exact ⟨_, _, _, (Program.playAlone_bind one _).trans ((Program.playAlone_bind warned _).trans played),
        goes.next (by rw [outcome]; rfl) between⟩

end

/-- An occasion on which the hooks of one side run. -/
inductive Occasion (C : Client) where
  | before (task : C.Task)
  | after (task : C.Task) (error : Option PoolError)

namespace Occasion

/-- The side whose hooks run. -/
def side : Occasion C → HookSide
  | before _ => .pre
  | after _ _ => .post

/-- The call of a hook. -/
def made : Occasion C → C.Hook → Call C
  | before task, hook => .preHook hook task
  | after task error, hook => .postHook hook task error

end Occasion

namespace Processor

/-- What a hook does on an occasion. -/
def reply (P : Processor C) (name : String) : Occasion C → C.Hook → C.State → HookReply C
  | .before task, hook => P.preHook hook name task
  | .after task error, hook => P.postHook hook name task error

/-- Run the hooks that are to run on an occasion. -/
def runHooks (P : Processor C) (name : String) : Occasion C → Code C Unit
  | .before task => P.runPre name task
  | .after task error => P.runPost name task error

/-- A pass goes over the hooks that are registered when it begins. -/
theorem playAlone_runHooks (P : Processor C) (name : String) (occasion : Occasion C) (s : Shared C) :
    ∃ runs panic s', (P.runHooks name occasion).playAlone (some name) none s = (endingOf panic, s') ∧
      PassGoes occasion.made (P.reply name occasion) (s.hooks.of occasion.side) s runs panic s' := by
  cases occasion with
  | before task => exact playAlone_runHooksFrom 0 s.hooks.pre s
  | after task error => exact playAlone_runHooksFrom 0 s.hooks.post s

end Processor

/-! ## Histories -/

/-- What may be done with the registered hooks. -/
inductive RegistryStep (C : Client) where
  | add (side : HookSide) (hooks : List C.Hook)
  | run (worker : String) (occasion : Occasion C)

/-- One step as it went: the hooks that were called, and the panic that it ended with, if with any. -/
structure Episode (C : Client) where
  step : RegistryStep C
  runs : List (HookRun C) := []
  panic : Option Panic := none

namespace Processor

variable (P : Processor C)

/-- What is shared after a step, whether or not it panicked. -/
def take (s : Shared C) : RegistryStep C → Shared C
  | .add side hooks => { s with hooks := s.hooks.add side hooks }
  | .run worker occasion => ((P.runHooks worker occasion).playAlone (some worker) none s).2

/-- What is shared after steps. -/
def takeAll (s : Shared C) (steps : List (RegistryStep C)) : Shared C :=
  steps.foldl P.take s

end Processor

namespace Episode

/-- The hooks that were added on one side. -/
def added (side : HookSide) (episode : Episode C) : List C.Hook :=
  match episode.step with
  | .add other hooks => if other = side then hooks else []
  | .run _ _ => episode.runs.flatMap (·.registered side)

/-- Whether a step went so. To add hooks calls none. A pass ends with the panic of its last hook, if that panicked,
and calls hooks that were registered when it began. -/
def Goes (P : Processor C) (s s' : Shared C) (episode : Episode C) : Prop :=
  match episode.step with
  | .add side hooks =>
    episode.runs = [] ∧ episode.panic = none ∧ s' = { s with hooks := s.hooks.add side hooks }
  | .run worker occasion =>
    (P.runHooks worker occasion).playAlone (some worker) none s = (endingOf episode.panic, s') ∧
      PassGoes occasion.made (P.reply worker occasion) (s.hooks.of occasion.side) s episode.runs episode.panic s'

/-- Every step of a registry is an episode of it. -/
theorem exists_goes (P : Processor C) (s : Shared C) (step : RegistryStep C) :
    ∃ episode : Episode C, episode.step = step ∧ episode.Goes P s (P.take s step) := by
  cases step with
  | add side hooks => exact ⟨{ step := .add side hooks }, rfl, rfl, rfl, rfl⟩
  | run worker occasion =>
    obtain ⟨runs, panic, s', played, goes⟩ := P.playAlone_runHooks worker occasion s
    refine ⟨{ step := .run worker occasion, runs, panic }, rfl, ?_⟩
    unfold Goes Processor.take
    dsimp only
    rw [played]
    exact ⟨rfl, goes⟩

/-- What a step adds comes behind what was there. -/
theorem Goes.hooks_eq {P : Processor C} {episode : Episode C} (goes : episode.Goes P s s') (side : HookSide) :
    s'.hooks.of side = s.hooks.of side ++ episode.added side := by
  obtain ⟨step, runs, panic⟩ := episode
  cases step with
  | add other hooks =>
    obtain ⟨_, _, rfl⟩ := goes
    exact s.hooks.of_add side other hooks
  | run worker occasion => exact goes.2.registered side

end Episode

/-- In any history of the registered hooks, whatever the hooks do, every step goes as it should, and at every time
each side holds what it held at first and then what the steps have added up to then, in their order. -/
theorem Processor.registry_grows (P : Processor C) (s : Shared C) (steps : List (RegistryStep C)) :
    ∃ episodes : List (Episode C), episodes.map (·.step) = steps ∧
      (∀ side, (P.takeAll s steps).hooks.of side = s.hooks.of side ++ episodes.flatMap (·.added side)) ∧
      ∀ i episode, episodes[i]? = some episode →
        episode.Goes P (P.takeAll s (steps.take i)) (P.takeAll s (steps.take (i + 1))) ∧
        ∀ side, (P.takeAll s (steps.take i)).hooks.of side =
          s.hooks.of side ++ (episodes.take i).flatMap (·.added side) := by
  induction steps generalizing s with
  | nil => exact ⟨[], rfl, fun _ => (List.append_nil _).symm, nofun⟩
  | cons step rest ih =>
    obtain ⟨first, rfl, goes⟩ := Episode.exists_goes P s step
    obtain ⟨episodes, rfl, whole, each⟩ := ih (P.take s first.step)
    have later (side : HookSide) (added : List C.Hook) :
        (P.take s first.step).hooks.of side ++ added = s.hooks.of side ++ (first.added side ++ added) := by
      rw [goes.hooks_eq, List.append_assoc]
    refine ⟨first :: episodes, rfl, fun side => (whole side).trans (later side _), fun i episode found => ?_⟩
    -- A later step is one of the history that begins with what the first step left.
    cases i with
    | zero =>
      cases found
      exact ⟨goes, fun _ => (List.append_nil _).symm⟩
    | succ i =>
      obtain ⟨goes', before⟩ := each i episode found
      exact ⟨goes', fun side => (before side).trans (later side _)⟩

/-- Hooks by what they do. -/
inductive Habit where
  | obeys
  | fails
  | panics
  /-- Registers another hook on its own side. -/
  | multiplies
deriving DecidableEq

/-- The client whose hooks have a habit. -/
def Client.habitual : Client :=
  { Client.bare with Hook := Habit }

/-- Hooks that do as they are used to before a task, and nothing afterwards. -/
def fickle : Processor .habitual where
  taskId := fun _ => ""
  checkout := fun _ => .done (.error .noWork)
  process := fun _ => .done (.ok ())
  complete := fun _ _ => .done (.ok ())
  fail := fun _ _ => .done (.ok ())
  preHook := fun habit _ _ _ =>
    match (habit : Habit) with
    | .obeys => { state := () }
    | .fails => { state := (), outcome := .error .noWork }
    | .panics => { state := (), outcome := .panic .other }
    | .multiplies => { state := (), steps := [.register .pre [Habit.obeys]] }
  postHook := fun _ _ _ _ _ => { state := () }

example :
    let hooks : Hooks Habit := { pre := [.multiplies, .fails, .panics, .obeys] }
    let registry : Shared .habitual := { pool := "", channel := { capacity := 1 }, hooks, state := () }
    let played := (fickle.runHooks "w" (.before ())).playAlone (some "w") none registry
    played.1 = .error .other ∧ played.2.calls.length = 3 ∧
      played.2.hooks.pre = hooks.pre ++ [Habit.obeys] :=
  ⟨rfl, rfl, rfl⟩

end WorkerPool
