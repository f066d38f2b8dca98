import WorkerPool.Proofs.Indifference
import WorkerPool.Proofs.Retiring

/-!
# A warning for each hook that failed

A worker warns about a hook that failed right after the hook has, and at no other time: whatever it has done, what it
writes next is the warning that the last thing it did calls for, if any (`attention`). So the warnings that a worker
has written are those for the calls of hooks that failed, in their order, up to one that it is about to write
(`runs_warnsOfEach`). Each names the worker, the task, the place of the hook in its pass, and the error.

With that the difference between two pools that are built alike, but for what their hooks return, is known
(`hook_errors_change_nothing`).
-/

namespace WorkerPool

variable {C : Client} {α β σ : Type} {T : Option Nat} {t now : Nat}

/-! ## Failures and warnings -/

/-- The call of a hook that failed: on which side, for which task, at which place in its pass, and with which
error. -/
structure HookFailure where
  side : HookSide
  taskId : String
  index : Nat
  error : PoolError

/-- The warning that a worker writes about a failure. -/
def HookFailure.warning (worker : String) (failure : HookFailure) : LogLine where
  level := .warn
  text := failure.side.warning
  fields := [
    ("worker", .text worker),
    ("task_id", .text failure.taskId),
    ("hook", .number failure.index),
    ("error", .text failure.error.message)]

theorem HookFailure.isHookWarning_warning (worker : String) (failure : HookFailure) :
    (failure.warning worker).isHookWarning = true := by
  obtain ⟨side, _, _, _⟩ := failure
  cases side <;> rfl

/-- How far a pass over hooks has got. -/
structure HookPlace where
  /-- The number of hooks that have been called in this pass, which is the place of the next. -/
  next : Nat := 0
  /-- The place of the hook that was called last, and the task that it was called for. -/
  index : Nat := 0
  taskId : String := ""

/-- How far a pass has got after a deed. -/
def HookPlace.after (P : Processor C) (place : HookPlace) : Deed C → HookPlace
  | .asked (.registered _) _ => { place with next := 0 }
  | .asked (.enter (.preHook _ task)) _ | .asked (.enter (.postHook _ task _)) _ =>
    { next := place.next + 1, index := place.next, taskId := P.taskId task }
  | _ => place

/-- The failure of which a deed says, if it says that the last hook that was called has failed. -/
def Deed.hookFailure? (place : HookPlace) : Deed C → Option HookFailure
  | .asked (.ended (.preHook (.error error))) _ => some ⟨.pre, place.taskId, place.index, error⟩
  | .asked (.ended (.postHook (.error error))) _ => some ⟨.post, place.taskId, place.index, error⟩
  | _ => none

/-- The warning about a hook that is written. -/
def Deed.hookWarning? : Deed C → Option LogLine
  | .asked (.log line) _ => if line.isHookWarning then some line else none
  | _ => none

/-- The calls of hooks that failed, from some place of a pass on. -/
def hookFailures (P : Processor C) : HookPlace → List (Step C) → List HookFailure
  | _, [] => []
  | place, step :: rest =>
    (step.deed.hookFailure? place).toList ++ hookFailures P (place.after P step.deed) rest

/-- The warnings about hooks that were written. -/
def hookWarnings (steps : List (Step C)) : List LogLine :=
  steps.filterMap fun step => step.deed.hookWarning?

theorem hookWarnings_append (first second : List (Step C)) :
    hookWarnings (first ++ second) = hookWarnings first ++ hookWarnings second :=
  List.filterMap_append

theorem hookWarnings_cons (step : Step C) (rest : List (Step C)) :
    hookWarnings (step :: rest) = step.deed.hookWarning?.toList ++ hookWarnings rest := by
  unfold hookWarnings
  cases written : step.deed.hookWarning? <;> simp [written]

open Classical in
/-- The rule of a worker that warns about a hook that failed, if it did so last, and about nothing else. -/
noncomputable def attention (P : Processor C) (worker : String) : Rule C (HookPlace × Option HookFailure) :=
  fun s deed =>
    if deed.hookWarning? = s.2.map (·.warning worker) then some (s.1.after P deed, deed.hookFailure? s.1) else none

variable {P : Processor C} {worker : String} {place : HookPlace} {owed : Option HookFailure}

/-- A deed that writes the warning that is owed, or none if none is, moves the rule on to what it tells of
itself. -/
theorem attention_eq {deed : Deed C} (due : deed.hookWarning? = owed.map (·.warning worker)) :
    attention P worker (place, owed) deed = some (place.after P deed, deed.hookFailure? place) :=
  if_pos due

/-- Who keeps to the rule has written a warning about each failure, up to the last. -/
theorem hookWarnings_of_follow {place' : HookPlace} {owed owed' : Option HookFailure} {steps : List (Step C)}
    (h : (attention P worker).follow (place, owed) steps = some (place', owed')) :
    hookWarnings steps ++ owed'.toList.map (·.warning worker) =
      (owed.toList ++ hookFailures P place steps).map (·.warning worker) := by
  induction steps generalizing place owed with
  | nil =>
    cases h
    simp [hookWarnings, hookFailures]
  | cons step rest ih =>
    obtain ⟨⟨between, due⟩, allowed, follows⟩ := Rule.exists_of_follow_cons h
    unfold attention at allowed
    split at allowed
    · next written =>
      cases allowed
      have due_first : (owed.map (·.warning worker)).toList = owed.toList.map (·.warning worker) := by
        cases owed <;> rfl
      rw [hookWarnings_cons, written, List.append_assoc, ih follows, hookFailures, due_first, ← List.map_append]
    · cases allowed

/-! ## Code that says nothing of failures -/

/-- Whether a deed is to warn about a hook or to say that one has failed. -/
def Deed.tellsOfFailure : Deed C → Bool
  | .asked (.log line) _ => line.isHookWarning
  | .asked (.ended (.preHook (.error _))) _ | .asked (.ended (.postHook (.error _))) _ => true
  | _ => false

/-- A deed that tells of no failure leaves nothing to warn of. -/
theorem Deed.hookFailure?_eq_none {deed : Deed C} (free : deed.tellsOfFailure = false) (place : HookPlace) :
    deed.hookFailure? place = none := by
  cases deed with
  | waited => rfl
  | asked request answer =>
    cases request with
    | ended ending =>
      cases ending with
      | preHook outcome | postHook outcome =>
        cases outcome with
        | error => cases free
        | ok | panic => rfl
      | _ => rfl
    | _ => rfl

theorem Deed.hookWarning?_eq_none {deed : Deed C} (free : deed.tellsOfFailure = false) : deed.hookWarning? = none := by
  cases deed with
  | waited => rfl
  | asked request answer =>
    cases request with
    | log line => exact if_neg (Bool.eq_false_iff.mp free)
    | _ => rfl

/-- What tells of no failure is free to be done where there is nothing to warn about. -/
theorem attention_of_free {deed : Deed C} (free : deed.tellsOfFailure = false) :
    attention P worker (place, none) deed = some (place.after P deed, none) := by
  rw [attention_eq (deed.hookWarning?_eq_none free), deed.hookFailure?_eq_none free]

namespace Program

/-- Hushed code tells of no failures. -/
theorem shuns_hushed (code : Code C α) : code.hushed.Shuns Deed.tellsOfFailure := by
  induction code with
  | done value => exact .pure value
  | panic => exact trivial
  | wait ms heeds next ih => exact .wait (fun _ => rfl) ih
  | ask request next ih =>
    cases request with
    | log line =>
      cases warning : line.isHookWarning with
      | true => exact (hushed_ask_warning warning next).symm ▸ ih ()
      | false => exact (hushed_ask_log warning next).symm ▸ .ask (fun _ => warning) ih
    | ended ending =>
      have free (answer : Unit) : (Deed.asked (.ended ending.hushed) answer : Deed C).tellsOfFailure = false := by
        cases ending with
        | preHook outcome | postHook outcome => cases outcome <;> rfl
        | _ => rfl
      exact .ask free ih
    | _ => exact .ask (fun _ => rfl) ih

/-- Whether code that begins with nothing to warn about keeps to the rule and leaves nothing to warn about. -/
def Attends (P : Processor C) (worker : String) (code : Code C α) : Prop :=
  ∀ place, code.Keeps (attention P worker) (fun s _ => s.2 = none) (place, none)

namespace Attends

variable {p : Code C α}

/-- Code that tells of no failures has nothing to warn about. -/
theorem of_shuns (h : p.Shuns Deed.tellsOfFailure) : p.Attends P worker := by
  intro place
  induction p generalizing place with
  | done | panic => rfl
  | ask request next ih =>
    intro answer
    obtain ⟨_, allowed, rest⟩ := h answer
    have free : (Deed.asked request answer).tellsOfFailure = false := by simpa using allowed
    exact ⟨_, attention_of_free free, ih answer rest _⟩
  | wait ms heeds next ih =>
    intro wake
    obtain ⟨_, _, rest⟩ := h wake
    exact ⟨_, attention_of_free rfl, ih wake rest _⟩

/-- Code that is hushed already has nothing to warn about. -/
theorem of_hushed (same : p.hushed = p) : p.Attends P worker :=
  of_shuns (same ▸ shuns_hushed p)

/-- Code and what comes after it warn of each failure if both parts do. -/
theorem bind {f : α → Code C β} (h : p.Attends P worker) (g : ∀ value, (f value).Attends P worker) :
    (p >>= f).Attends P worker := by
  refine fun place => keeps_bind.mpr ((h place).mono fun s e none => ?_)
  obtain ⟨place', owed⟩ := s
  subst none
  cases e with
  | ok value => exact g value place'
  | error x => rfl

/-- To catch panics does not change what is warned of. -/
theorem guarded {p : Code C (PoolResult α)} (h : p.Attends P worker) : p.guarded.Attends P worker :=
  fun place => keeps_guarded.mpr ((h place).mono fun _ _ none _ _ => none)

end Attends

end Program

/-! ## Hooks -/

/-- What a hook does keeps to any rule that it cannot move. -/
theorem keeps_runHook {rule : Rule C σ} {s : σ} {post : σ → Except Panic (PoolResult Unit) → Prop}
    {reply : C.State → HookReply C}
    (asks : ∀ (request : ClientRequest C) answer, rule s (.asked (.client request) answer) = some s)
    (registers : ∀ side hooks answer, rule s (.asked (.register side hooks) answer) = some s)
    (ends : ∀ state, post s (reply state).outcome.ending) : (runHook reply).Keeps rule post s := by
  refine fun state => ⟨s, asks _ state, Program.keeps_bind.mpr ?_⟩
  induction (reply state).steps with
  | nil => exact Program.keeps_ofOutcome.mpr (ends state)
  | cons step rest ih =>
    cases step with
    | note n => exact fun answer => ⟨s, asks _ answer, ih⟩
    | register side hooks => exact fun answer => ⟨s, registers side hooks answer, ih⟩
    | cancel token => exact fun answer => ⟨s, asks _ answer, ih⟩
    | stop => exact fun answer => ⟨s, asks _ answer, ih⟩

/-- The failure of the hook at a place, if its call ended in one. -/
def HookPlace.failure? (place : HookPlace) (side : HookSide) : Outcome Unit → Option HookFailure
  | .error error => some ⟨side, place.taskId, place.index, error⟩
  | _ => none

/-- A pass of hooks warns of each of its failures. The induction is on the hooks that are left; the place tells
the number of the next one. -/
theorem attends_runHooksFrom (side : HookSide) (taskId : String) (made : C.Hook → Call C)
    (ended : Outcome Unit → Ending C) (reply : C.Hook → C.State → HookReply C)
    (makes : ∀ (place : HookPlace) hook, place.after P (.asked (.enter (made hook)) ()) =
      { next := place.next + 1, index := place.next, taskId })
    (fails : ∀ (place : HookPlace) outcome,
      (Deed.asked (.ended (ended outcome)) ()).hookFailure? place = place.failure? side outcome)
    {index : Nat} (hooks : List C.Hook) (place : HookPlace) (at_index : place.next = index) :
    (runHooksFrom side.warning worker taskId made ended reply index hooks).Keeps (attention P worker)
      (fun s _ => s.2 = none) (place, none) := by
  induction hooks generalizing index place with
  | nil => rfl
  | cons hook rest ih =>
    subst at_index
    let called : HookPlace := { next := place.next + 1, index := place.next, taskId }
    have calls : attention P worker (place, none) (.asked (.enter (made hook)) ()) = some (called, none) :=
      (attention_of_free rfl).trans (congrArg (fun place => some (place, none)) (makes place hook))
    refine Program.keeps_bind.mpr fun _ => ⟨(called, none), calls, Program.keeps_bind.mpr (Code.keeps_call ?_)⟩
    refine keeps_runHook (fun _ _ => attention_of_free rfl) (fun _ _ _ => attention_of_free rfl) ?_
    · intro _ outcome _
      have said : attention P worker (called, none) (.asked (.ended (ended outcome)) ()) =
          some (called, called.failure? side outcome) :=
        (attention_eq rfl).trans (congrArg (fun failure => some (called, failure)) (fails called outcome))
      refine ⟨_, said, ?_⟩
      cases outcome with
      | panic => rfl
      | ok => exact ih called rfl
      | error e =>
        let failed : HookFailure := ⟨side, taskId, place.next, e⟩
        have warns : attention P worker (called, some failed) (.asked (.log (failed.warning worker)) ()) =
            some (called, none) := attention_eq (if_pos (failed.isHookWarning_warning worker))
        exact fun _ => ⟨(called, none), warns, ih called rfl⟩

variable {it : Iteration C} {task : C.Task}

/-- The hooks before the attempts warn of each of their failures. -/
theorem attends_runPre : (P.runPre worker task).Attends P worker :=
  fun _ hooks => ⟨_, attention_of_free rfl,
    attends_runHooksFrom .pre (P.taskId task) (.preHook · task) .preHook _ (fun _ _ => rfl)
      (fun _ outcome => by cases outcome <;> rfl) hooks _ rfl⟩

theorem attends_runPost (error : Option PoolError) : (P.runPost worker task error).Attends P worker :=
  fun _ hooks => ⟨_, attention_of_free rfl,
    attends_runHooksFrom .post (P.taskId task) (.postHook · task error) .postHook _ (fun _ _ => rfl)
      (fun _ outcome => by cases outcome <;> rfl) hooks _ rfl⟩

/-! ## The work of a worker -/

/-- The processing of a task, with hooks before and after it, warns of each failing hook. -/
theorem attends_processWithHooks : (it.processWithHooks worker task).Attends it.processor worker := by
  have retried : ((it.retry.run fun _ => it.attempt task).hushed) = it.retry.run fun _ => it.attempt task :=
    it.retry.hushed_runFrom (fun _ => it.hushed_attempt task) _ _
  refine attends_runPre.bind fun _ => (Program.Attends.of_hushed retried).bind fun result => ?_
  cases result with
  | ok done => exact (attends_runPost none).bind fun _ => .of_hushed rfl
  | error e => exact (attends_runPost (some e)).bind fun _ => .of_hushed rfl

/-- Guarded against panics, it still does. -/
theorem attends_processGuarded : (it.processGuarded worker task).Attends it.processor worker := by
  refine attends_processWithHooks.guarded.bind fun outcome => .of_hushed ?_
  cases outcome with
  | ok | error => rfl
  | panic x => simp [Code.hushed_log_of_level]

/-- The work on a task warns of each failing hook. -/
theorem attends_workOn : (it.workOn worker task).Attends it.processor worker := by
  refine (Program.Attends.of_hushed rfl).bind fun _ => (Program.Attends.of_hushed rfl).bind fun _ =>
    (Program.Attends.of_hushed rfl).bind fun started => ?_
  refine attends_processGuarded.bind fun processed => (Program.Attends.of_hushed rfl).bind fun resumed => ?_
  cases processed with
  | ok done => exact .of_hushed (it.hushed_completeTask ..)
  | error e => exact .of_hushed (it.hushed_failTask ..)

/-- An iteration warns of each failing hook. -/
theorem attends_work : (it.work worker).Attends it.processor worker := by
  have checksOut : (Code.call .checkout (Code.act (it.processor.checkout worker))).hushed =
      Code.call .checkout (Code.act (it.processor.checkout worker)) := by
    rw [Code.hushed_call, Code.hushed_act]
    rfl
  refine (Program.Attends.of_hushed checksOut).bind fun result => (Program.Attends.of_hushed rfl).bind fun _ => ?_
  cases result with
  | ok task => exact attends_workOn
  | error e =>
    refine .of_hushed ?_
    dsimp only
    split <;> rfl

/-- A layer around work that warns of each failure warns of no others. -/
theorem attends_around {inner : Code C (PoolResult Unit)} (h : inner.Attends P worker) (code : LayerAct C) :
    (Layer.around code inner).Attends P worker := by
  unfold Layer.around
  induction code with
  | done | panic => exact .of_hushed rfl
  | ask request next ih =>
    cases request with
    | client request => exact fun place answer => ⟨_, attention_of_free rfl, ih answer place⟩
    | inner => exact h.bind ih
  | wait ms heeds next ih => exact fun place wake => ⟨_, attention_of_free rfl, ih wake place⟩

/-- Whatever the layers, the work warns about the hooks that failed. -/
theorem attends_compose (it : Iteration C) (layers : List (Layer C)) :
    (Layer.compose layers it.work worker).Attends it.processor worker := by
  induction layers with
  | nil => exact attends_work
  | cons layer rest ih =>
    cases layer with
    | client code => exact attends_around ih (code worker)
    | errorLimit limit => exact ih.bind fun result => .of_hushed (limit.hushed_observe worker result)

/-! ## The loop of a worker -/

namespace Worker

variable {w : Worker C}

/-- A segment warns of what its work does, and of nothing else. -/
theorem attends_segment (work : (w.work w.id).Attends P worker) (state : WorkerState) :
    (w.segment state).Attends P worker := by
  cases interval : w.schedule.interval? state with
  | none =>
    rw [segment_of_over interval]
    exact (Program.Attends.of_hushed w.hushed_closing).bind fun _ => .of_hushed rfl
  | some delay =>
    rw [segment_of_interval interval]
    refine fun place wake => ⟨_, attention_of_free rfl, ?_⟩
    cases wake with
    | cancelled => exact Program.Attends.of_hushed (w.hushed_wakeUp state .cancelled) _
    | elapsed =>
      rw [wakeUp_elapsed]
      exact work.guarded.bind (fun outcome => .of_hushed (w.hushed_aftermath state outcome)) _

/-- So does a loop from its start on. -/
theorem attends_start (work : (w.work w.id).Attends P worker) : w.start.Attends P worker :=
  (Program.Attends.of_hushed w.hushed_opening).bind fun _ => attends_segment work .active

/-- Who waits has nothing to warn about. -/
theorem eq_none_of_attention {heeds : Bool} {wake : Wake} {s : HookPlace × Option HookFailure}
    (allowed : attention P worker (place, owed) (.waited heeds wake) = some s) : owed = none := by
  unfold attention at allowed
  split at allowed
  · next written => exact Option.map_eq_none_iff.mp written.symm
  · cases allowed

/-- Up to one that it is about to write, a worker has written the warnings that were due. -/
theorem At.warned {thread : Thread C} (work : (w.work w.id).Attends P w.id) (h : w.At T t now history thread) :
    ∃ owed : Option HookFailure, (owed = none ∨ thread.isAsking = true) ∧
      hookWarnings history ++ owed.toList.map (·.warning w.id) =
        (hookFailures P {} history).map (·.warning w.id) := by
  have kept : ∃ s, (attention P w.id).follow ({}, none) history = some s ∧
      thread.Keeps (attention P w.id) (fun s => s.2 = none) s := by
    refine h.keeps (attends_start work {}) ?_
    rintro state ⟨place, _⟩ rfl
    exact attends_segment work state place
  obtain ⟨⟨place, owed⟩, follows, left⟩ := kept
  refine ⟨owed, ?_, hookWarnings_of_follow follows⟩
  cases thread with
  | exited => exact .inl left
  | waiting due heeds next =>
    obtain ⟨_, allowed, _⟩ := left .elapsed
    exact .inl (eq_none_of_attention allowed)
  | ready code =>
    cases code with
    | done | panic => exact .inl left
    | ask => exact .inr rfl
    | wait ms heeds next =>
      obtain ⟨_, allowed, _⟩ := left .elapsed
      exact .inl (eq_none_of_attention allowed)

end Worker

/-! ## The journal -/

/-- The warning of that worker about a hook, if an entry is one. -/
def Entry.hookWarning? (worker : String) (entry : Entry C) : Option LogLine :=
  match entry.worker, entry.event with
  | some name, .log line => if name = worker ∧ line.isHookWarning then some line else none
  | _, _ => none

namespace Shared

/-- The warnings about hooks that the journal shows of a worker. -/
def warningsBy (s : Shared C) (worker : String) : List LogLine :=
  s.journal.toList.filterMap (·.hookWarning? worker)

/-- Entries show the warnings that are among them, under the name of that worker. -/
theorem warningsBy_withEntries (s : Shared C) (entries : List (Entry C)) (worker : String) :
    (s.withEntries entries).warningsBy worker = s.warningsBy worker ++ entries.filterMap (·.hookWarning? worker) := by
  simp [warningsBy, withEntries]

/-- What nobody writes is no warning of a worker. -/
theorem warningsBy_withEntries_of_none (s : Shared C) {entries : List (Entry C)} (worker : String)
    (others : ∀ entry ∈ entries, entry.hookWarning? worker = none) :
    (s.withEntries entries).warningsBy worker = s.warningsBy worker := by
  rw [warningsBy_withEntries, List.filterMap_eq_nil_iff.mpr others, List.append_nil]

/-- What is entered in nobody's name is no warning of a worker. -/
theorem hookWarning?_entries (s : Shared C) (events : List (Event C)) (worker : String) :
    ∀ entry ∈ s.entries none events, entry.hookWarning? worker = none := by
  intro entry mem
  obtain ⟨event, _, rfl⟩ := List.mem_map.mp mem
  rfl

/-- An entry that is no warning of the worker adds none. -/
theorem warningsBy_enter_of_none (s : Shared C) {name : Option String} {event : Event C} (worker : String)
    (other : ({ time := s.clock, worker := name, event } : Entry C).hookWarning? worker = none) :
    (s.enter name event).warningsBy worker = s.warningsBy worker := by
  rw [enter_eq]
  exact s.warningsBy_withEntries_of_none worker (List.forall_mem_singleton.mpr other)

theorem warningsBy_stop (s : Shared C) (name : Option String) (worker : String) :
    (s.stop name).warningsBy worker = s.warningsBy worker := by
  unfold stop
  split
  · refine s.warningsBy_enter_of_none worker ?_
    cases name with
    | none => rfl
    | some name => exact if_neg fun both => Bool.false_ne_true both.2
  · rfl

/-- A warning that a worker writes is shown under its name. -/
theorem warningsBy_answer (s : Shared C) (name worker : String) (request : Request C) (answer : request.Answer) :
    (s.answer (some name) request).2.warningsBy worker =
      s.warningsBy worker ++ if name = worker then (Deed.asked request answer).hookWarning?.toList else [] := by
  have silent (unwritten : (Deed.asked request answer).hookWarning? = none) :
      s.warningsBy worker = s.warningsBy worker ++
        if name = worker then (Deed.asked request answer).hookWarning?.toList else [] := by
    simp [unwritten]
  cases request with
  | log line =>
    have written : (s.enter (some name) (.log line)).warningsBy worker = _ :=
      (congrArg (warningsBy · worker) (s.enter_eq (some name) (.log line))).trans (s.warningsBy_withEntries _ worker)
    refine written.trans (congrArg (s.warningsBy worker ++ ·) ?_)
    by_cases same : name = worker <;> by_cases warns : line.isHookWarning = true <;>
      simp [Entry.hookWarning?, Deed.hookWarning?, same, warns]
  | client request =>
    cases request with
    | update => exact silent rfl
    | note n => exact (s.warningsBy_enter_of_none worker rfl).trans (silent rfl)
    | cancel token => cases token <;> exact silent rfl
    | stop => exact (s.warningsBy_stop (some name) worker).trans (silent rfl)
  | enter call => exact (s.warningsBy_enter_of_none worker rfl).trans (silent rfl)
  | record metric => exact (warningsBy_enter_of_none _ worker rfl).trans (silent rfl)
  | now | ended | registered | register | tally | escalate => exact silent rfl

end Shared

namespace Pool

variable {p q : Pool C} {events : List (Nat × Step C)}

theorem hookWarning?_spans (plan : PoolPlan C) (s : Shared C) (worker : String) :
    ∀ entry ∈ spans plan s, entry.hookWarning? worker = none := by
  intro entry mem
  obtain ⟨w, _, rfl⟩ := List.mem_map.mp mem
  rfl

/-- Nothing that the owner does adds a warning. -/
theorem OwnerActs.warningsBy (acts : p.OwnerActs q) (worker : String) :
    q.shared.warningsBy worker = p.shared.warningsBy worker := by
  cases acts with
  | start started =>
    obtain rfl := start_eq started
    refine (congrArg (Shared.warningsBy · worker) p.opened_eq).trans ?_
    refine Shared.warningsBy_withEntries_of_none _ worker ?_
    rw [List.forall_mem_append]
    exact ⟨p.shared.hookWarning?_entries _ worker, hookWarning?_spans _ _ worker⟩
  | stop => exact Shared.warningsBy_stop ..
  | cancelParent | addHooks | update | takeErrors | dropErrors | readErrors => rfl
  | receiveError =>
    unfold Pool.receiveError
    split <;> rfl

theorem warningsBy_fireReports (p : Pool C) (worker : String) :
    p.fireReports.shared.warningsBy worker = p.shared.warningsBy worker := by
  rw [fireReports_eq]
  exact Shared.warningsBy_withEntries_of_none _ worker (p.shared.hookWarning?_entries _ worker)

theorem warningsBy_closed (p : Pool C) (worker : String) :
    p.closed.warningsBy worker = p.shared.warningsBy worker := by
  rw [closed_eq]
  exact Shared.warningsBy_withEntries_of_none _ worker (p.shared.hookWarning?_entries _ worker)

/-- The warnings that a thread writes are added under the name of its worker, and no others. -/
theorem warningsBy_acts {w : Worker C} {thread thread' : Thread C} {s s' : Shared C} {steps : List (Step C)}
    (acts : thread.Acts w s steps thread' s') (worker : String) :
    s'.warningsBy worker = s.warningsBy worker ++ if w.id = worker then hookWarnings steps else [] := by
  cases acts with
  | ask request next =>
    rw [s.warningsBy_answer w.id worker request (s.answer (some w.id) request).1, hookWarnings_cons]
    simp [hookWarnings]
  | skip | notice | elapse | wake | sleep | proceed | leave | crash => simp [hookWarnings, Deed.hookWarning?]

/-- The journal shows the warnings that each worker has written, in that order. -/
theorem runs_warningsBy (b : PoolBuilder C) (state : C.State) (runs : (build b state).Runs events p) (n : Nat) :
    p.shared.warningsBy (b.plan.worker (n + 1)).id = hookWarnings (history n events) := by
  induction runs with
  | refl => rfl
  | @snoc events more p q runs acts ih =>
    rw [history_append, hookWarnings_append, ← ih]
    cases acts with
    | owner acts => exact (acts.warningsBy _).trans (List.append_nil _).symm
    | report => exact (p.warningsBy_fireReports _).trans (List.append_nil _).symm
    | conclude finished =>
      rw [conclude, if_pos finished]
      exact (p.warningsBy_closed _).trans (List.append_nil _).symm
    | tick => exact (List.append_nil _).symm
    | @work m seat _ _ steps at_m acts =>
      have shown := warningsBy_acts acts (b.plan.worker (n + 1)).id
      rw [(runs_at b state runs at_m).2] at shown
      refine shown.trans (congrArg _ ?_)
      by_cases same : m = n
      · subst same
        rw [if_pos rfl, history_map_self]
      · have others : (b.plan.worker (m + 1)).id ≠ (b.plan.worker (n + 1)).id := fun ids =>
          same (Nat.succ.inj (b.plan.worker_id_inj.mp ids))
        rw [if_neg others, history_map_of_ne same]
        rfl

/-- Whether the log of a pool shows, of the worker with that number, one warning for each call of a hook that failed
in its history, in their order, up to one that it is about to write. -/
def WarnsOfEach (b : PoolBuilder C) (p : Pool C) (events : List (Nat × Step C)) (n : Nat) : Prop :=
  ∃ owed : Option HookFailure,
    p.shared.warningsBy (b.plan.worker (n + 1)).id ++ owed.toList.map (·.warning (b.plan.worker (n + 1)).id) =
      (hookFailures b.processor {} (history n events)).map (·.warning (b.plan.worker (n + 1)).id) ∧
    (owed = none ∨ ∃ seat, p.crew[n]? = some seat ∧ seat.thread.isAsking = true)

/-- In any run each worker has warned of each hook that failed, but for one at most that it is about to warn of. -/
theorem runs_warnsOfEach (b : PoolBuilder C) (state : C.State) (runs : (build b state).Runs events p) (n : Nat) :
    WarnsOfEach b p events n := by
  rw [WarnsOfEach, runs_warningsBy b state runs]
  cases at_n : p.crew[n]? with
  | none =>
    rw [history_eq_nil_of_absent b state runs at_n]
    exact ⟨none, rfl, .inl rfl⟩
  | some seat =>
    obtain ⟨_, underway⟩ := exists_underway b state runs at_n
    have attends : (seat.worker.work seat.worker.id).Attends b.processor seat.worker.id := by
      rw [underway.work_eq at_n]
      exact attends_compose b.plan.iteration b.plan.layers
    obtain ⟨owed, busy, warned⟩ := (underway.at_history n seat at_n).warned attends
    rw [underway.worker_eq at_n] at warned
    exact ⟨owed, warned, busy.imp_right fun asks => ⟨seat, rfl, asks⟩⟩

/-! ## Two processors -/

/-- A pool whose processor only differs in what hooks return is, hushed, the same pool. -/
theorem hushed_build (b : PoolBuilder C) {other : Processor C} (alike : b.processor.Alike other) (state : C.State) :
    (build { b with processor := other } state).hushed = (build b state).hushed := by
  have planned : PoolPlan.hushed { b with processor := other }.plan = b.plan.hushed := by
    simp only [PoolPlan.hushed, PoolBuilder.plan, Iteration.hushed, alike.hushed_eq]
  exact congrArg (fun plan => { (build b state).hushed with plan }) planned

/-- Two pools that are built alike, but for what their hooks return where they do not panic, live the same lives. What
a hook returns may hang on the client's state, and so on the calls there have been. Whatever the owners ask in the same
order, the pools come to the same, the warnings about hooks aside: the same calls with the same arguments, recordings
and lines at the same times, the same escalations, the same states of the workers, the same result at the same time.
And however the steps of one fall out, those of the other may fall out so as well, up to those that write warnings and
up to what is said of how hooks ended. In both, each worker warns once of each call of a hook that failed, and of
nothing else, naming the place of the hook. -/
theorem hook_errors_change_nothing (b : PoolBuilder C) (other : Processor C) (alike : b.processor.Alike other)
    (state : C.State) :
    (∀ commands : List (Command C),
      ((build { b with processor := other } state).perform commands).hushed =
        ((build b state).perform commands).hushed) ∧
    ∀ (story : List (Occurrence C)) (p : Pool C), (build b state).Chronicle story p →
      (∀ n, WarnsOfEach b p (eventsOf story) n) ∧
      ∃ story' q, (build { b with processor := other } state).Chronicle story' q ∧
        (∀ n, WarnsOfEach { b with processor := other } q (eventsOf story') n) ∧
        story'.filterMap Occurrence.hushed = story.filterMap Occurrence.hushed ∧ q.hushed = p.hushed := by
  have same := hushed_build b alike state
  constructor
  · intro commands
    rw [hushed_perform, hushed_perform, same]
  · intro story p chronicle
    refine ⟨runs_warnsOfEach b state chronicle.runs, ?_⟩
    have hushed := chronicle.hushed
    rw [← same] at hushed
    obtain ⟨story', q, chronicle', alike, told⟩ := hushed.exists_unhushed
    exact ⟨story', q, chronicle', runs_warnsOfEach _ state chronicle'.runs, told, alike⟩

end Pool

/-! ## Any set of calls -/

/-- The client with the number of calls of hooks beside its own state. -/
def Client.numbered (C : Client) : Client :=
  { C with State := C.State × Nat }

/-- How a request is made that leaves the number as it is. -/
def ClientRequest.numbered : (request : ClientRequest C) → Program C.numbered.interface request.Answer
  | .update change =>
    .ask (I := C.numbered.interface) (.update fun state => (change state.1, state.2)) fun state => .done state.1
  | .note n => .ask (I := C.numbered.interface) (.note n) .done
  | .cancel token => .ask (I := C.numbered.interface) (.cancel token) .done
  | .stop => .ask (I := C.numbered.interface) .stop .done

/-- Client code that leaves the number as it is. -/
def Act.numbered (code : Act C α) : Act C.numbered α :=
  Program.interpret (J := C.numbered.interface) ClientRequest.numbered code

/-- The same thing done by a hook whose calls are numbered. -/
def HookStep.numbered : HookStep C → HookStep C.numbered
  | note n => .note n
  | register side hooks => .register side hooks
  | cancel token => .cancel token
  | stop => .stop

/-- How a call ends in whose place a result was put, unless it panics. -/
def Outcome.revised (outcome : Outcome Unit) : Option (PoolResult Unit) → Outcome Unit
  | none => outcome
  | some result =>
    match outcome, result with
    | .panic x, _ => .panic x
    | _, .ok () => .ok ()
    | _, .error e => .error e

/-- Whatever else a hook is told to return, it panics when it panicked before. -/
theorem Outcome.panic?_revised (outcome : Outcome Unit) (result : Option (PoolResult Unit)) :
    (outcome.revised result).panic? = outcome.panic? := by
  rcases result with _ | ⟨_ | _⟩ <;> cases outcome <;> rfl

/-- What a hook does whose calls are numbered, and in which place some calls return what they are told to. -/
def HookReply.numbered (revision : Nat → Option (PoolResult Unit)) (reply : C.State → HookReply C)
    (state : C.State × Nat) : HookReply C.numbered where
  state := ((reply state.1).state, state.2 + 1)
  steps := (reply state.1).steps.map HookStep.numbered
  outcome := (reply state.1).outcome.revised (revision state.2)

/-- The processor with its calls of hooks numbered, some of which return what `revision` says in the place of what
they would return. -/
def Processor.numbered (P : Processor C) (revision : Nat → Option (PoolResult Unit)) : Processor C.numbered where
  taskId := P.taskId
  checkout := fun worker => Act.numbered (P.checkout worker)
  process := fun task => Act.numbered (P.process task)
  complete := fun task duration => Act.numbered (P.complete task duration)
  fail := fun task error => Act.numbered (P.fail task error)
  preHook := fun hook worker task => HookReply.numbered revision (P.preHook hook worker task)
  postHook := fun hook worker task error => HookReply.numbered revision (P.postHook hook worker task error)

/-- Whichever calls of hooks are revised and however, the processors are alike. -/
theorem Processor.numbered_alike (P : Processor C) (revision other : Nat → Option (PoolResult Unit)) :
    (P.numbered revision).Alike (P.numbered other) := by
  have alike (reply : C.State → HookReply C) (state : C.State × Nat) :
      (HookReply.numbered revision reply state).Alike (HookReply.numbered other reply state) := by
    refine ⟨rfl, rfl, ?_⟩
    simp only [HookReply.numbered, Outcome.panic?_revised]
  constructor
  case preHook => exact fun hook worker task => alike (P.preHook hook worker task)
  case postHook => exact fun hook worker task error => alike (P.postHook hook worker task error)
  all_goals rfl

/-- The second call of a hook asks for the pool to be shut down. -/
def revolt : Nat → Option (PoolResult Unit)
  | 1 => some (.error (.poolShutdown "enough"))
  | _ => none

/-- The place of a hook that a line names. -/
def LogLine.place? (line : LogLine) : Option Nat :=
  line.fields.findSome? fun field =>
    match field with
    | ("hook", .number index) => some index
    | _ => none

namespace Pool

/-- A pool of one worker whose calls of hooks are numbered. -/
def ticketed (revision : Nat → Option (PoolResult Unit)) : PoolBuilder Client.bare.numbered where
  name := "lonely"
  processor := hasty.numbered revision
  workers := 1
  pollInterval := .ofMillis 10

/-- Where the second of two hooks asks for the pool to be shut down, its worker writes a warning that names it, and
otherwise all goes on as if the hook had not asked. -/
theorem hook_errors_change_nothing_of_revolt :
    (ticketed revolt).processor.Alike (hasty.numbered fun _ => none) ∧
    ∃ story p, (build (ticketed revolt) ((), 0)).Chronicle story p ∧ p.returned.isSome = true ∧
      (p.shared.warningsBy "lonely-worker-1").map (·.place?) = [some 1] ∧
      ∃ story' q,
        (build { ticketed revolt with processor := hasty.numbered fun _ => none } ((), 0)).Chronicle story' q ∧
          story'.filterMap Occurrence.hushed = story.filterMap Occurrence.hushed ∧ q.hushed = p.hushed := by
  let commands : List (Command Client.bare.numbered) := [.addHooks .pre [(), ()], .start, .advance 10]
  have alike := hasty.numbered_alike revolt fun _ => none
  obtain ⟨events, runs⟩ := runs_perform (ticketed revolt) ((), 0) commands
  obtain ⟨story, _, chronicle⟩ := runs.exists_chronicle
  obtain ⟨_, story', q, chronicle', _, told, same⟩ :=
    (hook_errors_change_nothing (ticketed revolt) _ alike ((), 0)).2 story _ chronicle
  exact ⟨alike, story, _, chronicle, by decide +kernel, by decide +kernel, story', q, chronicle', told, same⟩

end Pool

end WorkerPool
