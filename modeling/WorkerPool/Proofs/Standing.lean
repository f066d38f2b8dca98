import WorkerPool.Proofs.Accounts
import WorkerPool.Proofs.Bookkeeping

/-!
# Where a worker stands

`Worker.At` says that a worker's thread holds what is left of its loop. A `Worker.Stage` says how far that
is: which calls of the work are over, what has been done in one that is not, and what is still to be told
or handed over after the last one. At most one deed is ever left to be done so, and none while the worker
waits; and a worker that its last call has asked to leave does not wait any more
(`Worker.Departs`, `Worker.At.exists_stage`).

Together with the rule that the work keeps to (`bookkeeping`) this says how far a worker's recordings lag
behind what it has to record: by one at most, and not at all unless it is in the middle of a turn
(`Worker.Stage.owes`).
-/

namespace WorkerPool

variable {C : Client} {α β : Type} {T : Option Nat} {t t' now : Nat}

namespace Program

/-- Whether there is something left of code to be done. -/
def isPending {I : Interface} : Program I α → Bool
  | ask .. | wait .. => true
  | done _ | panic _ => false

/-- Whether code is about to ask for something. -/
def isAsking {I : Interface} : Program I α → Bool
  | ask .. => true
  | _ => false

/-- What asks for something still does so when its panics are caught. -/
theorem isAsking_guarded_bind {p : Code C (PoolResult α)} {f : Outcome α → Code C β} (h : p.isAsking = true) :
    (p.guarded >>= f).isAsking = true := by
  cases p with
  | ask => rfl
  | done | panic | wait => cases h

/-- Code that catches the panics of other code is still in it, or has gone on with its outcome. -/
theorem reaches_guarded_bind {p : Code C (PoolResult α)} {f : Outcome α → Code C β} {q : Code C β}
    {steps : List (Step C)} (h : (p.guarded >>= f).Reaches T t steps q t') :
    (∃ p', p.Reaches T t steps p' t' ∧ p'.isPending = true ∧ q = p'.guarded >>= f) ∨
      ∃ (outcome : Outcome α) (t₁ : Nat) (first second : List (Step C)), steps = first ++ second ∧
        p.Runs T t first outcome.ending t₁ ∧ (f outcome).Reaches T t₁ second q t' := by
  induction p generalizing t steps with
  | done result =>
    cases result with
    | ok value => exact .inr ⟨.ok value, t, [], steps, rfl, .done _ _, h⟩
    | error e => exact .inr ⟨.error e, t, [], steps, rfl, .done _ _, h⟩
  | panic x => exact .inr ⟨.panic x, t, [], steps, rfl, .panic _ _, h⟩
  | ask request next ih =>
    cases h with
    | refl => exact .inl ⟨_, .refl _ _, rfl, rfl⟩
    | ask admits rest =>
      rcases ih _ rest with ⟨p', reaches, pending, rfl⟩ | ⟨outcome, t₁, first, second, rfl, run, more⟩
      · exact .inl ⟨p', .ask admits reaches, pending, rfl⟩
      · exact .inr ⟨outcome, t₁, _, second, rfl, .ask admits run, more⟩
  | wait ms heeds next ih =>
    cases h with
    | refl => exact .inl ⟨_, .refl _ _, rfl, rfl⟩
    | wait ends rest =>
      rcases ih _ rest with ⟨p', reaches, pending, rfl⟩ | ⟨outcome, t₁, first, second, rfl, run, more⟩
      · exact .inl ⟨p', .wait ends reaches, pending, rfl⟩
      · exact .inr ⟨outcome, t₁, _, second, rfl, .wait ends run, more⟩

end Program

/-- Whether a deed is a wait. -/
def Deed.isWait : Deed C → Bool
  | .waited _ _ => true
  | .asked _ _ => false

/-- Whether a thread is about to ask for something, which takes it no time. -/
def Thread.isAsking : Thread C → Bool
  | .ready code => code.isAsking
  | _ => false

/-- Whether a deed is one of those that the loop of a worker does by itself, apart from waiting: to write a line
to the log, but never that the pool is being stopped, to tell the collector something, and to hand a request over. -/
def Deed.isChore : Deed C → Bool
  | .asked (.log line) _ => line.text ≠ stoppingText
  | .asked (.record _) _ | .asked (.escalate _) _ => true
  | _ => false

/-- To wait is no chore. -/
theorem Deed.isWait_of_isChore {deed : Deed C} (chore : deed.isChore = true) : deed.isWait = false := by
  cases deed with
  | waited => cases chore
  | asked => rfl

/-! ## Rules that the loop keeps to -/

/-- Whether what is left of a thread keeps to a rule that stands somewhere, and where the rule may stand between two
segments and in the end. -/
def Thread.Keeps (rule : Rule C σ) (rest : σ → Prop) : Thread C → σ → Prop
  | ready code, s => code.Keeps rule (fun s _ => rest s) s
  | waiting _ heeds next, s =>
    ∀ wake, ∃ s' ∈ rule s (.waited heeds wake), (next wake).Keeps rule (fun s _ => rest s) s'
  | exited, s => rest s

namespace Worker

variable {w : Worker C} {σ : Type} {rule : Rule C σ} {rest : σ → Prop} {s₀ : σ} {steps history : List (Step C)}

section

variable (starts : w.start.Keeps rule (fun s _ => rest s) s₀)
  (goes_on : ∀ state s, rest s → (w.segment state).Keeps rule (fun s _ => rest s) s)

include starts goes_on

/-- A whole loop has kept to a rule that the start and each segment of it keep to. -/
theorem Loops.keeps {e : Except Panic (Option WorkerState)} (h : w.Loops T t steps e t') :
    ∃ s, rule.follow s₀ steps = some s ∧ rest s := by
  induction h with
  | started run => exact Program.Keeps.runs starts run
  | again _ run ih =>
    obtain ⟨s, follows, between⟩ := ih
    obtain ⟨s', follows', ended⟩ := Program.Keeps.runs (goes_on _ s between) run
    exact ⟨s', by rw [Rule.follow_append, follows]; exact follows', ended⟩

/-- A loop that has come to some code has kept to the rule so far, and the code will go on to. -/
theorem Begins.keeps {code : Code C (Option WorkerState)} (h : w.Begins T t steps code t') :
    ∃ s, rule.follow s₀ steps = some s ∧ code.Keeps rule (fun s _ => rest s) s := by
  cases h with
  | start => exact ⟨s₀, rfl, starts⟩
  | segment loops =>
    obtain ⟨s, follows, between⟩ := loops.keeps starts goes_on
    exact ⟨s, follows, goes_on _ s between⟩

/-- A worker whose segments keep to a rule has kept to it, and so does what is left of its thread. -/
theorem At.keeps {thread : Thread C} (h : w.At T t now history thread) :
    ∃ s, rule.follow s₀ history = some s ∧ thread.Keeps rule rest s := by
  cases h with
  | ready begins reaches | waiting begins reaches =>
    obtain ⟨s, follows, code⟩ := begins.keeps starts goes_on
    obtain ⟨s', follows', rest⟩ := Program.Keeps.reaches code reaches
    exact ⟨s', by rw [Rule.follow_append, follows]; exact follows', rest⟩
  | exited loops => exact loops.keeps starts goes_on

end

end Worker

/-! ## After a call -/

namespace Worker

variable {w : Worker C} {state : WorkerState} {steps : List (Step C)}

/-- Lines about a worker do not say that the pool is being stopped. -/
theorem worker_text_ne (id rest : String) : "🔨 Worker " ++ id ++ rest ≠ stoppingText := by
  intro same
  have letters := congrArg String.toList same
  simp [stoppingText] at letters

/-- What the loop of a worker logs about it is not that the pool is being stopped: the texts differ in their
first letter. -/
theorem text_ne (id rest : String) : "Worker " ++ id ++ rest ≠ stoppingText := by
  intro same
  have letters := congrArg String.toList same
  simp [stoppingText] at letters

/-- What a worker makes of the outcome of its work: a panic becomes an error. -/
def contain (w : Worker C) : Outcome Unit → Code C (PoolResult Unit)
  | .ok () => return .ok ()
  | .error e => return .error e
  | .panic p => do
    let e := PoolError.ofPanic p
    Code.log .error "🔨 Worker iteration panicked" [
      ("worker", .text w.id),
      ("error", .text e.message)]
    Code.record (.workerPanicked w.id)
    return .error e

/-- What a worker does with the result of an iteration that was begun in a state. -/
def follow (w : Worker C) (state : WorkerState) (result : PoolResult Unit) : Code C WorkerState := do
  let next := WorkerState.after result
  match result with
  | .ok () => pure ()
  | .error e => w.react next e
  if next ≠ state then
    Code.log .debug ("Worker " ++ w.id ++ " changed state") [
      ("from", .text state.label),
      ("to", .text next.label)]
  return next

/-- What a worker does after a call of its work. -/
def aftermath (w : Worker C) (state : WorkerState) (outcome : Outcome Unit) : Code C (Option WorkerState) := do
  let result ← w.contain outcome
  return some (← w.follow state result)

/-- A worker whose wait has run out works and then does what follows. -/
theorem wakeUp_elapsed : w.wakeUp state .elapsed = (w.work w.id).guarded >>= w.aftermath state := by
  have iterates : w.iterate = (w.work w.id).guarded >>= w.contain := rfl
  have rounds : w.round state = w.iterate >>= w.follow state := rfl
  unfold wakeUp
  rw [rounds, iterates]
  simp only [bind_assoc]
  rfl

/-- To contain an outcome takes no time: a panic is written to the log and told, and becomes an error. -/
theorem contain_runs {outcome : Outcome Unit} {e : Except Panic (PoolResult Unit)}
    (h : (w.contain outcome).Runs T t steps e t') :
    e = .ok outcome.caught ∧ t' = t ∧
      unlogged steps = Shift.panicNote w.id ⟨t, t, [], outcome⟩ := by
  cases outcome with
  | ok | error =>
    obtain ⟨rfl, rfl, rfl⟩ := Program.runs_pure.mp h
    exact ⟨rfl, rfl, rfl⟩
  | panic x =>
    simp only [contain, Code.runs_log_bind, Code.runs_record_bind, Program.runs_pure] at h
    obtain ⟨_, rfl, _, rfl, rfl, rfl, rfl⟩ := h
    exact ⟨rfl, rfl, rfl⟩

/-- After a call the worker takes its next state, and hands its request over if that is to shut down. -/
theorem follow_runs {call : Stretch C Unit} {e : Except Panic WorkerState}
    (h : (w.follow state call.outcome.caught).Runs T call.ended steps e t') :
    ∃ next taken, e = .ok next ∧ unlogged steps = (Shift.mk call taken).handover := by
  cases caught : call.outcome.caught with
  | ok =>
    rw [caught] at h
    obtain ⟨rfl, _, unlogged_eq, _⟩ := runs_changed h
    exact ⟨_, true, rfl, by simp [unlogged_eq, Shift.handover, caught]⟩
  | error error =>
    rw [caught] at h
    obtain ⟨x, rfl, reacts⟩ | ⟨_, t₁, first, rest, rfl, reacts, next⟩ := Program.runs_bind.mp h
    · cases (react_runs reacts).1
    · obtain ⟨_, rfl, _, taken, unlogged_first⟩ := react_runs reacts
      obtain ⟨rfl, _, unlogged_rest, _⟩ := runs_changed next
      exact ⟨_, taken, rfl, by simp [unlogged_first, unlogged_rest, Shift.handover, Shift.state, caught]⟩

/-- Beside the log, a call is followed by the recording of its panic or by handing its request over. -/
theorem aftermath_runs {call : Stretch C Unit} {e : Except Panic (Option WorkerState)}
    (h : (w.aftermath state call.outcome).Runs T call.ended steps e t') :
    ∃ taken, unlogged steps = Shift.panicNote w.id call ++ (Shift.mk call taken).handover := by
  rcases Program.runs_bind.mp h with ⟨x, rfl, run⟩ | ⟨result, t₁, first, rest, rfl, run, next⟩
  · cases (contain_runs run).1
  obtain ⟨he, rfl, noted⟩ := contain_runs run
  cases he
  have noted' : unlogged first = Shift.panicNote w.id call := noted.trans (by
    unfold Shift.panicNote
    cases call.outcome <;> rfl)
  rcases Program.runs_bind.mp next with ⟨x, rfl, run⟩ | ⟨state', t₂, second, third, rfl, run, last⟩
  · obtain ⟨_, _, he, _⟩ := follow_runs run
    cases he
  · obtain ⟨_, taken, _, handed⟩ := follow_runs run
    obtain ⟨rfl, _, _⟩ := Program.runs_pure.mp last
    exact ⟨taken, by simp [noted', handed]⟩

section

variable {kind : Deed C → Bool} (chores : ∀ deed : Deed C, deed.isChore = true → kind deed = false)

include chores

theorem shuns_log {level : LogLevel} {text : String} {fields : List (String × LogValue)}
    (other : text ≠ stoppingText) : (Code.log level text fields : Code C Unit).Shuns kind :=
  .ask (fun _ => chores _ (decide_eq_true other)) fun _ => .pure _

theorem shuns_record (metric : Metric) : (Code.record metric : Code C Unit).Shuns kind :=
  .ask (fun _ => chores _ rfl) fun _ => .pure _

/-- Containing an outcome takes chores only. -/
theorem shuns_contain (outcome : Outcome Unit) : (w.contain outcome).Shuns kind := by
  cases outcome with
  | ok | error => exact .pure _
  | panic x => exact (shuns_log chores (by decide)).bind fun _ => (shuns_record chores _).bind fun _ => .pure _

theorem shuns_react (next : WorkerState) (error : PoolError) : (w.react next error).Shuns kind := by
  cases next with
  | shuttingDown =>
    refine (shuns_log chores (worker_text_ne _ _)).bind fun _ => .ask (fun _ => chores _ rfl) fun taken => ?_
    cases taken with
    | true => exact .pure _
    | false => exact shuns_log chores (by decide)
  | terminated => exact shuns_log chores (worker_text_ne _ _)
  | active | idle =>
    unfold react
    dsimp only
    split
    · exact .pure _
    · exact shuns_log chores (text_ne _ _)

theorem shuns_follow (state : WorkerState) (result : PoolResult Unit) : (w.follow state result).Shuns kind := by
  have changed (next : WorkerState) : Program.Shuns kind (do
      if next ≠ state then
        Code.log .debug ("Worker " ++ w.id ++ " changed state") [
          ("from", .text state.label),
          ("to", .text next.label)]
      return next : Code C WorkerState) := by
    by_cases same : next = state
    · simp only [same, ne_eq, not_true_eq_false, ↓reduceIte]
      exact .pure _
    · simp only [ne_eq, same, not_false_eq_true, ↓reduceIte]
      exact (shuns_log chores (text_ne _ _)).bind fun _ => .pure _
  cases result with
  | ok => exact changed _
  | error e => exact (shuns_react chores _ e).bind fun _ => changed _

/-- After a call of its work a loop does chores only. -/
theorem shuns_aftermath (state : WorkerState) (outcome : Outcome Unit) :
    (w.aftermath state outcome).Shuns kind :=
  (shuns_contain chores outcome).bind fun result => (shuns_follow chores state result).bind fun _ => .pure _

theorem shuns_closing : (do w.closing; return none : Code C (Option WorkerState)).Shuns kind :=
  ((shuns_record chores _).bind fun _ => shuns_log chores (worker_text_ne _ _)).bind fun _ => .pure _

variable (waits : ∀ heeds wake, kind (.waited heeds wake) = false) (work : (w.work w.id).Shuns kind)

include waits work

/-- The loop of a worker does nothing but its chores, to wait, and what its work does. -/
theorem shuns_segment (state : WorkerState) : (w.segment state).Shuns kind := by
  cases interval : w.schedule.interval? state with
  | none =>
    rw [segment_of_over interval]
    exact shuns_closing chores
  | some delay =>
    rw [segment_of_interval interval]
    refine .wait (waits true) fun wake => ?_
    cases wake with
    | cancelled => exact (shuns_log chores (worker_text_ne _ _)).bind fun _ => shuns_closing chores
    | elapsed =>
      rw [wakeUp_elapsed]
      exact work.guarded.bind fun outcome => shuns_aftermath chores state outcome

/-- If its work shuns a kind of deed that is no chore, a loop shuns it from its start on. -/
theorem shuns_start : w.start.Shuns kind :=
  ((shuns_record chores _).bind fun _ => shuns_log chores (worker_text_ne _ _)).bind fun _ =>
    shuns_segment chores waits work .active

/-- So a worker has never done a deed of that kind, wherever it is. -/
theorem At.shuns {thread : Thread C} (h : w.At T t now steps thread) :
    ∀ step ∈ steps, kind step.deed = false := by
  have kept : ∃ s : Unit, Rule.follow (fun _ deed => if kind deed then none else some ()) () steps = some s ∧
      thread.Keeps _ (fun _ => True) s :=
    h.keeps (shuns_start chores waits work) fun state _ _ => shuns_segment chores waits work state
  obtain ⟨_, follows, _⟩ := kept
  exact Program.Shuns.of_follow follows

end

/-- Whether a worker that stands at some code leaves without waiting, whatever it is answered. -/
def Departs (w : Worker C) (code : Code C (Option WorkerState)) : Prop :=
  code.Keeps (fun _ deed => if deed.isWait then none else some ())
    (fun _ e => ∀ state, e = .ok (some state) → w.schedule.interval? state = none) ()

/-- Who leaves without waiting takes no time over it. -/
theorem Departs.reaches {code rest : Code C (Option WorkerState)} (departs : w.Departs code)
    (reaches : code.Reaches T t steps rest t') : t' = t ∧ w.Departs rest := by
  induction reaches with
  | refl => exact ⟨rfl, departs⟩
  | ask _ _ ih =>
    obtain ⟨_, _, goes_on⟩ := departs _
    exact ih goes_on
  | wait =>
    obtain ⟨_, allowed, _⟩ := departs .elapsed
    cases allowed

/-- Who says farewell leaves without waiting. -/
theorem departs_closing : w.Departs (do w.closing; return none) :=
  fun _ => ⟨(), rfl, fun _ => ⟨(), rfl, nofun⟩⟩

/-- A worker that its call has asked to leave does so without waiting. -/
theorem departs_aftermath (state : WorkerState) (shift : Shift C) (retires : shift.call.outcome.Retires) :
    w.Departs (w.aftermath state shift.call.outcome) := by
  have finished := (shift.interval?_state_eq_none_iff w.schedule).mpr retires
  obtain ⟨e, outcome, _⟩ := retires
  have quick := fun deed : Deed C => deed.isWait_of_isChore
  unfold Shift.state at finished
  have reacts : w.aftermath state (.error e) = w.follow state (.error e) >>= fun next => pure (some next) := rfl
  rw [outcome] at finished
  rw [outcome, reacts]
  refine Program.keeps_bind.mpr ((shuns_react quick _ e).keeps_bind (fun _ => ?_) fun _ => nofun)
  by_cases same : WorkerState.after (.error e) = state
  · rw [if_neg (by simpa using same)]
    rintro _ ⟨⟩
    exact finished
  · rw [if_pos same]
    refine (shuns_log quick (text_ne _ _)).keeps_bind (fun _ => ?_) fun _ => nofun
    rintro _ ⟨⟩
    exact finished

/-- Whether it is the loop of a worker, and not its work, that makes a request. -/
def isOfLoop : Request C → Bool
  | .escalate _ | .record (.workerStarted _) | .record (.workerPanicked _) | .record (.workerStopped _) => true
  | _ => false

/-- Whether a transcript holds one request of the loop at most, and nothing else. -/
def Brief (steps : List (Step C)) : Prop :=
  steps = [] ∨ ∃ time request answer, isOfLoop request = true ∧ steps = [⟨time, .asked request answer⟩]

theorem Brief.of_append {first second : List (Step C)} (h : Brief (first ++ second)) : Brief second := by
  rcases h with none | ⟨time, request, answer, own, one⟩
  · exact .inl (List.append_eq_nil_iff.mp none).2
  · rcases List.append_eq_singleton_iff.mp one with ⟨_, rfl⟩ | ⟨_, rfl⟩
    · exact .inr ⟨time, request, answer, own, rfl⟩
    · exact .inl rfl

/-- Code that still has a request to make beside the log, and nothing else, is about to ask for
something. -/
theorem Brief.isAsking {ahead : List (Step C)} (h : Brief (unlogged ahead)) {code : Code C α}
    {e : Except Panic α} (run : code.Runs T t ahead e t') : unlogged ahead = [] ∨ code.isAsking = true := by
  cases run with
  | done | panic => exact .inl rfl
  | ask => exact .inr rfl
  | wait =>
    rw [unlogged_cons_waited] at h
    rcases h with none | ⟨_, _, _, _, one⟩
    · cases none
    · cases one

/-- One request at most follows a call beside the log. -/
theorem brief_aftermath (id : String) (shift : Shift C) :
    Brief (Shift.panicNote id shift.call ++ shift.handover) := by
  unfold Shift.panicNote Shift.handover Shift.state
  cases outcome : shift.call.outcome with
  | ok => exact .inl rfl
  | panic x => exact .inr ⟨_, _, _, rfl, rfl⟩
  | error e =>
    by_cases asks : WorkerState.after (.error e) = .shuttingDown
    · refine .inr ⟨shift.call.ended, .escalate e, shift.taken, rfl, ?_⟩
      simp [Outcome.caught, asks]
    · exact .inl (by simp [Outcome.caught, asks])

/-! ## Stages -/

/-- What a worker's loop begins with, beside the log. -/
def greeting (w : Worker C) (time : Nat) : Step C :=
  ⟨time, .asked (.record (.workerStarted w.id)) ()⟩

/-- How far a worker has got that stands at some code after its history: the calls of its work that are
over, what has been done in one that is not, and what is late, which is to be done beside the log before
the code waits again or ends. -/
inductive Stage (w : Worker C) (T : Option Nat) (t : Nat) : (history : List (Step C)) →
    (code : Code C (Option WorkerState)) → (served : List (Shift C)) → (current late : List (Step C)) → Prop
  /-- No call is under way. -/
  | between {history late : List (Step C)} {code : Code C (Option WorkerState)} {served : List (Shift C)}
      {next : Option WorkerState} {time : Nat} (row : w.Row T t served)
      (did : unlogged history ++ late =
        w.greeting t :: (served.flatMap (·.story w.id) ++ w.departure (standing served) next time))
      (brief : Brief late) (busy : late = [] ∨ code.isAsking = true) : Stage w T t history code served [] late
  /-- A call is under way, and this is what is left of it. -/
  | working {history current : List (Step C)} {rest : Code C (PoolResult Unit)} {served : List (Shift C)}
      {begun time : Nat} (row : w.Row T t served) (reaches : (w.work w.id).Reaches T begun current rest time)
      (pending : rest.isPending = true)
      (did : unlogged history = w.greeting t :: (served.flatMap (·.story w.id) ++
        ⟨begun, .waited true .elapsed⟩ :: unlogged current)) :
      Stage w T t history (rest.guarded >>= w.aftermath (standing served)) served current []

variable {before : List (Step C)} {code : Code C (Option WorkerState)} {served : List (Shift C)}

/-- Whether a worker whose last call has asked it to leave does so in the millisecond in which that call ended. -/
def Prompt (w : Worker C) (served : List (Shift C)) (code : Code C (Option WorkerState)) (now : Nat) : Prop :=
  ∀ last, served.getLast? = some last → last.call.outcome.Retires → now = last.call.ended ∧ w.Departs code

/-- Who is to wait for another call has not been asked to leave. -/
theorem prompt_of_interval {delay : Duration} (interval : w.schedule.interval? (standing served) = some delay)
    (code : Code C (Option WorkerState)) (now : Nat) : w.Prompt served code now := by
  intro last last_eq retires
  have finished := (last.interval?_state_eq_none_iff w.schedule).mpr retires
  have state_eq : standing served = last.state := by simp [standing, last_eq]
  rw [state_eq, finished] at interval
  cases interval

theorem prompt_nil (code : Code C (Option WorkerState)) (now : Nat) : w.Prompt [] code now := by
  intro last last_eq
  cases last_eq

/-- Where code is short, it is enough to know what it comes to in the end. -/
theorem stage_of_reaches [Nonempty C.State] {short : Code C (Option WorkerState)} {t₁ : Nat}
    (reaches : short.Reaches T t₁ steps code now)
    (whole : ∀ all e t', short.Runs T t₁ all e t' → Brief (unlogged all) ∧
      ∃ served next time, w.Row T t served ∧ unlogged before ++ unlogged all =
          w.greeting t :: (served.flatMap (·.story w.id) ++ w.departure (standing served) next time) ∧
        w.Prompt served short t₁) :
    ∃ served current late, w.Stage T t (before ++ steps) code served current late ∧ w.Prompt served code now := by
  obtain ⟨ahead, e, t', run, all⟩ := reaches.exists_runs
  obtain ⟨brief, served, next, time, row, did, prompt⟩ := whole _ e t' all
  rw [unlogged_append] at brief
  rw [unlogged_append, ← List.append_assoc, ← unlogged_append] at did
  refine ⟨served, [], unlogged ahead, .between row did brief.of_append (brief.of_append.isAsking run), ?_⟩
  intro last last_eq retires
  obtain ⟨ended, departs⟩ := prompt last last_eq retires
  obtain ⟨rfl, still⟩ := departs.reaches reaches
  exact ⟨ended, still⟩

/-- A worker that has got some way into a segment is at one of the stages. A segment waits, calls the work and
does what follows, and the cases are which of these the code has come to. -/
theorem stage_of_segment [Nonempty C.State] (before : List (Step C)) (row : w.Row T t served)
    (did : unlogged before = w.greeting t :: served.flatMap (·.story w.id))
    (reaches : (w.segment (standing served)).Reaches T (since t served) steps code now) :
    ∃ served current late, w.Stage T t (before ++ steps) code served current late ∧ w.Prompt served code now := by
  cases interval : w.schedule.interval? (standing served) with
  | none =>
    rw [segment_of_over interval] at reaches
    refine stage_of_reaches reaches fun all e t' run => ?_
    obtain ⟨_, _, all_eq, _⟩ := closing_runs run
    rw [all_eq]
    refine ⟨.inr ⟨_, _, _, rfl, rfl⟩, served, none, since t served, row, ?_, fun last last_eq _ => ?_⟩
    · simp [did, departure, interval]
    · exact ⟨by simp [since, last_eq], departs_closing⟩
  | some delay =>
    rw [segment_of_interval interval] at reaches
    cases reaches with
    | refl =>
      have none_yet : unlogged (before ++ []) ++ [] = w.greeting t ::
          (served.flatMap (·.story w.id) ++ w.departure (standing served) (some .active) t) := by
        simp [did, departure]
      exact ⟨served, [], [], .between row none_yet (.inl rfl) (.inl rfl), prompt_of_interval interval _ _⟩
    | @wait _ _ _ wake _ _ t₁ _ steps ends rest =>
      rw [List.append_cons]
      cases wake with
      | cancelled =>
        refine stage_of_reaches rest fun all e t' run => ?_
        obtain ⟨more, rfl, closes⟩ := Code.runs_log_bind.mp run
        obtain ⟨_, rfl, all_eq, _⟩ := closing_runs closes
        rw [unlogged_cons_log, all_eq]
        refine ⟨.inr ⟨_, _, _, rfl, rfl⟩, served, none, t', row, ?_, prompt_of_interval interval _ _⟩
        simp [did, departure, interval]
      | elapsed =>
        rw [wakeUp_elapsed] at rest
        rcases Program.reaches_guarded_bind rest with
          ⟨left, reaches, pending, rfl⟩ | ⟨outcome, t₂, first, second, rfl, run, after⟩
        · have under_way : unlogged (before ++ [⟨t₁, .waited true .elapsed⟩] ++ steps) = w.greeting t ::
              (served.flatMap (·.story w.id) ++ ⟨t₁, .waited true .elapsed⟩ :: unlogged steps) := by simp [did]
          exact ⟨served, steps, [], .working row reaches pending under_way, prompt_of_interval interval _ _⟩
        · rw [← List.append_assoc]
          refine stage_of_reaches after fun all e t' all_run => ?_
          let call : Stretch C Unit := ⟨t₁, t₂, first, outcome⟩
          have all_run : (w.aftermath (standing served) call.outcome).Runs T call.ended all e t' := all_run
          obtain ⟨taken, all_eq⟩ := aftermath_runs all_run
          rw [all_eq]
          have row : w.Row T t (served ++ [⟨call, taken⟩]) := .snoc row interval ends run
          refine ⟨brief_aftermath w.id ⟨call, taken⟩, _, some .active, t', row, ?_, fun last last_eq retires => ?_⟩
          · simp [did, departure, Shift.story, call]
          · rw [List.getLast?_concat] at last_eq
            cases last_eq
            exact ⟨rfl, departs_aftermath _ ⟨call, taken⟩ retires⟩

/-- A worker that has got some way into its first code, or from there on, is at one of the stages. -/
theorem Begins.exists_stage [Nonempty C.State] {first : Code C (Option WorkerState)} {t₁ : Nat}
    (h : w.Begins T t before first t₁) (reaches : first.Reaches T t₁ steps code now) :
    ∃ served current late, w.Stage T t (before ++ steps) code served current late ∧ w.Prompt served code now := by
  cases h with
  | segment loops =>
    obtain ⟨next, did, served, he, unlogged_eq, row, stands, did_eq, _⟩ := loops.consists
    cases he
    cases stands with
    | @onward last last_eq =>
      have state_eq : last.state = standing served := by simp [standing, last_eq]
      have since_eq : last.call.ended = since t served := by simp [since, last_eq]
      rw [state_eq, since_eq] at reaches
      exact stage_of_segment before row (by simp [unlogged_eq, did_eq, departure, greeting]) reaches
  | start =>
    -- The loop opens with a recording and a line of the log, and goes on with its first segment.
    have opens : [w.greeting t] = w.greeting t :: (([] : List (Shift C)).flatMap (·.story w.id) ++
        w.departure (standing ([] : List (Shift C))) (some .active) t) := rfl
    cases reaches with
    | refl =>
      exact ⟨[], [], [w.greeting t], .between .nil opens (.inr ⟨_, _, _, rfl, rfl⟩) (.inr rfl), prompt_nil _ _⟩
    | ask _ rest =>
      cases rest with
      | refl => exact ⟨[], [], [], .between .nil opens (.inl rfl) (.inl rfl), prompt_nil _ _⟩
      | ask _ rest => exact stage_of_segment [_, _] .nil rfl rest

/-- A worker of a pool stands somewhere, and what is late is done as soon as its thread goes on. It leaves
only because its token is cancelled, or because one of its own calls asks it to; and then it does so in the
millisecond in which that call ended. -/
theorem At.exists_stage [Nonempty C.State] {history : List (Step C)} {thread : Thread C}
    (h : w.At T t now history thread) : ∃ code served current late,
      w.Stage T t history code served current late ∧ code.isAsking = thread.isAsking ∧
      (thread = .exited → (∃ moment, moment ∈ T) ∨ ∃ shift ∈ served, shift.call.outcome.Retires) ∧
      ∀ last, served.getLast? = some last → last.call.outcome.Retires →
        thread = .exited ∨ now = last.call.ended ∧ ∃ code, thread = .ready code ∧ w.Departs code := by
  cases h with
  | ready begins reaches =>
    obtain ⟨served, current, late, stage, prompt⟩ := begins.exists_stage reaches
    refine ⟨_, served, current, late, stage, rfl, nofun, fun last last_eq retires => ?_⟩
    obtain ⟨ended, departs⟩ := prompt last last_eq retires
    exact .inr ⟨ended, _, rfl, departs⟩
  | waiting begins reaches =>
    obtain ⟨served, current, late, stage, prompt⟩ := begins.exists_stage reaches
    refine ⟨_, served, current, late, stage, rfl, nofun, fun last last_eq retires => ?_⟩
    obtain ⟨_, allowed, _⟩ := (prompt last last_eq retires).2 .elapsed
    cases allowed
  | exited loops =>
    obtain ⟨next, did, served, he, unlogged_eq, row, stands, did_eq, _⟩ := loops.consists
    cases he
    rw [did_eq, ← List.append_nil (unlogged history)] at unlogged_eq
    refine ⟨.done none, served, [], [], .between row unlogged_eq (.inl rfl) (.inl rfl), rfl, fun _ => ?_,
      fun _ _ _ => .inl rfl⟩
    cases stands with
    | cancelled _ mem => exact .inl ⟨_, mem⟩
    | @left last last_eq finished =>
      exact .inr ⟨last, List.mem_of_getLast? last_eq, (last.interval?_state_eq_none_iff w.schedule).mp finished⟩

/-! ## What a worker has still to tell -/

/-- How many calls of the work ended with a panic, which the loop has to tell. -/
def escaped (shifts : List (Shift C)) : MetricKind → Nat
  | .workerPanicked => shifts.countP fun shift => shift.call.outcome.panic?.isSome
  | _ => 0

section

variable {kind : MetricKind} {it : Iteration C} {layers : List (Layer C)} {shifts : List (Shift C)}

theorem isOwed_iff : kind.isOwed = true ↔ kind = .checkoutError ∨ kind = .workerPanicked := by
  cases kind <;> decide

theorem escaped_cons (shift : Shift C) (rest : List (Shift C)) :
    escaped (shift :: rest) kind = escaped [shift] kind + escaped rest kind := by
  cases kind <;> first | rfl | (simp only [escaped, List.countP_cons, List.countP_nil]; omega)

/-- The loop tells of a panic that escaped its work, and is obliged to nothing by it. -/
theorem countP_panicMarks (isOwed : kind.isOwed = true) (id : String) (shift : Shift C) :
    (panicMarks (C := C) id shift.call.ended shift.call.outcome).countP (fun mark => mark.2.tells kind) =
        escaped [shift] kind ∧
      (panicMarks (C := C) id shift.call.ended shift.call.outcome).countP (fun mark => mark.2.obliges kind) = 0 := by
  rcases isOwed_iff.mp isOwed with rfl | rfl
  · cases shift.call.outcome <;> exact ⟨rfl, rfl⟩
  · simp only [escaped, List.countP_singleton]
    cases shift.call.outcome <;> exact ⟨rfl, rfl⟩

/-- What has been told of calls that are over is what was due, and of each panic that escaped them. -/
theorem told_calls (isOwed : kind.isOwed = true) (work : w.work = Layer.compose layers it.work)
    (isOf : ∀ shift ∈ shifts, shift.call.IsOf T (w.work w.id)) :
    (w.callMarks shifts).countP (fun mark => mark.2.tells kind) =
      (w.callMarks shifts).countP (fun mark => mark.2.obliges kind) + escaped shifts kind := by
  induction shifts with
  | nil => cases kind <;> rfl
  | cons shift rest ih =>
    have later := ih fun other mem => isOf other (by simp [mem])
    have run : (Layer.compose layers it.work w.id).Runs T _ shift.call.steps _ _ := work ▸ isOf shift (by simp)
    obtain ⟨owed, follows, settled⟩ := (settles_compose layers).runs run
    subst settled
    have balance := bookkeeping_balance isOwed follows
    obtain ⟨told_panic, free⟩ := countP_panicMarks isOwed w.id shift
    unfold told countMarks at balance
    unfold callMarks at later ⊢
    simp only [List.flatMap_cons, List.countP_append, escaped_cons shift rest]
    omega

/-- In the stories of the calls nothing is marked but what the calls mark and what is told of their panics. -/
theorem countMarks_stories (sort : Mark C → Bool) :
    countMarks sort (shifts.flatMap (·.story w.id)) = (w.callMarks shifts).countP fun mark => sort mark.2 := by
  rw [countMarks, marks_flatMap]
  simp only [marks_story]
  rfl

section

variable {sort : Mark C → Bool}

/-- Before anything else a loop tells that it begins, and after its calls there may be more. -/
theorem countMarks_greeted (greets : sort (.told (.workerStarted w.id)) = false) (more : List (Step C)) :
    countMarks sort (w.greeting t :: (shifts.flatMap (·.story w.id) ++ more)) =
      (w.callMarks shifts).countP (fun mark => sort mark.2) + countMarks sort more := by
  have begins : (w.greeting t).deed.mark?.any sort = false := greets
  rw [countMarks_cons, begins, countMarks_append, countMarks_stories]
  exact Nat.zero_add _

/-- Nothing is marked at a departure but the farewell. -/
theorem countMarks_departure (leaves : sort (.told (.workerStopped w.id)) = false) (state : WorkerState)
    (next : Option WorkerState) (time : Nat) : countMarks sort (w.departure state next time) = 0 := by
  rw [countMarks, marks_departure]
  split <;> simp [leaves]

end

theorem tells_loop (isOwed : kind.isOwed = true) (id : String) :
    (Mark.told (.workerStarted id) : Mark C).tells kind = false ∧
      (Mark.told (.workerStopped id) : Mark C).tells kind = false := by
  rcases isOwed_iff.mp isOwed with rfl | rfl <;> exact ⟨rfl, rfl⟩

/-- Code that keeps to the rule of the work owes nothing while it waits. -/
theorem none_or_isAsking {owed : Option MetricKind} {post : Option MetricKind → Except Panic α → Prop}
    {rest : Code C α} (pending : rest.isPending = true) (keeps : rest.Keeps bookkeeping post owed) :
    owed = none ∨ rest.isAsking = true := by
  cases rest with
  | done | panic => cases pending
  | ask => exact .inr rfl
  | wait ms heeds next =>
    obtain ⟨_, allowed, _⟩ := keeps .elapsed
    refine .inl (of_not_not fun owing => ?_)
    simp [bookkeeping, owing] at allowed

/-- What is late obliges to nothing. -/
theorem Brief.obliges {late : List (Step C)} (h : Brief late) :
    countMarks (Mark.obliges kind) late = 0 := by
  rcases h with rfl | ⟨time, request, answer, own, rfl⟩
  · rfl
  · cases request with
    | escalate error => rfl
    | record metric => cases metric <;> rfl
    | _ => cases own

/-- What is late tells of one panic at most. -/
theorem Brief.owes {late : List (Step C)} (h : Brief late) :
    ∃ owed : Option MetricKind, (late = [] → owed = none) ∧
      ∀ kind : MetricKind, kind.isOwed = true → told kind late = if owed = some kind then 1 else 0 := by
  rcases h with rfl | ⟨time, request, answer, own, rfl⟩
  · exact ⟨none, fun _ => rfl, fun _ _ => rfl⟩
  have silent (kind : MetricKind)
      (other : (Deed.asked request answer).mark?.any (Mark.tells kind) = false) :
      told kind [⟨time, .asked request answer⟩] = 0 := by
    rw [told, countMarks_cons, other]
    rfl
  cases request with
  | escalate error => exact ⟨none, fun _ => rfl, fun kind _ => silent kind rfl⟩
  | record metric =>
    cases metric with
    | workerPanicked id =>
      refine ⟨some .workerPanicked, fun none => absurd none (List.cons_ne_nil _ _), fun kind isOwed => ?_⟩
      rcases isOwed_iff.mp isOwed with rfl | rfl <;> rfl
    | workerStarted id | workerStopped id =>
      refine ⟨none, fun _ => rfl, fun kind isOwed => silent kind ?_⟩
      rcases isOwed_iff.mp isOwed with rfl | rfl <;> rfl
    | _ => cases own
  | _ => cases own

/-- A worker owes the collector one recording at most, and none unless it is about to ask for something:
what it has told beside that is what was due, and each panic that escaped its work. -/
theorem Stage.owes {history current late : List (Step C)} (work : w.work = Layer.compose layers it.work)
    (stage : w.Stage T t history code served current late) :
    ∃ owed : Option MetricKind, (owed = none ∨ code.isAsking = true) ∧
      ∀ kind : MetricKind, kind.isOwed = true → told kind history + (if owed = some kind then 1 else 0) =
        countMarks (Mark.obliges kind) history + escaped served kind := by
  cases stage with
  | between row did brief busy =>
    obtain ⟨owed, free, late_told⟩ := brief.owes
    refine ⟨owed, busy.imp_left free, fun kind isOwed => ?_⟩
    -- Between calls, only what is late may be owed: a panic that is still to be told.
    obtain ⟨greets, leaves⟩ := tells_loop (C := C) isOwed w.id
    have called := told_calls isOwed work row.isOf
    have told_all := congrArg (countMarks (Mark.tells kind)) did
    have due_all := congrArg (countMarks (Mark.obliges kind)) did
    rw [countMarks_append, countMarks_unlogged, countMarks_greeted greets, countMarks_departure leaves]
      at told_all
    rw [countMarks_append, countMarks_unlogged, countMarks_greeted rfl, countMarks_departure rfl,
      brief.obliges] at due_all
    have told_late := late_told kind isOwed
    unfold told at told_late ⊢
    omega
  | working row reaches pending did =>
    rw [work] at reaches
    obtain ⟨owed, follows, rest⟩ := Program.Keeps.reaches (settles_compose layers) reaches
    refine ⟨owed, (none_or_isAsking pending rest).imp_right ?_, fun kind isOwed => ?_⟩
    · exact Program.isAsking_guarded_bind
    · -- Within a call, what its own bookkeeping owes comes on top of the calls before it.
      have greets := (tells_loop (C := C) isOwed w.id).1
      have called := told_calls isOwed work row.isOf
      have told_all := congrArg (countMarks (Mark.tells kind)) did
      have due_all := congrArg (countMarks (Mark.obliges kind)) did
      rw [countMarks_unlogged, countMarks_greeted greets, countMarks_cons] at told_all
      rw [countMarks_unlogged, countMarks_greeted rfl, countMarks_cons] at due_all
      have balance := bookkeeping_balance isOwed follows
      simp only [Deed.mark?, Option.any_none, countMarks_unlogged, reduceCtorEq, if_false]
        at told_all due_all balance
      unfold told at balance ⊢
      omega

end

end Worker

/-! ## The workers of a pool -/

namespace Pool

variable {p : Pool C} {events : List (Nat × Step C)}

/-- Where the worker with that number stands, if it has a seat: `served` are the calls of its work that are
over. -/
structure Stands (p : Pool C) (events : List (Nat × Step C)) (n : Nat) (served : List (Shift C)) : Prop where
  absent : p.crew[n]? = none → served = []
  seated : ∀ seat, p.crew[n]? = some seat → ∃ t code current late, p.startedAt = some t ∧
    seat.worker.Stage p.shared.cancelledSince t (history n events) code served current late ∧
    code.isAsking = seat.thread.isAsking
  /-- It leaves because its token is cancelled or because one of its own calls asks it to. -/
  leaves : ∀ seat, p.crew[n]? = some seat → seat.thread = .exited →
    p.shared.cancelled = true ∨ ∃ shift ∈ served, shift.call.outcome.Retires

/-- In every run each worker stands somewhere, and one that was asked to leave by its last call does so in the
millisecond in which that call ended. -/
theorem runs_stands_prompt (b : PoolBuilder C) (state : C.State) (runs : (build b state).Runs events p) (n : Nat) :
    ∃ served, Stands p events n served ∧ ∀ seat, p.crew[n]? = some seat → ∀ last, served.getLast? = some last →
      last.call.outcome.Retires → seat.thread = .exited ∨
        p.shared.clock = last.call.ended ∧ ∃ code, seat.thread = .ready code ∧ seat.worker.Departs code := by
  cases at_n : p.crew[n]? with
  | none =>
    have absent (seat : Seat C) : p.crew[n]? ≠ some seat := by simp [at_n]
    refine ⟨[], ⟨fun _ => rfl, ?_, ?_⟩, nofun⟩
    · intro seat at_n'
      exact absurd at_n' (absent seat)
    · intro seat at_n'
      exact absurd at_n' (absent seat)
  | some seat =>
    have : Nonempty C.State := ⟨state⟩
    obtain ⟨t, underway⟩ := exists_underway b state runs at_n
    obtain ⟨code, served, current, late, stage, asking, leaves, prompt⟩ :=
      (underway.at_history n seat at_n).exists_stage
    refine ⟨served, ⟨?_, ?_, ?_⟩, ?_⟩
    · intro absent
      rw [at_n] at absent
      cases absent
    · intro seat' at_n'
      obtain rfl := Option.some.inj (at_n.symm.trans at_n')
      exact ⟨t, code, current, late, underway.startedAt_eq, stage, asking⟩
    · intro seat' at_n' exited
      obtain rfl := Option.some.inj (at_n.symm.trans at_n')
      exact (leaves exited).imp_left Shared.cancelled_iff.mpr
    · rintro seat' ⟨⟩
      exact prompt

/-- In any run each worker stands somewhere. -/
theorem runs_stands (b : PoolBuilder C) (state : C.State) (runs : (build b state).Runs events p) (n : Nat) :
    ∃ served, Stands p events n served := by
  obtain ⟨served, stands, _⟩ := runs_stands_prompt b state runs n
  exact ⟨served, stands⟩

end Pool

end WorkerPool
