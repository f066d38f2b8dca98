import WorkerPool.Proofs.Alone
import WorkerPool.Proofs.Observation

/-!
# How a worker's loop goes

`Worker.Loops` strings the segments of a worker's loop together, whatever the work and whatever its
surroundings. Each segment makes one of three moves (`Worker.Moves`): it works once, it notices during
its wait that the token is cancelled, or it has nothing to wait for and closes the loop. A whole run is a
row of shifts and then an ending; `Worker.Tour` says what is known of it, and `loops_tour` proves that by
induction over the segments.
-/

namespace WorkerPool

variable {C : Client} {T : Option Nat} {t t' : Nat} {steps : List (Step C)}

/-! ## Changes of state -/

/-- The two states that a line names, if it says that a worker changed its state. -/
def LogLine.change? (line : LogLine) : Option (String × String) :=
  match line.fields with
  | [("from", .text old), ("to", .text new)] => some (old, new)
  | _ => none

/-- The change of state that is logged. -/
def Deed.change? : Deed C → Option (String × String)
  | .asked (.log line) _ => line.change?
  | _ => none

/-- The changes of state that were logged. -/
def changes (steps : List (Step C)) : List (String × String) :=
  steps.filterMap fun step => step.deed.change?

@[simp] theorem changes_nil : changes ([] : List (Step C)) = [] := rfl

@[simp] theorem changes_append (first second : List (Step C)) :
    changes (first ++ second) = changes first ++ changes second :=
  List.filterMap_append

@[simp] theorem changes_cons (step : Step C) (rest : List (Step C)) :
    changes (step :: rest) = step.deed.change?.toList ++ changes rest := by
  unfold changes
  cases h : step.deed.change? <;> simp [h]

namespace WorkerState

/-- The two states as log lines show them. -/
def labels (change : WorkerState × WorkerState) : String × String :=
  (change.1.label, change.2.label)

/-- The changes on the way through `states`, from a state on. -/
def changesFrom : WorkerState → List WorkerState → List (WorkerState × WorkerState)
  | _, [] => []
  | state, next :: rest => (if next = state then [] else [(state, next)]) ++ changesFrom next rest

/-- Whether changes lead from one state to another, each beginning where the one before ended. -/
inductive Leads : WorkerState → List (WorkerState × WorkerState) → WorkerState → Prop
  | nil (state : WorkerState) : Leads state [] state
  | cons {a b c : WorkerState} {rest : List (WorkerState × WorkerState)} (ne : b ≠ a)
      (next : Leads b rest c) : Leads a ((a, b) :: rest) c

/-- States one after another lead from the first to the last of them, if changes between equal states are left
out. -/
theorem leads_changesFrom (state : WorkerState) (states : List WorkerState) :
    Leads state (changesFrom state states) (states.getLast?.getD state) := by
  induction states generalizing state with
  | nil => exact .nil state
  | cons next rest ih =>
    have last : (next :: rest).getLast?.getD state = rest.getLast?.getD next := by
      rw [List.getLast?_cons, Option.getD_some]
    rw [last, changesFrom]
    split
    · next eq => exact eq ▸ ih next
    · next ne => exact .cons ne (ih next)

/-- With one more state there is one more change, unless the state stays the same. -/
theorem changesFrom_append (state next : WorkerState) (states : List WorkerState) :
    changesFrom state (states ++ [next]) =
      changesFrom state states ++ changesFrom (states.getLast?.getD state) [next] := by
  induction states generalizing state with
  | nil => rfl
  | cons first rest ih =>
    rw [List.cons_append, changesFrom, ih first, List.getLast?_cons, Option.getD_some,
      ← List.append_assoc]
    rfl

end WorkerState

/-- Whether a call ended in a request to shut down or a cancellation, beneath any wrapping. -/
def Outcome.Retires (outcome : Outcome Unit) : Prop :=
  ∃ e, outcome = .error e ∧ (e.innermost.isShutdownSignal = true ∨ e.innermost = .cancelled)

/-! ## Shifts -/

/-- One call of a worker's work, and what the escalation channel says if a request is handed over. -/
structure Shift (C : Client) where
  call : Stretch C Unit
  taken : Bool

namespace Shift

/-- The state after the call, in which a panic counts as an error. -/
def state (shift : Shift C) : WorkerState :=
  .after shift.call.outcome.caught

/-- There is nothing to wait for after exactly those calls that retire the worker. -/
theorem interval?_state_eq_none_iff (schedule : PollSchedule) (shift : Shift C) :
    schedule.interval? shift.state = none ↔ shift.call.outcome.Retires := by
  unfold state Outcome.Retires
  cases shift.call.outcome with
  | ok => simp [WorkerState.after, PollSchedule.interval?, Outcome.caught]
  | panic x =>
    simp [WorkerState.after, WorkerState.afterError, PollSchedule.interval?, Outcome.caught,
      PoolError.ofPanic, PoolError.innermost]
  | error e =>
    cases h : e.innermost <;>
      simp [WorkerState.after, WorkerState.afterError, PollSchedule.interval?, Outcome.caught, h,
        PoolError.isShutdownSignal]

/-- What follows a call that panicked, beside the log. -/
def panicNote (id : String) (call : Stretch C Unit) : List (Step C) :=
  match call.outcome with
  | .panic _ => [⟨call.ended, .asked (.record (.workerPanicked id)) ()⟩]
  | _ => []

/-- What hands a request to shut down over. -/
def handover (shift : Shift C) : List (Step C) :=
  match shift.call.outcome.caught with
  | .ok () => []
  | .error e =>
    if shift.state = .shuttingDown then [⟨shift.call.ended, .asked (.escalate e) shift.taken⟩] else []

/-- What is done in the wait before a call, in the call and after it, beside the log. -/
def story (id : String) (shift : Shift C) : List (Step C) :=
  ⟨shift.call.begun, .waited true .elapsed⟩ :: unlogged shift.call.steps ++
    panicNote id shift.call ++ shift.handover

end Shift

namespace Worker

variable {w : Worker C}

/-- What is done when a loop is over, beside the log. -/
def farewell (w : Worker C) (time : Nat) : Step C :=
  ⟨time, .asked (.record (.workerStopped w.id)) ()⟩

/-- What a segment can be that begins in a state: what is done beside the log, the changes of state that
are logged, the state it leads to and when it is over. -/
inductive Moves (w : Worker C) (T : Option Nat) (state : WorkerState) (t : Nat) :
    List (Step C) → List (String × String) → Option WorkerState → Nat → Prop
  | leaves (finished : w.schedule.interval? state = none) : Moves w T state t [w.farewell t] [] none t
  | notices {delay : Duration} {t' : Nat} (interval : w.schedule.interval? state = some delay)
      (wait : WaitEnds T t delay.ceilMillis true .cancelled t') :
      Moves w T state t [⟨t', .waited true .cancelled⟩, w.farewell t'] [] none t'
  | works {delay : Duration} {shift : Shift C} (interval : w.schedule.interval? state = some delay)
      (wait : WaitEnds T t delay.ceilMillis true .elapsed shift.call.begun)
      (run : shift.call.IsOf T (w.work w.id)) :
      Moves w T state t (shift.story w.id)
        (changes shift.call.steps ++
          (WorkerState.changesFrom state [shift.state]).map WorkerState.labels)
        (some shift.state) shift.call.ended

/-- An iteration is a call of the work, after which a panic is told to the collector. -/
theorem iterate_runs {e : Except Panic (PoolResult Unit)} (h : w.iterate.Runs T t steps e t') :
    ∃ call : Stretch C Unit, call.begun = t ∧ call.ended = t' ∧ call.IsOf T (w.work w.id) ∧
      e = .ok call.outcome.caught ∧
      unlogged steps = unlogged call.steps ++ Shift.panicNote w.id call ∧
      changes steps = changes call.steps := by
  rcases Program.runs_bind.mp h with ⟨x, rfl, guarded⟩ | ⟨outcome, t₁, inner, rest, rfl, guarded, next⟩
  · obtain ⟨outcome, he, _⟩ := Program.runs_guarded.mp guarded
    cases he
  · obtain ⟨outcome, he, run⟩ := Program.runs_guarded.mp guarded
    cases he
    cases outcome with
    | ok | error =>
      obtain ⟨rfl, rfl, rfl⟩ := Program.runs_pure.mp next
      exact ⟨⟨t, t', inner, _⟩, rfl, rfl, run, rfl, by simp [Shift.panicNote], by simp⟩
    | panic x =>
      simp only [Code.runs_log_bind, Code.runs_record_bind, Program.runs_pure] at next
      obtain ⟨_, rfl, _, rfl, rfl, rfl, rfl⟩ := next
      exact ⟨⟨t, t', inner, .panic x⟩, rfl, rfl, run, rfl, by simp [Shift.panicNote],
        by simp [Deed.change?, LogLine.change?]⟩

/-- What a worker makes of an error takes no time, and hands it over if it asks for a shutdown. -/
theorem react_runs {next : WorkerState} {error : PoolError} {e : Except Panic Unit}
    (h : (w.react next error).Runs T t steps e t') :
    e = .ok () ∧ t' = t ∧ changes steps = [] ∧
      ∃ taken, unlogged steps =
        if next = .shuttingDown then [⟨t, .asked (.escalate error) taken⟩] else [] := by
  cases next with
  | shuttingDown =>
    simp only [react, escalate, Code.runs_log_bind, Code.runs_escalate_bind] at h
    obtain ⟨_, rfl, taken, _, rfl, h⟩ := h
    cases taken with
    | true =>
      obtain ⟨rfl, rfl, rfl⟩ := Program.runs_pure.mp h
      exact ⟨rfl, rfl, rfl, true, rfl⟩
    | false =>
      obtain ⟨rfl, rfl, rfl⟩ := Code.runs_log.mp h
      exact ⟨rfl, rfl, rfl, false, rfl⟩
  | terminated =>
    obtain ⟨rfl, rfl, rfl⟩ := Code.runs_log.mp h
    exact ⟨rfl, rfl, rfl, true, rfl⟩
  | active | idle =>
    unfold react at h
    dsimp only at h
    split at h
    · obtain ⟨rfl, rfl, rfl⟩ := Program.runs_pure.mp h
      exact ⟨rfl, rfl, rfl, true, rfl⟩
    · obtain ⟨rfl, rfl, rfl⟩ := Code.runs_log.mp h
      exact ⟨rfl, rfl, rfl, true, rfl⟩

/-- The end of a round says that the state changed if it did. -/
theorem runs_changed {state next : WorkerState} {e : Except Panic WorkerState}
    (h : Program.Runs T (do
      if next ≠ state then
        Code.log .debug ("Worker " ++ w.id ++ " changed state") [
          ("from", .text state.label),
          ("to", .text next.label)]
      return next : Code C WorkerState) t steps e t') :
    e = .ok next ∧ t' = t ∧ unlogged steps = [] ∧
      changes steps = (WorkerState.changesFrom state [next]).map WorkerState.labels := by
  by_cases same : next = state
  · simp only [same, ne_eq, not_true_eq_false, ↓reduceIte, Program.runs_pure] at h
    obtain ⟨rfl, rfl, rfl⟩ := h
    simp [WorkerState.changesFrom, same]
  · simp only [ne_eq, same, not_false_eq_true, ↓reduceIte, Code.runs_log_bind, Program.runs_pure] at h
    obtain ⟨_, rfl, rfl, rfl, rfl⟩ := h
    simp [WorkerState.changesFrom, WorkerState.labels, same, Deed.change?, LogLine.change?]

/-- A round is a call of the work and what follows from it. -/
theorem round_runs {state : WorkerState} {e : Except Panic WorkerState}
    (h : (w.round state).Runs T t steps e t') :
    ∃ shift : Shift C, shift.call.begun = t ∧ shift.call.ended = t' ∧
      shift.call.IsOf T (w.work w.id) ∧ e = .ok shift.state ∧
      unlogged steps =
        unlogged shift.call.steps ++ Shift.panicNote w.id shift.call ++ shift.handover ∧
      changes steps = changes shift.call.steps ++
        (WorkerState.changesFrom state [shift.state]).map WorkerState.labels := by
  rcases Program.runs_bind.mp h with ⟨x, rfl, run⟩ | ⟨result, t₁, first, rest, rfl, run, next⟩
  · obtain ⟨call, _, _, _, he, _⟩ := iterate_runs run
    cases he
  · obtain ⟨call, rfl, rfl, isOf, he, unlogged_first, changes_first⟩ := iterate_runs run
    cases he
    -- Whatever the work came to, the state after it is the one that its result asks for.
    cases caught : call.outcome.caught with
    | ok =>
      rw [caught] at next
      obtain ⟨rfl, rfl, unlogged_rest, changes_rest⟩ := runs_changed next
      exact ⟨⟨call, true⟩, rfl, rfl, isOf, by simp [Shift.state, caught],
        by simp [unlogged_first, unlogged_rest, Shift.handover, caught],
        by simp [changes_first, changes_rest, Shift.state, caught]⟩
    | error error =>
      rw [caught] at next
      obtain ⟨x, rfl, reacts⟩ | ⟨_, t₂, second, third, rfl, reacts, next⟩ :=
        Program.runs_bind.mp next
      · cases (react_runs reacts).1
      · obtain ⟨_, rfl, changes_second, taken, unlogged_second⟩ := react_runs reacts
        obtain ⟨rfl, rfl, unlogged_rest, changes_rest⟩ := runs_changed next
        exact ⟨⟨call, taken⟩, rfl, rfl, isOf, by simp [Shift.state, caught],
          by simp [unlogged_first, unlogged_second, unlogged_rest, Shift.handover, Shift.state, caught],
          by simp [changes_first, changes_second, changes_rest, Shift.state, caught]⟩

/-- On closing, a worker says in the same millisecond that it stops, and nothing else but to the log. -/
theorem closing_runs {e : Except Panic (Option WorkerState)}
    (h : Program.Runs T (do w.closing; return none) t steps e t') :
    e = .ok none ∧ t' = t ∧ unlogged steps = [w.farewell t] ∧ changes steps = [] := by
  simp only [closing, bind_assoc, Code.runs_record_bind, Code.runs_log_bind, Program.runs_pure] at h
  obtain ⟨_, rfl, _, rfl, rfl, rfl, rfl⟩ := h
  exact ⟨rfl, rfl, rfl, rfl⟩

/-- How a segment goes on after its wait. -/
def wakeUp (w : Worker C) (state : WorkerState) : Wake → Code C (Option WorkerState)
  | .cancelled => do
    Code.log .debug ("🔨 Worker " ++ w.id ++ " observed cancellation")
    w.closing
    return none
  | .elapsed => do
    return some (← w.round state)

/-- As long as its state has an interval, a worker waits that long before anything else, and heeds a
cancellation meanwhile. -/
theorem segment_of_interval {state : WorkerState} {delay : Duration}
    (interval : w.schedule.interval? state = some delay) :
    w.segment state = .wait delay.ceilMillis true (w.wakeUp state) := by
  unfold segment
  rw [interval]
  refine congrArg (Program.wait delay.ceilMillis true) (funext fun wake => ?_)
  cases wake <;> rfl

/-- In a state without an interval, a worker leaves at once. -/
theorem segment_of_over {state : WorkerState} (finished : w.schedule.interval? state = none) :
    w.segment state = do w.closing; return none := by
  unfold segment
  rw [finished]

/-- A segment makes one of its moves, and never panics. -/
theorem segment_moves {state : WorkerState} {e : Except Panic (Option WorkerState)}
    (h : (w.segment state).Runs T t steps e t') :
    ∃ next, e = .ok next ∧ w.Moves T state t (unlogged steps) (changes steps) next t' := by
  cases interval : w.schedule.interval? state with
  | none =>
    rw [segment_of_over interval] at h
    obtain ⟨rfl, rfl, unlogged_eq, changes_eq⟩ := closing_runs h
    exact ⟨none, rfl, unlogged_eq ▸ changes_eq ▸ .leaves interval⟩
  | some delay =>
    rw [segment_of_interval interval, Program.runs_wait] at h
    obtain ⟨wake, t₁, rest, wait, rfl, next⟩ := h
    -- A wait that the cancellation ends is the last thing but the farewell; after any other the worker works.
    cases wake with
    | cancelled =>
      rw [wakeUp, Code.runs_log_bind] at next
      obtain ⟨rest, rfl, next⟩ := next
      obtain ⟨rfl, rfl, unlogged_eq, changes_eq⟩ := closing_runs next
      refine ⟨none, rfl, ?_⟩
      simpa [unlogged_eq, changes_eq, Deed.change?, LogLine.change?] using Moves.notices interval wait
    | elapsed =>
      rcases Program.runs_bind.mp next with ⟨x, rfl, run⟩ | ⟨next, t₂, first, second, rfl, run, last⟩
      · obtain ⟨_, _, _, _, he, _⟩ := round_runs run
        cases he
      · obtain ⟨shift, rfl, rfl, isOf, he, unlogged_eq, changes_eq⟩ := round_runs run
        obtain ⟨rfl, rfl, rfl⟩ := Program.runs_pure.mp last
        cases he
        refine ⟨some shift.state, rfl, ?_⟩
        simpa [Shift.story, unlogged_eq, changes_eq, Deed.change?] using
          Moves.works interval wait isOf

/-- At the start, a worker says that it has started and goes on like after a call that found work. -/
theorem start_moves {e : Except Panic (Option WorkerState)} (h : w.start.Runs T t steps e t') :
    ∃ next rest, e = .ok next ∧
      unlogged steps = ⟨t, .asked (.record (.workerStarted w.id)) ()⟩ :: rest ∧
      w.Moves T .active t rest (changes steps) next t' := by
  simp only [start, opening, bind_assoc, Code.runs_record_bind, Code.runs_log_bind] at h
  obtain ⟨_, rfl, rest, rfl, run⟩ := h
  obtain ⟨next, he, moves⟩ := segment_moves run
  exact ⟨next, unlogged rest, he, rfl, moves⟩

/-! ## Whole runs -/

/-- What a worker's loop may do from millisecond `t` on: its beginning, and then segment after segment,
each in the state to which the one before led. -/
inductive Loops (w : Worker C) (T : Option Nat) (t : Nat) :
    List (Step C) → Except Panic (Option WorkerState) → Nat → Prop
  | started {steps : List (Step C)} {e : Except Panic (Option WorkerState)} {t' : Nat}
      (run : w.start.Runs T t steps e t') : Loops w T t steps e t'
  | again {first second : List (Step C)} {state : WorkerState}
      {e : Except Panic (Option WorkerState)} {t₁ t' : Nat} (loops : Loops w T t first (.ok (some state)) t₁)
      (run : (w.segment state).Runs T t₁ second e t') : Loops w T t (first ++ second) e t'

/-- A loop that was over before a cancellation would have been no different with it. -/
theorem Loops.cancel_later {e : Except Panic (Option WorkerState)} {moment : Nat}
    (h : w.Loops none t steps e t') (le : t' ≤ moment) : w.Loops (some moment) t steps e t' := by
  induction h with
  | started run => exact .started (run.cancel_later le)
  | again _ run ih => exact .again (ih (Nat.le_trans run.le le)) (run.cancel_later le)

/-- When the last shift ended, or the loop began. -/
def since (t : Nat) (shifts : List (Shift C)) : Nat :=
  (shifts.getLast?.map (·.call.ended)).getD t

/-- The state after the last shift, which is the active one at first. -/
def standing (shifts : List (Shift C)) : WorkerState :=
  (shifts.map Shift.state).getLast?.getD .active

@[simp] theorem since_append (t : Nat) (shifts : List (Shift C)) (shift : Shift C) :
    since t (shifts ++ [shift]) = shift.call.ended := by
  simp [since]

@[simp] theorem standing_append (shifts : List (Shift C)) (shift : Shift C) :
    standing (shifts ++ [shift]) = shift.state := by
  simp [standing]

/-- Shifts that follow one another as the schedule has it, each begun when the wait after the one before
ran out. -/
inductive Row (w : Worker C) (T : Option Nat) (t : Nat) : List (Shift C) → Prop
  | nil : Row w T t []
  | snoc {shifts : List (Shift C)} {shift : Shift C} {delay : Duration} (row : Row w T t shifts)
      (interval : w.schedule.interval? (standing shifts) = some delay)
      (wait : WaitEnds T (since t shifts) delay.ceilMillis true .elapsed shift.call.begun)
      (run : shift.call.IsOf T (w.work w.id)) : Row w T t (shifts ++ [shift])

/-- What is done after the last shift, which left the worker in a state, beside the log. -/
def departure (w : Worker C) (state : WorkerState) (next : Option WorkerState) (time : Nat) :
    List (Step C) :=
  match next, w.schedule.interval? state with
  | some _, _ => []
  | none, none => [w.farewell time]
  | none, some _ => [⟨time, .waited true .cancelled⟩, w.farewell time]

/-- How the loop stands after a row of shifts: it may go on to the next segment, it is over because it
has nothing to wait for, or it is over because the token was found cancelled during the wait. -/
inductive Stands (w : Worker C) (T : Option Nat) (t : Nat) (shifts : List (Shift C)) :
    Option WorkerState → Nat → Prop
  | onward {last : Shift C} (last_eq : shifts.getLast? = some last) :
      Stands w T t shifts (some last.state) last.call.ended
  | left {last : Shift C} (last_eq : shifts.getLast? = some last)
      (finished : w.schedule.interval? last.state = none) : Stands w T t shifts none last.call.ended
  | cancelled {delay : Duration} {moment : Nat}
      (interval : w.schedule.interval? (standing shifts) = some delay) (mem : moment ∈ T)
      (le : moment ≤ since t shifts + waited delay.ceilMillis) :
      Stands w T t shifts none (max (since t shifts) moment)

/-- What is known of a loop: the shifts it consists of so far, and how it stands. -/
structure Consists (w : Worker C) (T : Option Nat) (t : Nat) (did : List (Step C))
    (changed : List (String × String)) (next : Option WorkerState) (t' : Nat)
    (shifts : List (Shift C)) : Prop where
  row : w.Row T t shifts
  stands : w.Stands T t shifts next t'
  did_eq : did = shifts.flatMap (·.story w.id) ++ w.departure (standing shifts) next t'
  changed_eq : (∀ shift ∈ shifts, changes shift.call.steps = []) →
    changed = (WorkerState.changesFrom .active (shifts.map Shift.state)).map WorkerState.labels

/-- A move of the segment that follows a row of shifts adds a shift to it or ends it. -/
theorem Moves.consists {shifts : List (Shift C)} {did : List (Step C)}
    {changed : List (String × String)} {next : Option WorkerState} (row : w.Row T t shifts)
    (moves : w.Moves T (standing shifts) (since t shifts) did changed next t')
    {before : List (String × String)}
    (before_eq : (∀ shift ∈ shifts, changes shift.call.steps = []) →
      before = (WorkerState.changesFrom .active (shifts.map Shift.state)).map WorkerState.labels) :
    ∃ shifts', w.Consists T t (shifts.flatMap (·.story w.id) ++ did) (before ++ changed) next t'
      shifts' := by
  cases moves with
  | leaves finished =>
    refine ⟨shifts, row, ?_, by simp [departure, finished], by simpa using before_eq⟩
    cases row with
    | nil => cases finished
    | @snoc shifts shift =>
      rw [standing_append] at finished
      have stands : w.Stands T t (shifts ++ [shift]) none shift.call.ended := .left (by simp) finished
      simpa using stands
  | notices interval wait =>
    obtain ⟨moment, mem, le, rfl⟩ := waitEnds_cancelled_iff.mp wait
    exact ⟨shifts, row, .cancelled interval mem le, by simp [departure, interval],
      by simpa using before_eq⟩
  | @works _ shift interval wait run =>
    refine ⟨shifts ++ [shift], .snoc row interval wait run, .onward (by simp), by simp [departure], ?_⟩
    intro silent
    have silent_before : ∀ s ∈ shifts, changes s.call.steps = [] := fun s mem => silent s (by simp [mem])
    rw [before_eq silent_before, silent shift (by simp), List.map_append, List.map_singleton,
      WorkerState.changesFrom_append, List.map_append]
    rfl

/-- A loop never panics, and it is a row of shifts with or without an ending. -/
theorem Loops.consists {e : Except Panic (Option WorkerState)} (h : w.Loops T t steps e t') :
    ∃ next did shifts, e = .ok next ∧
      unlogged steps = ⟨t, .asked (.record (.workerStarted w.id)) ()⟩ :: did ∧
      w.Consists T t did (changes steps) next t' shifts := by
  induction h with
  | started run =>
    obtain ⟨next, did, he, unlogged_eq, moves⟩ := start_moves run
    have none_before : (∀ shift ∈ ([] : List (Shift C)), changes shift.call.steps = []) →
        [] = (WorkerState.changesFrom .active []).map WorkerState.labels := fun _ => rfl
    obtain ⟨shifts, consists⟩ := Moves.consists .nil moves none_before
    exact ⟨next, did, shifts, he, unlogged_eq, consists⟩
  | @again first second state e t₁ t' _ run ih =>
    obtain ⟨_, did, shifts, he, unlogged_eq, row, stands, did_eq, changed_eq⟩ := ih
    obtain ⟨next, rfl, moves⟩ := segment_moves run
    cases he
    cases stands with
    | @onward last last_eq =>
      have state_eq : last.state = standing shifts := by simp [standing, last_eq]
      have since_eq : last.call.ended = since t shifts := by simp [since, last_eq]
      rw [state_eq, since_eq] at moves
      obtain ⟨shifts', consists⟩ := moves.consists row changed_eq
      refine ⟨next, _, shifts', rfl, ?_, by simpa using consists⟩
      simp [unlogged_eq, did_eq, departure]

/-! ## Loops that run alone -/

section

variable {s s' : Shared C} {cancelAt : Option Nat}

/-- One segment of a loop that runs alone: it is the last one, or the rest follows. -/
theorem loopAlone_succ {segments : Nat} {code : Code C (Option WorkerState)}
    (h : w.loopAlone cancelAt (segments + 1) code s = some s') :
    ∃ e s₁, code.playAlone (some w.id) cancelAt s = (e, s₁) ∧
      ((∃ state, e = .ok (some state) ∧
        w.loopAlone cancelAt segments (w.segment state) s₁ = some s') ∨
      (∀ state, e ≠ .ok (some state)) ∧ s₁ = s') := by
  unfold loopAlone at h
  generalize played : code.playAlone (some w.id) cancelAt s = result at h
  obtain ⟨e, s₁⟩ := result
  refine ⟨e, s₁, rfl, ?_⟩
  match e with
  | .ok (some state) => exact .inl ⟨state, rfl, h⟩
  | .ok none | .error x =>
    cases h
    exact .inr ⟨nofun, rfl⟩

/-- Running a loop alone never turns the clock back, nor undoes a cancellation. -/
theorem evolves_loopAlone {segments : Nat} {code : Code C (Option WorkerState)}
    (h : w.loopAlone cancelAt segments code s = some s') : s.Evolves s' := by
  induction segments generalizing code s with
  | zero => cases h
  | succ segments ih =>
    have evolves := Program.evolves_playAlone (some w.id) cancelAt code s
    rcases loopAlone_succ h with ⟨e, s₁, played, ⟨state, _, rest⟩ | ⟨_, rfl⟩⟩
    · rw [played] at evolves
      exact evolves.trans (ih rest)
    · rwa [played] at evolves

/-- What a loop does alone from some piece of code on continues any loop that this code would have
continued. -/
theorem loopAlone_loops {segments : Nat} {code : Code C (Option WorkerState)}
    (h : w.loopAlone cancelAt segments code s = some s') (past : s.PastCancel)
    {first : List (Step C)}
    (continues : ∀ steps e t', code.Runs s'.cancelledSince s.clock steps e t' →
      w.Loops s'.cancelledSince t (first ++ steps) e t') :
    ∃ more e, w.Loops s'.cancelledSince t (first ++ more) e s'.clock ∧
      (∀ state, e ≠ .ok (some state)) ∧
      s'.scene = s.scene ++ more.filterMap (·.shown? (some w.id)) := by
  induction segments generalizing code s first with
  | zero => cases h
  | succ segments ih =>
    rcases loopAlone_succ h with ⟨e, s₁, played, ⟨state, rfl, rest⟩ | ⟨other, rfl⟩⟩
    · have later : (code.playAlone (some w.id) cancelAt s).2.Evolves s' := by
        rw [played]
        exact evolves_loopAlone rest
      have evolves := Program.evolves_playAlone (some w.id) cancelAt code s
      obtain ⟨steps, run, scene⟩ := Program.playAlone_runs_later (some w.id) cancelAt code past later
      rw [played] at evolves run scene
      obtain ⟨more, e, loops, other, scene'⟩ :=
        ih rest (evolves.pastCancel past) fun _ _ _ run' => .again (continues _ _ _ run) run'
      refine ⟨steps ++ more, e, ?_, other, ?_⟩
      · rwa [List.append_assoc] at loops
      · rw [scene', scene, List.filterMap_append, List.append_assoc]
    · obtain ⟨steps, run, scene⟩ := Program.playAlone_runs (some w.id) cancelAt code past
      rw [played] at run scene
      exact ⟨steps, e, continues _ _ _ run, other, scene⟩

/-- A worker that runs alone loops, until its loop is over; and the journal shows what it did. -/
theorem runAlone_loops {segments : Nat} (h : w.runAlone cancelAt segments s = some s')
    (past : s.PastCancel) :
    ∃ steps, w.Loops s'.cancelledSince s.clock steps (.ok none) s'.clock ∧
      s'.scene = s.scene ++ steps.filterMap (·.shown? (some w.id)) := by
  have begins : ∀ steps e t', w.start.Runs s'.cancelledSince s.clock steps e t' →
      w.Loops s'.cancelledSince s.clock ([] ++ steps) e t' := fun _ _ _ run => .started run
  obtain ⟨steps, e, loops, other, scene⟩ := loopAlone_loops h past begins
  obtain ⟨next, did, shifts, rfl, _⟩ := loops.consists
  cases next with
  | none => exact ⟨steps, loops, scene⟩
  | some state => exact absurd rfl (other state)

/-- The loop whose end can be computed. -/
theorem loops_of_runAlone (cancelAt : Option Nat) (segments : Nat) {T : Option Nat} {t' : Nat}
    (past : s.PastCancel)
    (h : (w.runAlone cancelAt segments s).map (fun s => (s.clock, s.cancelledSince)) = some (t', T)) :
    ∃ steps, w.Loops T s.clock steps (.ok none) t' := by
  obtain ⟨final, finished, same⟩ := Option.map_eq_some_iff.mp h
  cases same
  obtain ⟨steps, loops, _⟩ := runAlone_loops finished past
  exact ⟨steps, loops⟩

end

/-! ## Rows of shifts -/

section

variable {shifts : List (Shift C)}

/-- Each call in a row is one of the worker's own work. -/
theorem Row.isOf (row : w.Row T t shifts) (shift : Shift C) (mem : shift ∈ shifts) :
    shift.call.IsOf T (w.work w.id) := by
  induction row with
  | nil => cases mem
  | snoc _ _ _ run ih =>
    obtain mem | rfl := by simpa using mem
    · exact ih mem
    · exact run

/-- No work is begun after the token was cancelled. -/
theorem Row.heeded (row : w.Row T t shifts) (shift : Shift C) (mem : shift ∈ shifts) :
    ∀ moment ∈ T, shift.call.begun ≤ moment := by
  induction row with
  | nil => cases mem
  | snoc _ _ wait _ ih =>
    obtain mem | rfl := by simpa using mem
    · exact ih mem
    · exact (waitEnds_elapsed_iff.mp wait).2 rfl

/-- The first call follows the start after the active interval. -/
theorem Row.first (row : w.Row T t shifts) (shift : Shift C) (at_zero : shifts[0]? = some shift) :
    shift.call.begun = t + waited w.schedule.active.ceilMillis := by
  induction row with
  | nil => cases at_zero
  | @snoc shifts _ _ row interval wait _ ih =>
    cases shifts with
    | nil =>
      cases at_zero
      cases interval
      exact (waitEnds_elapsed_iff.mp wait).1
    | cons => exact ih at_zero

/-- Between two calls there is the wait that the outcome of the first asks for. -/
theorem Row.between (row : w.Row T t shifts) (i : Nat) (a b : Shift C) (at_i : shifts[i]? = some a)
    (at_next : shifts[i + 1]? = some b) :
    ∃ delay, w.schedule.interval? a.state = some delay ∧
      b.call.begun = a.call.ended + waited delay.ceilMillis := by
  induction row with
  | nil => cases at_i
  | @snoc shifts shift delay _ interval wait _ ih =>
    have bound : i + 1 < (shifts ++ [shift]).length := (List.getElem?_eq_some_iff.mp at_next).1
    simp only [List.length_append, List.length_singleton] at bound
    rw [List.getElem?_append_left (by omega)] at at_i
    by_cases inner : i + 1 < shifts.length
    · rw [List.getElem?_append_left inner] at at_next
      exact ih at_i at_next
    · have last : shifts.getLast? = some a := by
        rw [List.getLast?_eq_getElem?, ← at_i]
        congr 1
        omega
      have same : b = shift := by
        rw [List.getElem?_append_right (by omega), show i + 1 - shifts.length = 0 by omega] at at_next
        cases at_next
        rfl
      subst same
      simp only [standing, since, List.getLast?_map, last, Option.map_some, Option.getD_some]
        at interval wait
      exact ⟨delay, interval, (waitEnds_elapsed_iff.mp wait).1⟩

end

/-- Everything that is to be said of a run of a worker's loop, given its shifts. -/
structure Tour (w : Worker C) (T : Option Nat) (t : Nat) (steps : List (Step C))
    (next : Option WorkerState) (t' : Nat) (shifts : List (Shift C)) : Prop where
  isOf : ∀ shift ∈ shifts, shift.call.IsOf T (w.work w.id)
  first : ∀ shift, shifts[0]? = some shift →
    shift.call.begun = t + waited w.schedule.active.ceilMillis
  /-- A call that is followed by another one did not retire the worker, and the other one begins when
  the wait that its outcome asks for has run out. -/
  between : ∀ (i : Nat) (a b : Shift C), shifts[i]? = some a → shifts[i + 1]? = some b →
    ¬ a.call.outcome.Retires ∧ ∃ delay, w.schedule.interval? a.state = some delay ∧
      b.call.begun = a.call.ended + waited delay.ceilMillis
  heeded : ∀ shift ∈ shifts, ∀ moment ∈ T, shift.call.begun ≤ moment
  contained : ∀ shift ∈ shifts, ∀ x, shift.call.outcome = .panic x →
    w.schedule.interval? shift.state = some w.schedule.active
  /-- A loop that is not over stands right after a call. -/
  onward : ∀ state, next = some state → ∃ last, shifts.getLast? = some last ∧ state = last.state ∧
    t' = last.call.ended
  /-- A loop that is over ended with a call that retired the worker, or as soon as both the last call
  was over and the token was cancelled. -/
  finished : next = none →
    (∃ last, shifts.getLast? = some last ∧ last.call.outcome.Retires ∧ t' = last.call.ended) ∨
    ∃ delay moment, w.schedule.interval? (standing shifts) = some delay ∧ moment ∈ T ∧
      moment ≤ since t shifts + waited delay.ceilMillis ∧ t' = max (since t shifts) moment
  /-- After a call that retires the worker, or where the token is cancelled before the next wait would
  run out, the next segment closes the loop. -/
  leaves : ∀ state, next = some state →
    (w.schedule.interval? state = none ∨ ∃ delay moment, w.schedule.interval? state = some delay ∧
      moment ∈ T ∧ moment < t' + waited delay.ceilMillis) →
    (∃ more t'', (w.segment state).Runs T t' more (.ok none) t'') ∧
      ∀ more e t'', (w.segment state).Runs T t' more e t'' → e = .ok none
  /-- Beside the log, the worker says that it starts, works its shifts, and says that it stops. -/
  unlogged_eq : unlogged steps = ⟨t, .asked (.record (.workerStarted w.id)) ()⟩ ::
    (shifts.flatMap (·.story w.id) ++ w.departure (standing shifts) next t')
  /-- So the collector is told that the worker starts, then of each call that panicked, and in the end
  that the worker stops. -/
  recordings_eq : recordings steps = .workerStarted w.id ::
    (shifts.flatMap fun shift => recordings shift.call.steps ++
      if shift.call.outcome.panic?.isSome then [.workerPanicked w.id] else []) ++
    if next = none then [.workerStopped w.id] else []
  /-- The changes of state that are logged lead from the active state to the last one, through the
  states after the calls. -/
  changes_eq : (∀ shift ∈ shifts, changes shift.call.steps = []) →
    ∃ log, changes steps = log.map WorkerState.labels ∧
      log = WorkerState.changesFrom .active (shifts.map Shift.state) ∧
      WorkerState.Leads .active log (standing shifts)

/-- Of a call, the collector is told what the work within tells it, and of a panic that got out. -/
theorem recordings_story (shift : Shift C) :
    recordings (shift.story w.id) = recordings shift.call.steps ++
      if shift.call.outcome.panic?.isSome then [.workerPanicked w.id] else [] := by
  have silent : recordings shift.handover = [] := by
    unfold Shift.handover
    split
    · rfl
    · split <;> rfl
  rw [Shift.story, recordings_append, silent, List.append_nil, List.cons_append,
    recordings_cons_waited, recordings_append, recordings_unlogged]
  cases h : shift.call.outcome <;> simp [Shift.panicNote, Outcome.panic?, h]

/-- What the collector is told by one after another it is told one after another. -/
theorem recordings_flatMap {ι : Type} (f : ι → List (Step C)) (items : List ι) :
    recordings (items.flatMap f) = items.flatMap fun item => recordings (f item) := by
  induction items with
  | nil => rfl
  | cons item rest ih => rw [List.flatMap_cons, recordings_append, ih, List.flatMap_cons]

/-- On departure, the collector is told that the worker stops. -/
theorem recordings_departure (state : WorkerState) (next : Option WorkerState) :
    recordings (w.departure state next t) = if next = none then [.workerStopped w.id] else [] := by
  unfold departure
  split <;> rfl

/-- Closing always comes to its end, and within the millisecond. -/
theorem exists_closing (w : Worker C) (T : Option Nat) (t : Nat) :
    ∃ more, Program.Runs T (do w.closing; return none) t more (.ok (none : Option WorkerState)) t := by
  simp only [closing, bind_assoc, Code.runs_record_bind, Code.runs_log_bind, Program.runs_pure]
  exact ⟨_, _, rfl, _, rfl, rfl, ⟨⟩, ⟨⟩⟩

/-- A worker that has nothing to wait for leaves. -/
theorem exists_leaves {state : WorkerState} (finished : w.schedule.interval? state = none) :
    ∃ more, (w.segment state).Runs T t more (.ok none) t := by
  rw [segment_of_over finished]
  exact exists_closing w T t

/-- A worker whose token is cancelled before its wait would run out can leave then. -/
theorem exists_notices {state : WorkerState} {delay : Duration} {moment : Nat}
    (interval : w.schedule.interval? state = some delay) (mem : moment ∈ T)
    (le : moment ≤ t + waited delay.ceilMillis) :
    ∃ more, (w.segment state).Runs T t more (.ok none) (max t moment) := by
  obtain ⟨more, closing⟩ := exists_closing w T (max t moment)
  rw [segment_of_interval interval]
  exact ⟨_, .wait (.cancelled mem le) (Code.runs_log_bind.mpr ⟨more, rfl, closing⟩)⟩

/-- What a loop did is a tour: its start, calls with the waits between them, and its departure if it is over.
The induction is on the segments of the loop, and what it carries is the row of calls so far, together with the
state that the last of them led to. -/
theorem Loops.tour {e : Except Panic (Option WorkerState)} (h : w.Loops T t steps e t') :
    ∃ next shifts, e = .ok next ∧ w.Tour T t steps next t' shifts := by
  obtain ⟨next, did, shifts, he, unlogged_eq, row, stands, rfl, changes_eq⟩ := h.consists
  refine ⟨next, shifts, he, ?_⟩
  constructor
  case isOf => exact row.isOf
  case first => exact row.first
  case between =>
    intro i a b at_i at_next
    obtain ⟨delay, interval, begun⟩ := row.between i a b at_i at_next
    rw [← a.interval?_state_eq_none_iff w.schedule, interval]
    exact ⟨nofun, delay, rfl, begun⟩
  case heeded => exact row.heeded
  -- A panic counts as an error that keeps the worker going, so there is an interval to wait for.
  case contained =>
    intro shift _ x panic
    simp [Shift.state, panic, Outcome.caught, PoolError.ofPanic, WorkerState.after,
      WorkerState.afterError, PoolError.innermost, PollSchedule.interval?]
  case onward =>
    rintro state rfl
    cases stands with
    | onward last_eq => exact ⟨_, last_eq, rfl, rfl⟩
  case finished =>
    rintro rfl
    cases stands with
    | @left last last_eq finished =>
      exact .inl ⟨last, last_eq, (last.interval?_state_eq_none_iff w.schedule).mp finished, rfl⟩
    | cancelled interval mem le => exact .inr ⟨_, _, interval, mem, le, rfl⟩
  -- A worker that must leave can do so, and a segment in which it would work instead ends in a contradiction:
  case leaves =>
    rintro state rfl must
    constructor
    · rcases must with finished | ⟨delay, moment, interval, mem, lt⟩
      · obtain ⟨more, run⟩ := exists_leaves finished
        exact ⟨more, t', run⟩
      · obtain ⟨more, run⟩ := exists_notices interval mem (Nat.le_of_lt lt)
        exact ⟨more, _, run⟩
    · intro more e t'' run
      obtain ⟨next, rfl, moves⟩ := segment_moves run
      generalize unlogged more = did, changes more = changed at moves
      cases moves with
      | leaves | notices => rfl
      | works interval wait =>
        -- either it has no interval to wait for, or its token was cancelled before the interval was over.
        rcases must with finished | ⟨delay, moment, interval', mem, lt⟩
        · rw [finished] at interval
          cases interval
        · obtain ⟨begun, heeded⟩ := waitEnds_elapsed_iff.mp wait
          have le := heeded rfl moment mem
          rw [interval] at interval'
          cases interval'
          omega
  case unlogged_eq => exact unlogged_eq
  case recordings_eq =>
    rw [← recordings_unlogged, unlogged_eq, recordings_cons_record, recordings_append,
      recordings_departure]
    simp only [recordings_flatMap, recordings_story, List.cons_append]
  case changes_eq =>
    intro silent
    refine ⟨_, changes_eq silent, rfl, ?_⟩
    exact WorkerState.leads_changesFrom .active (shifts.map Shift.state)

/-- A loop always gets on, and never panics. It consists of shifts: the first call begins when the active
interval has run out, and each later one when the interval has that the outcome of the call before asks
for. It is over with the first call that retires the worker, or when the token is found cancelled during
a wait. -/
theorem loops_tour [Nonempty C.State] (w : Worker C) (T : Option Nat) (t : Nat) :
    (∃ steps e t', w.Loops T t steps e t') ∧
      (∀ steps state t', w.Loops T t steps (.ok (some state)) t' →
        ∃ more e t'', w.Loops T t (steps ++ more) e t'') ∧
      ∀ steps e t', w.Loops T t steps e t' →
        ∃ next shifts, e = .ok next ∧ w.Tour T t steps next t' shifts := by
  refine ⟨?_, ?_, fun _ _ _ loops => loops.tour⟩
  · obtain ⟨steps, e, t', run⟩ := w.start.exists_runs T t
    exact ⟨steps, e, t', .started run⟩
  · intro steps state t' loops
    obtain ⟨more, e, t'', run⟩ := (w.segment state).exists_runs T t'
    exact ⟨more, e, t'', .again loops run⟩

/-- A worker that finds nothing to do at first, and is asked to leave later. -/
def brief : Worker .bare where
  id := "brief"
  schedule := { active := .ofMillis 10, idle := .ofMillis 20 }
  work := fun _ => do
    if (← Code.now) ≤ 10 then return .error .noWork else return .error (.workerShutdown "")

/-- Two calls, the second after an idle wait. -/
theorem loops_tour_of_two :
    Nonempty Client.bare.State ∧ ∃ steps shifts, brief.Loops none 0 steps (.ok none) 30 ∧
      brief.Tour none 0 steps none 30 shifts := by
  have state : Nonempty Client.bare.State := ⟨()⟩
  have finished : ∃ steps, brief.Loops none 0 steps (.ok none) 30 :=
    loops_of_runAlone none 3 Shared.fresh_pastCancel (by decide +kernel)
  obtain ⟨steps, loops⟩ := finished
  obtain ⟨_, _, tours⟩ := loops_tour brief none 0
  obtain ⟨next, shifts, he, tour⟩ := tours steps _ _ loops
  cases he
  exact ⟨state, steps, shifts, loops, tour⟩

/-- A wait may end before its time. A worker whose active interval is `2 ^ 63` seconds, and whose token
is never cancelled, makes its first call after thirty years. -/
theorem interval_cut_short :
    let active : Duration := { secs := 9223372036854775808, nanos := 0 }
    let patient : Worker .bare := { brief with schedule := { active, idle := active } }
    ∃ steps shifts first, patient.Loops none 0 steps (.ok none) 946080000000 ∧
      patient.Tour none 0 steps none 946080000000 shifts ∧ shifts[0]? = some first ∧
      first.call.begun < active.ceilMillis := by
  intro active patient
  have finished : ∃ steps, patient.Loops none 0 steps (.ok none) 946080000000 :=
    loops_of_runAlone none 3 Shared.fresh_pastCancel (by decide +kernel)
  obtain ⟨steps, loops⟩ := finished
  obtain ⟨next, shifts, he, tour⟩ := loops.tour
  cases he
  -- The token is not cancelled, so the loop is over because of a call.
  have called : shifts ≠ [] := by
    rcases tour.finished rfl with ⟨last, last_eq, _⟩ | ⟨_, _, _, never, _⟩
    · rintro rfl
      cases last_eq
    · cases never
  obtain ⟨first, at_zero⟩ : ∃ first, shifts[0]? = some first :=
    ⟨_, List.getElem?_eq_getElem (List.length_pos_iff.mpr called)⟩
  refine ⟨steps, shifts, first, loops, tour, at_zero, ?_⟩
  rw [tour.first first at_zero]
  decide

end Worker

end WorkerPool
