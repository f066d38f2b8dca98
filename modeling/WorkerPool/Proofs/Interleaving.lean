import WorkerPool.Pool.Run
import WorkerPool.Proofs.Requests

/-!
# The workers of a pool, in any order

The pool gives turns to its workers in a fixed order. What it comes to does not hang on that order, so
laws are stated for `Pool.Runs`, in which workers and owner take single steps in any order at all:
a worker asks for one thing, or begins or ends one wait. Time may pass only when no worker can run and
the run is not to be concluded, and never past a millisecond in which something is due.

`Thread.turn`, `Seat.pass` and what `Pool` makes of them are such runs (`Pool.runs_settle`,
`Pool.runs_advance`, `Pool.runs_join`). The one thing to show for that is that after two passes nobody
can run any more (`Pool.settle_quiet`): a pass may cancel the token and so wake a worker that has had its
turn, but it can do so only once.
-/

namespace WorkerPool

variable {C : Client}

/-! ## Single steps -/

/-- One step of a worker's thread: what it leaves in the transcript, the thread after it, and what is
shared then. -/
inductive Thread.Acts (w : Worker C) (s : Shared C) :
    Thread C → List (Step C) → Thread C → Shared C → Prop
  | ask (request : Request C) (next : C.poolInterface.Answer request → Code C (Option WorkerState)) :
      Acts w s (.ready (.ask request next))
        [⟨s.clock, .asked request (s.answer (some w.id) request).1⟩]
        (.ready (next (s.answer (some w.id) request).1)) (s.answer (some w.id) request).2
  | skip {heeds : Bool} {next : Wake → Code C (Option WorkerState)}
      (free : heeds = true → s.cancelled = false) :
      Acts w s (.ready (.wait 0 heeds next)) [⟨s.clock, .waited heeds .elapsed⟩]
        (.ready (next .elapsed)) s
  | notice {ms : Nat} {next : Wake → Code C (Option WorkerState)} (cancelled : s.cancelled = true) :
      Acts w s (.ready (.wait ms true next)) [⟨s.clock, .waited true .cancelled⟩]
        (.ready (next .cancelled)) s
  | sleep {ms : Nat} {heeds : Bool} {next : Wake → Code C (Option WorkerState)}
      (free : heeds = true → s.cancelled = false) (some : ms ≠ 0) :
      Acts w s (.ready (.wait ms heeds next)) [] (.waiting (s.clock + waited ms) heeds next) s
  | elapse {due : Nat} {heeds : Bool} {next : Wake → Code C (Option WorkerState)}
      (free : heeds = true → s.cancelled = false) (le : due ≤ s.clock) :
      Acts w s (.waiting due heeds next) [⟨s.clock, .waited heeds .elapsed⟩]
        (.ready (next .elapsed)) s
  | wake {due : Nat} {next : Wake → Code C (Option WorkerState)} (cancelled : s.cancelled = true) :
      Acts w s (.waiting due true next) [⟨s.clock, .waited true .cancelled⟩]
        (.ready (next .cancelled)) s
  | proceed (state : WorkerState) :
      Acts w s (.ready (.done (some state))) [] (.ready (w.segment state)) s
  | leave : Acts w s (.ready (.done none)) [] .exited s
  | crash (x : Panic) : Acts w s (.ready (.panic x)) [] .exited s

namespace Pool

/-- Whether there is nothing to be done in this millisecond. -/
def Quiet (p : Pool C) : Prop :=
  (∀ seat ∈ p.crew, seat.thread.wake? p.shared = none) ∧ p.isOver = false

/-- The pool after a step of the worker with that number. -/
def withThread (p : Pool C) (n : Nat) (seat : Seat C) (thread : Thread C) (s : Shared C) : Pool C :=
  { p with crew := p.crew.set n { seat with thread }, shared := s }

/-- What the owner of a pool may do. -/
inductive OwnerActs (p : Pool C) : Pool C → Prop
  | start {q : Pool C} (h : p.start = .ok q) : OwnerActs p q
  | stop : OwnerActs p p.stop
  | cancelParent : OwnerActs p p.cancelParent
  | addHooks (side : HookSide) (hooks : List C.Hook) : OwnerActs p (p.addHooks side hooks)
  | update (change : C.State → C.State) : OwnerActs p (p.update change)
  | takeErrors : OwnerActs p p.takeErrors.2
  | dropErrors : OwnerActs p p.dropErrors
  | readErrors : OwnerActs p p.readErrors.2
  | receiveError : OwnerActs p p.receiveError.2

/-- One step of a pool, and what it leaves in the transcripts of the workers, by their numbers. -/
inductive Acts (p : Pool C) : List (Nat × Step C) → Pool C → Prop
  | owner {q : Pool C} (acts : p.OwnerActs q) : Acts p [] q
  | work {n : Nat} {seat : Seat C} {thread : Thread C} {s : Shared C} {steps : List (Step C)}
      (at_n : p.crew[n]? = some seat)
      (acts : seat.thread.Acts seat.worker p.shared steps thread s) :
      Acts p (steps.map (n, ·)) (p.withThread n seat thread s)
  | report : Acts p [] p.fireReports
  | conclude (finished : p.isOver = true) : Acts p [] p.conclude
  | tick {now : Nat} (lt : p.shared.clock < now) (quiet : p.Quiet)
      (le : ∀ due ∈ p.dues, p.shared.clock < due → now ≤ due) : Acts p [] (p.withClock now)

/-- Any number of steps. -/
inductive Runs (p : Pool C) : List (Nat × Step C) → Pool C → Prop
  | refl : Runs p [] p
  | snoc {events more : List (Nat × Step C)} {q r : Pool C} (runs : Runs p events q)
      (acts : q.Acts more r) : Runs p (events ++ more) r

/-- The part of the events that belongs to the worker with that number. -/
def history (n : Nat) (events : List (Nat × Step C)) : List (Step C) :=
  events.filterMap fun event => if event.1 = n then some event.2 else none

/-- Runs can be put one after another. -/
theorem Runs.trans {p q r : Pool C} {first second : List (Nat × Step C)} (h : p.Runs first q)
    (g : q.Runs second r) : p.Runs (first ++ second) r := by
  induction g with
  | refl => simpa using h
  | snoc _ acts ih =>
    rw [← List.append_assoc]
    exact .snoc ih acts

/-- A single step is a run. -/
theorem Runs.single {p q : Pool C} {events : List (Nat × Step C)} (acts : p.Acts events q) :
    p.Runs events q :=
  .snoc .refl acts

/-- The history of a worker goes along with the events. -/
theorem history_append (n : Nat) (first second : List (Nat × Step C)) :
    history n (first ++ second) = history n first ++ history n second :=
  List.filterMap_append

/-- What one worker does is its own history. -/
theorem history_map_self (n : Nat) (steps : List (Step C)) : history n (steps.map (n, ·)) = steps := by
  simp only [history, List.filterMap_map, Function.comp_def, if_true, List.filterMap_some]

/-- What one worker does is nobody else's history. -/
theorem history_map_of_ne {n m : Nat} (ne : m ≠ n) (steps : List (Step C)) :
    history n (steps.map (m, ·)) = [] := by
  rw [history, List.filterMap_map, List.filterMap_eq_nil_iff]
  exact fun _ _ => if_neg ne

end Pool

/-! ## Turns -/

/-- Any number of steps of one thread. -/
inductive Thread.Runs (w : Worker C) :
    Thread C → Shared C → List (Step C) → Thread C → Shared C → Prop
  | refl (thread : Thread C) (s : Shared C) : Runs w thread s [] thread s
  | cons {a b c : Thread C} {s s' s'' : Shared C} {first second : List (Step C)}
      (acts : a.Acts w s first b s') (runs : Runs w b s' second c s'') :
      Runs w a s (first ++ second) c s''

namespace Thread

variable {w : Worker C}

/-- What a thread does can be put together from what it does first and what it does then. -/
theorem Runs.trans {a b c : Thread C} {s s' s'' : Shared C} {first second : List (Step C)}
    (h : Runs w a s first b s') (g : Runs w b s' second c s'') : Runs w a s (first ++ second) c s'' := by
  induction h with
  | refl => exact g
  | cons acts _ ih =>
    rw [List.append_assoc]
    exact .cons acts (ih g)

/-- How far a thread has got that runs code up to its next wait. -/
def ofProgress (w : Worker C) : Progress C.poolInterface (Option WorkerState) → Thread C
  | .waiting due heeds next => .waiting due heeds next
  | .done (some state) => .ready (w.segment state)
  | .done none => .exited
  | .panic _ => .exited

/-- To run code is to resume it until it waits or ends. -/
theorem run_eq (w : Worker C) (code : Code C (Option WorkerState)) (s : Shared C) :
    run w code s = (ofProgress w (code.resume (some w.id) s).1, (code.resume (some w.id) s).2) := by
  unfold run
  generalize code.resume (some w.id) s = result
  obtain ⟨progress, s'⟩ := result
  match progress with
  | .waiting .. | .done (some _) | .done none | .panic _ => rfl

/-- Running code up to its next wait is done in single steps. -/
theorem runs_run (w : Worker C) (code : Code C (Option WorkerState)) (s : Shared C) :
    ∃ steps, Runs w (.ready code) s steps (run w code s).1 (run w code s).2 := by
  simp only [run_eq]
  induction code generalizing s with
  | done value =>
    cases value with
    | none => exact ⟨_, .cons .leave (.refl ..)⟩
    | some state => exact ⟨_, .cons (.proceed state) (.refl ..)⟩
  | panic x => exact ⟨_, .cons (.crash x) (.refl ..)⟩
  | ask request next ih =>
    obtain ⟨steps, runs⟩ := ih (s.answer (some w.id) request).1 (s.answer (some w.id) request).2
    exact ⟨_, .cons (.ask request next) runs⟩
  | wait ms heeds next ih =>
    by_cases cancelled : (heeds && s.cancelled) = true
    · obtain ⟨rfl, noticed⟩ := (Bool.and_eq_true ..).mp cancelled
      obtain ⟨steps, runs⟩ := ih .cancelled s
      rw [Program.resume, if_pos cancelled]
      exact ⟨_, .cons (.notice noticed) runs⟩
    · have free : heeds = true → s.cancelled = false := by simpa using cancelled
      rw [Program.resume, if_neg cancelled]
      by_cases none : ms = 0
      · subst none
        obtain ⟨steps, runs⟩ := ih .elapsed s
        exact ⟨_, .cons (.skip free) runs⟩
      · rw [if_neg none]
        exact ⟨_, .cons (.sleep free none) (.refl ..)⟩

/-- A waiting thread wakes up when its time has come, or before that if it heeds a cancellation. -/
theorem wake?_waiting (due : Nat) (heeds : Bool) (next : Wake → Code C (Option WorkerState))
    (s : Shared C) :
    (waiting due heeds next).wake? s =
      if heeds && s.cancelled then some (next .cancelled)
      else if due ≤ s.clock then some (next .elapsed) else none :=
  rfl

/-- A thread that can run is made ready by one step at most. -/
theorem runs_wake {thread : Thread C} {s : Shared C} {code : Code C (Option WorkerState)}
    (h : thread.wake? s = some code) : ∃ steps, Runs w thread s steps (.ready code) s := by
  cases thread with
  | ready code' =>
    cases h
    exact ⟨_, .refl ..⟩
  | waiting due heeds next =>
    rw [wake?_waiting] at h
    by_cases cancelled : (heeds && s.cancelled) = true
    · obtain ⟨rfl, noticed⟩ := (Bool.and_eq_true ..).mp cancelled
      rw [if_pos cancelled] at h
      cases h
      exact ⟨_, .cons (.wake noticed) (.refl ..)⟩
    · rw [if_neg cancelled] at h
      by_cases le : due ≤ s.clock
      · rw [if_pos le] at h
        cases h
        exact ⟨_, .cons (.elapse (by simpa using cancelled) le) (.refl ..)⟩
      · rw [if_neg le] at h
        cases h
  | exited => cases h

/-- A turn of a thread is made of steps that the thread may take. -/
theorem runs_turn (w : Worker C) (thread : Thread C) (s : Shared C) :
    ∃ steps, Runs w thread s steps (turn w thread s).1 (turn w thread s).2 := by
  unfold turn
  cases wakes : thread.wake? s with
  | none => exact ⟨_, .refl ..⟩
  | some code =>
    obtain ⟨waking, woken⟩ := runs_wake (w := w) wakes
    obtain ⟨steps, runs⟩ := runs_run w code s
    dsimp only
    generalize run w code s = result at runs ⊢
    obtain ⟨thread', s'⟩ := result
    match thread' with
    | .ready code' =>
      obtain ⟨more, runs'⟩ := runs_run w code' s'
      exact ⟨_, (woken.trans runs).trans runs'⟩
    | .waiting .. | .exited => exact ⟨_, woken.trans runs⟩

end Thread

namespace Pool

variable {p : Pool C}

/-- What one thread does is done by the pool. -/
theorem runs_of_thread {n : Nat} {seat : Seat C} {thread : Thread C} {s : Shared C}
    {steps : List (Step C)} (at_n : p.crew[n]? = some seat)
    (runs : seat.thread.Runs seat.worker p.shared steps thread s) :
    p.Runs (steps.map (n, ·)) (p.withThread n seat thread s) := by
  obtain ⟨worker, before⟩ := seat
  generalize shared_eq : p.shared = shared at runs
  dsimp only at runs
  induction runs generalizing p with
  | refl a s =>
    obtain ⟨lt, same⟩ := List.getElem?_eq_some_iff.mp at_n
    have unchanged : p.withThread n ⟨worker, a⟩ a s = p := by
      simp only [withThread, ← shared_eq, ← same, List.set_getElem_self]
    rw [unchanged]
    exact .refl
  | @cons a b c s s' s'' first second acts _ ih =>
    subst shared_eq
    have at_n' : (p.withThread n ⟨worker, a⟩ b s').crew[n]? = some ⟨worker, b⟩ := by
      obtain ⟨lt, _⟩ := List.getElem?_eq_some_iff.mp at_n
      simp [withThread, lt]
    have rest := ih at_n' rfl
    rw [List.map_append]
    refine (Runs.single (.work at_n acts)).trans ?_
    simpa [withThread] using rest

/-- A pass goes from seat to seat; each of those that it has still to visit takes its turn after all before it. -/
theorem runs_pass_from {finished crew : List (Seat C)} (h : p.crew = finished ++ crew) :
    ∃ events, p.Runs events
      { p with crew := finished ++ (Seat.pass crew p.shared).1, shared := (Seat.pass crew p.shared).2 } := by
  induction crew generalizing p finished with
  | nil =>
    refine ⟨[], ?_⟩
    have unchanged : { p with crew := finished ++ [], shared := p.shared } = p := by rw [← h]
    rw [Seat.pass, unchanged]
    exact .refl
  | cons seat rest ih =>
    have at_n : p.crew[finished.length]? = some seat := by simp [h]
    obtain ⟨steps, turn⟩ := seat.thread.runs_turn seat.worker p.shared
    have first := runs_of_thread at_n turn
    let seat' : Seat C := { seat with thread := (seat.thread.turn seat.worker p.shared).1 }
    have crew_eq : (p.withThread finished.length seat (seat.thread.turn seat.worker p.shared).1
        (seat.thread.turn seat.worker p.shared).2).crew = (finished ++ [seat']) ++ rest := by
      simp [withThread, h, seat']
    obtain ⟨events, others⟩ := ih crew_eq
    refine ⟨_ ++ events, first.trans ?_⟩
    simpa [Seat.pass, withThread, seat'] using others

/-- A pass over a pool is a run of it, by the order of the seats. -/
theorem runs_pass (p : Pool C) : ∃ events, p.Runs events p.pass :=
  runs_pass_from (List.nil_append p.crew).symm

/-- Concluding is a step of a run that is over, and does nothing to any other. -/
theorem runs_conclude (p : Pool C) : ∃ events, p.Runs events p.conclude := by
  by_cases finished : p.isOver = true
  · exact ⟨_, .single (.conclude finished)⟩
  · have unchanged : p.conclude = p := if_neg finished
    rw [unchanged]
    exact ⟨_, .refl⟩

/-- Whatever is due in a millisecond is done in single steps. -/
theorem runs_settle (p : Pool C) : ∃ events, p.Runs events p.settle := by
  obtain ⟨_, first⟩ := runs_pass p.fireReports
  obtain ⟨_, second⟩ := runs_pass p.fireReports.pass
  obtain ⟨_, last⟩ := runs_conclude p.fireReports.pass.pass
  exact ⟨_, (((Runs.single .report).trans first).trans second).trans last⟩

end Pool

end WorkerPool
