import WorkerPool.Proofs.Histories

/-!
# The chronicle of a pool

The steps of `Pool.Runs` say how a pool may change, but not what its owner asked for and was answered. A
`Chronicle` is a run with that written down: every call of `start`, also one that is refused, every
request to stop, what was read from the escalation channel, and so on, among the steps of the workers.
A call of `start` is one step, in which the workers take their seats; that they are at work, and that the
run is over, are steps of their own, and so anything may come between.
A chronicle is a run (`Chronicle.runs`), and every run has one (`Runs.exists_chronicle`), so that laws of
runs and laws about what the owner sees can be told of the same thing.
-/

namespace WorkerPool

variable {C : Client}

/-- Something that happens to a pool, with what it comes to. -/
inductive Occurrence (C : Client) where
  /-- The owner calls `start`; this is the answer if it is refused, or else the run begins. -/
  | start (result : PoolResult Unit)
  | stop
  | cancelParent
  | addHooks (side : HookSide) (hooks : List C.Hook)
  | update (change : C.State → C.State)
  /-- The owner asks for the reading end of the escalation channel, and this says whether it was there. -/
  | takeErrors (there : Bool)
  | dropErrors
  /-- The owner reads everything that is on the escalation channel. -/
  | readErrors (entries : List Escalation)
  /-- The owner reads the first entry on the escalation channel, if there is any. -/
  | receiveError (reception : Reception)
  /-- The worker with that number takes a step. -/
  | work (n : Nat) (steps : List (Step C))
  | report
  | conclude
  | tick (now : Nat)

/-- What an occurrence leaves in the transcripts of the workers, by their numbers. -/
def Occurrence.events : Occurrence C → List (Nat × Step C)
  | work n steps => steps.map (n, ·)
  | _ => []

namespace Pool

/-- What may happen to a pool, and the pool after it. -/
inductive Occurs (p : Pool C) : Occurrence C → Pool C → Prop
  | start {q : Pool C} (started : p.start = .ok q) : Occurs p (.start (.ok ())) q
  | refuse {e : PoolError} (refused : p.start = .error e) : Occurs p (.start (.error e)) p
  | stop : Occurs p .stop p.stop
  | cancelParent : Occurs p .cancelParent p.cancelParent
  | addHooks (side : HookSide) (hooks : List C.Hook) :
      Occurs p (.addHooks side hooks) (p.addHooks side hooks)
  | update (change : C.State → C.State) : Occurs p (.update change) (p.update change)
  | takeErrors : Occurs p (.takeErrors p.takeErrors.1) p.takeErrors.2
  | dropErrors : Occurs p .dropErrors p.dropErrors
  | readErrors : Occurs p (.readErrors p.readErrors.1) p.readErrors.2
  | receiveError : Occurs p (.receiveError p.receiveError.1) p.receiveError.2
  | work {n : Nat} {seat : Seat C} {thread : Thread C} {s : Shared C} {steps : List (Step C)}
      (at_n : p.crew[n]? = some seat) (acts : seat.thread.Acts seat.worker p.shared steps thread s) :
      Occurs p (.work n steps) (p.withThread n seat thread s)
  | report : Occurs p .report p.fireReports
  | conclude (finished : p.isOver = true) : Occurs p .conclude p.conclude
  | tick {now : Nat} (lt : p.shared.clock < now) (quiet : p.Quiet)
      (le : ∀ due ∈ p.dues, p.shared.clock < due → now ≤ due) : Occurs p (.tick now) (p.withClock now)

/-- What has happened to a pool, in that order. -/
inductive Chronicle (p : Pool C) : List (Occurrence C) → Pool C → Prop
  | nil : Chronicle p [] p
  | snoc {story : List (Occurrence C)} {occurrence : Occurrence C} {q r : Pool C}
      (before : Chronicle p story q) (occurs : q.Occurs occurrence r) :
      Chronicle p (story ++ [occurrence]) r

/-- What a story leaves in the transcripts of the workers. -/
def eventsOf (story : List (Occurrence C)) : List (Nat × Step C) :=
  story.flatMap Occurrence.events

@[simp] theorem eventsOf_nil : eventsOf ([] : List (Occurrence C)) = [] := rfl

@[simp] theorem eventsOf_append (first second : List (Occurrence C)) :
    eventsOf (first ++ second) = eventsOf first ++ eventsOf second :=
  List.flatMap_append

@[simp] theorem eventsOf_singleton (occurrence : Occurrence C) : eventsOf [occurrence] = occurrence.events :=
  List.flatMap_singleton ..

variable {p q r : Pool C} {story more : List (Occurrence C)} {occurrence : Occurrence C}

/-- What happens is a step, unless it is a start that is refused. -/
theorem Occurs.runs (h : p.Occurs occurrence q) : p.Runs occurrence.events q := by
  cases h with
  | refuse => exact .refl
  | work at_n acts => exact .single (.work at_n acts)
  | report => exact .single .report
  | conclude finished => exact .single (.conclude finished)
  | tick lt quiet le => exact .single (.tick lt quiet le)
  | start started => exact .single (.owner (.start started))
  | stop => exact .single (.owner .stop)
  | cancelParent => exact .single (.owner .cancelParent)
  | addHooks side hooks => exact .single (.owner (.addHooks side hooks))
  | update change => exact .single (.owner (.update change))
  | takeErrors => exact .single (.owner .takeErrors)
  | dropErrors => exact .single (.owner .dropErrors)
  | readErrors => exact .single (.owner .readErrors)
  | receiveError => exact .single (.owner .receiveError)

/-- What happens in a story is a run, with the events that the story tells of. -/
theorem Chronicle.runs (h : p.Chronicle story q) : p.Runs (eventsOf story) q := by
  induction h with
  | nil => exact .refl
  | snoc _ occurs ih =>
    rw [eventsOf_append, eventsOf_singleton]
    exact ih.trans occurs.runs

/-- A story can be continued by another one. -/
theorem Chronicle.trans (h : p.Chronicle story q) (g : q.Chronicle more r) :
    p.Chronicle (story ++ more) r := by
  induction g with
  | nil => rwa [List.append_nil]
  | snoc _ occurs ih =>
    rw [← List.append_assoc]
    exact .snoc ih occurs

/-- Whatever is done in a run has an occurrence that tells of it. -/
theorem Acts.exists_occurs {steps : List (Nat × Step C)} (h : p.Acts steps q) :
    ∃ occurrence : Occurrence C, occurrence.events = steps ∧ p.Occurs occurrence q := by
  cases h with
  | owner acts =>
    cases acts with
    | start started => exact ⟨_, rfl, .start started⟩
    | stop => exact ⟨_, rfl, .stop⟩
    | cancelParent => exact ⟨_, rfl, .cancelParent⟩
    | addHooks side hooks => exact ⟨_, rfl, .addHooks side hooks⟩
    | update change => exact ⟨_, rfl, .update change⟩
    | takeErrors => exact ⟨_, rfl, .takeErrors⟩
    | dropErrors => exact ⟨_, rfl, .dropErrors⟩
    | readErrors => exact ⟨_, rfl, .readErrors⟩
    | receiveError => exact ⟨_, rfl, .receiveError⟩
  | work at_n acts => exact ⟨_, rfl, .work at_n acts⟩
  | report => exact ⟨_, rfl, .report⟩
  | conclude finished => exact ⟨_, rfl, .conclude finished⟩
  | tick lt quiet le => exact ⟨_, rfl, .tick lt quiet le⟩

/-- Every run can be told. -/
theorem Runs.exists_chronicle {steps : List (Nat × Step C)} (h : p.Runs steps q) :
    ∃ story, eventsOf story = steps ∧ p.Chronicle story q := by
  induction h with
  | refl => exact ⟨[], rfl, .nil⟩
  | snoc _ acts ih =>
    obtain ⟨story, rfl, before⟩ := ih
    obtain ⟨occurrence, rfl, occurs⟩ := acts.exists_occurs
    exact ⟨_, by rw [eventsOf_append, eventsOf_singleton], .snoc before occurs⟩

end Pool

end WorkerPool
