import Mathlib.Logic.ExistsUnique
import WorkerPool.Worker

/-!
# Errors within errors

When the attempts at a task are used up, the error of the last one is wrapped, and what has been wrapped may be wrapped
again. Every error is in one way only a row of wrappings around a core that is none itself (`wrapped_iff`), so what is
shown for rows and cores is shown for all errors.

Each view of an error is a recursion of its own, and a wrapping adds one thing to it or nothing: a text in front,
the text of what it holds at the head of the chain, nothing to what is innermost and to the state that a worker
takes up. So by induction on the row a core shows through any number of wrappings (`ShowsThrough`), whatever it
may go back to in its turn.
-/

namespace WorkerPool

namespace PoolError

/-- The numbers of attempts that the wrappings of an error name, from the outside in. -/
def wrappings : PoolError → List Nat
  | retriesExhausted attempts source => attempts :: source.wrappings
  | _ => []

/-- What a wrapping puts in front of the text of the error that it holds. -/
def exhaustionText (attempts : Nat) : String :=
  "task failed after " ++ toString attempts ++ " attempts: "

theorem wrappings_of_not_isWrapped {error : PoolError} (bare : error.isWrapped = false) : error.wrappings = [] := by
  cases error with
  | retriesExhausted => cases bare
  | _ => rfl

/-- An error is its innermost error, wrapped again by what it was wrapped in. -/
theorem wrap_wrappings : ∀ error : PoolError, wrap error.wrappings error.innermost = error
  | retriesExhausted attempts source => congrArg (retriesExhausted attempts) (wrap_wrappings source)
  | noWork | workerShutdown _ | poolShutdown _ | cancelled | panicked _ | processor _ _ | hook _
  | alreadyStarted | config _ => rfl

/-- Wrapping puts the new attempts before those that the error has already. -/
theorem wrappings_wrap (attempts : List Nat) (error : PoolError) :
    (wrap attempts error).wrappings = attempts ++ error.wrappings := by
  induction attempts with
  | nil => rfl
  | cons n _ ih => exact congrArg (n :: ·) ih

/-- An error is a row of wrappings around a core in one way only. -/
theorem wrapped_iff {error core : PoolError} {attempts : List Nat} :
    core.isWrapped = false ∧ error = wrap attempts core ↔
      attempts = error.wrappings ∧ core = error.innermost := by
  constructor
  · rintro ⟨bare, rfl⟩
    rw [wrappings_wrap, wrappings_of_not_isWrapped bare, innermost_wrap, innermost_of_not_isWrapped bare]
    exact ⟨(List.append_nil _).symm, rfl⟩
  · rintro ⟨rfl, rfl⟩
    exact ⟨error.isWrapped_innermost, (wrap_wrappings error).symm⟩

/-- The text of a wrapped error is that of each wrapping, from the outside in, and then that of what is wrapped. -/
theorem message_wrap (attempts : List Nat) (core : PoolError) :
    (wrap attempts core).message = String.join (attempts.map exhaustionText) ++ core.message := by
  induction attempts with
  | nil =>
    show core.message = "" ++ core.message
    rw [String.empty_append]
  | cons n rest ih =>
    show exhaustionText n ++ (wrap rest core).message = String.join (exhaustionText n :: rest.map exhaustionText) ++ _
    rw [ih, String.join_cons, String.append_assoc]

/-- The errors beneath a row are what is left of it when the outermost wrappings are taken off, one by one. -/
theorem chain_wrap (attempts : List Nat) (core : PoolError) :
    (wrap attempts core).chain =
      ((List.range attempts.length).map fun i => (wrap (attempts.drop (i + 1)) core).message) ++ core.chain := by
  induction attempts with
  | nil => rfl
  | cons n rest ih =>
    show (wrap rest core).message :: (wrap rest core).chain = _
    rw [ih, List.length_cons, List.range_succ_eq_map, List.map_cons, List.map_map]
    rfl

/-- Whatever has been wrapped at least once is a wrapped error. -/
theorem isWrapped_wrap {attempts : List Nat} (wrapped : attempts ≠ []) (core : PoolError) :
    (wrap attempts core).isWrapped = true := by
  cases attempts with
  | nil => exact absurd rfl wrapped
  | cons => rfl

/-- A wrapping is none of the signals that it may hold. -/
theorem no_signal_of_isWrapped {error : PoolError} (wrapped : error.isWrapped = true) :
    error.isNoWork = false ∧ error.isShutdownSignal = false := by
  cases error with
  | retriesExhausted => exact ⟨rfl, rfl⟩
  | _ => cases wrapped

/-- Everything that shows of a core through the wrappings around it, which name those numbers of attempts from the
outside in. -/
structure ShowsThrough (attempts : List Nat) (core error : PoolError) : Prop where
  innermost_eq : error.innermost = core
  message_eq : error.message = String.join (attempts.map exhaustionText) ++ core.message
  /-- There is one error beneath the whole for each wrapping, and the last of them is the core. -/
  chain_eq : error.chain =
    ((List.range attempts.length).map fun i => (wrap (attempts.drop (i + 1)) core).message) ++ core.chain
  /-- A worker goes on as it would after the core. -/
  after_eq : WorkerState.after (.error error) = WorkerState.after (.error core)
  no_signal : attempts ≠ [] → error.isNoWork = false ∧ error.isShutdownSignal = false

/-- Every error is a row of wrappings around a core, in one way, and every core shows through every row. -/
theorem nested_shows_through :
    (∀ error : PoolError, ∃! row : List Nat × PoolError,
      row.2.isWrapped = false ∧ error = wrap row.1 row.2) ∧
    ∀ (attempts : List Nat) (core : PoolError), core.isWrapped = false →
      ShowsThrough attempts core (wrap attempts core) := by
  constructor
  · intro error
    refine ⟨(error.wrappings, error.innermost), wrapped_iff.mpr ⟨rfl, rfl⟩, ?_⟩
    rintro ⟨attempts, core⟩ row
    obtain ⟨rfl, rfl⟩ := wrapped_iff.mp row
    rfl
  · intro attempts core bare
    constructor
    case innermost_eq => rw [innermost_wrap, innermost_of_not_isWrapped bare]
    case message_eq => exact message_wrap attempts core
    case chain_eq => exact chain_wrap attempts core
    case after_eq => exact WorkerState.afterError_wrap attempts core
    case no_signal =>
      intro wrapped
      exact no_signal_of_isWrapped (isWrapped_wrap wrapped core)

/-- Two wrappings around a failure that goes back to an error of a disk, and through it to one of the network. -/
theorem nested_shows_through_of_two :
    let core := processor "torn" (.foreign "disk" ["network"])
    let error := retriesExhausted 3 (retriesExhausted 2 core)
    core.isWrapped = false ∧ ShowsThrough [3, 2] core error ∧
      error.message = "task failed after 3 attempts: task failed after 2 attempts: processor error: torn" ∧
      error.chain = ["task failed after 2 attempts: processor error: torn", "processor error: torn", "disk",
        "network"] := by
  intro core error
  have shows : ShowsThrough [3, 2] core error := nested_shows_through.2 [3, 2] core rfl
  refine ⟨rfl, shows, ?_, ?_⟩
  · rw [shows.message_eq]
    decide
  · rw [shows.chain_eq]
    decide

end PoolError

end WorkerPool
