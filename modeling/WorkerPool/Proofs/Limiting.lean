import Mathlib.Data.List.Induction
import WorkerPool.Layer
import WorkerPool.Proofs.Alone
import WorkerPool.Proofs.Rules

/-!
# Counting consecutive errors

An `ErrorLimit` keeps a count for each worker. What it has to do with the calls that it watches is said in
three steps. `ErrorLimit.observe_runs` says what one call does to the count of its worker, whatever the count
was. `ErrorLimit.visits_counted` goes on from call to call: after any calls of a worker, the count is the
number of failures since the last success and the last retirement. And `ErrorLimit.Traffic.counted` says that
this is so for each of any number of workers, however their calls run into each other, because nobody's calls
touch the count of anybody else.

Which errors count is told apart in `ErrorLimit.counts_iff`: those after which the loop of a worker goes on as
after work, and cancellations.
-/

namespace WorkerPool

variable {C : Client} {α : Type} {T : Option Nat} {t t' : Nat}

/-! ## Counts -/

/-- Whether a deed asks for a count of that limit. -/
def Deed.tallies (limit : String) : Deed C → Bool
  | .asked (.tally name _ _) _ => name = limit
  | _ => false

/-- Whether a deed asks for the count of that worker under that limit. -/
def Deed.talliesFor (limit worker : String) : Deed C → Bool
  | .asked (.tally name key _) _ => name = limit ∧ key = worker
  | _ => false

/-- What a rule comes to that goes on if the answer is the one it expects. -/
def expecting {σ : Type} (expected answer : Nat) (s : σ) : Option σ :=
  if answer = expected then some s else none

/-- What deeds make of the counts. Who asks for a count is answered with what it is. -/
def tallying : Rule C Tally
  | counts, .asked (.tally limit worker change) answer =>
    expecting (counts.count limit worker) answer
      (counts.set limit worker (change (counts.count limit worker)))
  | counts, _ => some counts

/-- What deeds make of one of the counts. -/
def counting (limit worker : String) : Rule C Nat
  | count, .asked (.tally name key change) answer =>
    if name = limit ∧ key = worker then expecting count answer (change count) else some count
  | count, _ => some count

/-- Who expects an answer goes on with that answer only. -/
theorem expecting_eq_some {σ : Type} {expected answer : Nat} {s s' : σ} :
    expecting expected answer s = some s' ↔ answer = expected ∧ s' = s := by
  unfold expecting
  split
  · next same => simp [same, eq_comm]
  · next other => simp [other]

/-- Who asks for the count of a worker asks for a count of the limit. -/
theorem tallies_of_talliesFor {limit worker : String} {deed : Deed C} (h : deed.talliesFor limit worker = true) :
    deed.tallies limit = true := by
  cases deed with
  | waited => cases h
  | asked request answer =>
    cases request with
    | tally => exact decide_eq_true (of_decide_eq_true h).1
    | _ => cases h

/-- Who does not ask for a count leaves it alone. -/
theorem counting_eq_self {limit worker : String} {deed : Deed C} (free : deed.talliesFor limit worker = false)
    (count : Nat) : counting limit worker count deed = some count := by
  cases deed with
  | waited => rfl
  | asked request answer =>
    cases request with
    | tally name key change => exact if_neg (of_decide_eq_false free)
    | _ => rfl

/-- The counts as a whole are kept by keeping each of them. -/
theorem counting_of_tallying (limit worker : String) {counts counts' : Tally} {deed : Deed C}
    (h : tallying counts deed = some counts') :
    counting limit worker (counts.count limit worker) deed = some (counts'.count limit worker) := by
  cases deed with
  | waited =>
    cases h
    rfl
  | asked request answer =>
    cases request with
    | tally name key change =>
      obtain ⟨answered, rfl⟩ := expecting_eq_some.mp h
      by_cases same : name = limit ∧ key = worker
      · obtain ⟨rfl, rfl⟩ := same
        refine (if_pos ⟨rfl, rfl⟩).trans (expecting_eq_some.mpr ⟨answered, ?_⟩)
        exact counts.count_set_self ..
      · refine (if_neg same).trans (congrArg some ?_)
        have other : (limit, worker) ≠ (name, key) := by
          rintro ⟨⟩
          exact same ⟨rfl, rfl⟩
        exact (counts.count_set_of_ne _ other).symm
    | _ =>
      cases h
      rfl

/-- Stopping a pool leaves the counts alone. -/
theorem Shared.tally_stop (s : Shared C) (worker : Option String) : (s.stop worker).tally = s.tally := by
  unfold stop
  split <;> rfl

/-- What the workers share answers so. -/
theorem Shared.tallying_answer (s : Shared C) (worker : Option String) (request : Request C) :
    tallying s.tally (.asked request (s.answer worker request).1) = some (s.answer worker request).2.tally := by
  cases request with
  | tally limit key change => exact expecting_eq_some.mpr ⟨rfl, rfl⟩
  | client request =>
    cases request with
    | stop => exact congrArg some (s.tally_stop worker).symm
    | cancel token => cases token <;> rfl
    | update | note => rfl
  | _ => rfl

/-- What somebody did, of everything that was done. -/
def stepsOf {ι : Type} [DecidableEq ι] (who : ι) (events : List (ι × Step C)) : List (Step C) :=
  events.filterMap fun event => if event.1 = who then some event.2 else none

/-- Whatever was done was done by somebody. -/
theorem mem_stepsOf {ι : Type} [DecidableEq ι] {events : List (ι × Step C)} {event : ι × Step C}
    (mem : event ∈ events) : event.2 ∈ stepsOf event.1 events :=
  List.mem_filterMap.mpr ⟨event, mem, if_pos rfl⟩

/-- A count for which only one asks is moved by that one alone. -/
theorem follow_stepsOf {limit worker : String} {ι : Type} [DecidableEq ι] (who : ι) {events : List (ι × Step C)}
    (others : ∀ event ∈ events, event.1 ≠ who → event.2.deed.talliesFor limit worker = false) (n : Nat) :
    (counting limit worker).follow n (events.map (·.2)) = (counting limit worker).follow n (stepsOf who events) := by
  induction events generalizing n with
  | nil => rfl
  | cons event rest ih =>
    rw [List.forall_mem_cons] at others
    have later := ih others.2
    rw [List.map_cons, Rule.follow_cons_eq, stepsOf, List.filterMap_cons]
    by_cases own : event.1 = who
    · rw [if_pos own]
      show _ = Rule.follow (counting limit worker) n (event.2 :: stepsOf who rest)
      rw [Rule.follow_cons_eq]
      exact congrArg _ (funext later)
    · rw [if_neg own, counting_eq_self (others.1 own)]
      exact later n

/-- Followed by itself, a single count is what the counts together have for it. -/
theorem follow_counting (limit worker : String) {counts counts' : Tally} {steps : List (Step C)}
    (h : Rule.follow tallying counts steps = some counts') :
    (counting limit worker).follow (counts.count limit worker) steps = some (counts'.count limit worker) :=
  Rule.follow_map (f := fun counts : Tally => counts.count limit worker)
    (fun _ _ _ => counting_of_tallying limit worker) h

/-! ## One call -/

/-- Whether an outcome is a failure that counts. -/
def Outcome.isFailure : Outcome Unit → Bool
  | .error e => ErrorLimit.counts e
  | _ => false

namespace ErrorLimit

variable {limit : ErrorLimit} {worker : String} {steps : List (Step C)} {n m : Nat}

/-- The text of the shutdown with which a worker is retired. -/
def retirement (limit : ErrorLimit) (e : PoolError) : PoolError :=
  .workerShutdown (toString (limit.threshold + 1) ++ " consecutive errors, last: " ++ e.message)

/-- How a call ends, if what is inside ended so after a number of failures in a row. -/
def judge (limit : ErrorLimit) (failures : Nat) : Outcome Unit → Outcome Unit
  | .error e => if counts e ∧ failures = limit.threshold then .error (limit.retirement e) else .error e
  | inner => inner

/-- How many failures in a row there are then. -/
def next (limit : ErrorLimit) (failures : Nat) : Outcome Unit → Nat
  | .ok () => 0
  | .error e =>
    if counts e then if failures = limit.threshold then 0 else failures + 1 else failures
  | .panic _ => failures

/-- From a count that is no higher than the threshold, the limit goes on to one that is not either. -/
theorem next_le (le : n ≤ limit.threshold) (inner : Outcome Unit) : limit.next n inner ≤ limit.threshold := by
  cases inner with
  | ok => exact Nat.zero_le _
  | panic => exact le
  | error e =>
    unfold next
    dsimp only
    split
    · split
      · exact Nat.zero_le _
      · omega
    · exact le

/-- An answer about the own count is believed if it is right, and changes the count as asked. -/
theorem counting_tally {change : Nat → Nat} {answer : Nat} {s : Nat} :
    (counting limit.name worker : Rule C Nat) n (.asked (.tally limit.name worker change) answer) = some s ↔
      answer = n ∧ s = change n := by
  unfold counting
  dsimp only
  rw [if_pos ⟨rfl, rfl⟩]
  exact expecting_eq_some

/-- A line of the log does not move the count. -/
theorem counting_log {line : LogLine} {answer : Unit} :
    (counting limit.name worker : Rule C Nat) n (.asked (.log line) answer) = some n :=
  rfl

/-- How a limit may look at a result in millisecond `t`, whatever it is told of the count: what it does, and what
becomes of the result. -/
inductive Observes (limit : ErrorLimit) (worker : String) (t : Nat) :
    PoolResult Unit → List (Step C) → PoolResult Unit → Prop
  | cleared (count : Nat) :
      Observes limit worker t (.ok ()) [⟨t, .asked (.tally limit.name worker fun _ => 0) count⟩] (.ok ())
  | ignored {error : PoolError} (uncounted : counts error = false) :
      Observes limit worker t (.error error) [] (.error error)
  | noted {error : PoolError} (counted : counts error = true) (count : Nat) (few : count + 1 ≤ limit.threshold) :
      Observes limit worker t (.error error) [⟨t, .asked (.tally limit.name worker (· + 1)) count⟩] (.error error)
  | retired {error : PoolError} (counted : counts error = true) (count again : Nat)
      (full : limit.threshold < count + 1) (line : LogLine) :
      Observes limit worker t (.error error)
        [⟨t, .asked (.tally limit.name worker (· + 1)) count⟩, ⟨t, .asked (.log line) ()⟩,
          ⟨t, .asked (.tally limit.name worker fun _ => 0) again⟩]
        (.error (.workerShutdown (toString (count + 1) ++ " consecutive errors, last: " ++ error.message)))

/-- Looking at a result takes no time and never panics. -/
theorem observes_of_runs {result : PoolResult Unit} {e : Except Panic (PoolResult Unit)}
    (run : (limit.observe worker result).Runs T t steps e t') :
    t' = t ∧ ∃ result', e = .ok result' ∧ limit.Observes worker t result steps result' := by
  cases result with
  | ok value =>
    obtain ⟨count, rest, rfl, answered⟩ := Code.runs_tally_bind.mp run
    obtain ⟨rfl, rfl, rfl⟩ := Program.runs_pure.mp answered
    exact ⟨rfl, _, rfl, .cleared count⟩
  | error error =>
    unfold observe at run
    dsimp only at run
    by_cases counted : counts error = true
    · rw [if_pos counted] at run
      obtain ⟨count, rest, rfl, answered⟩ := Code.runs_tally_bind.mp run
      by_cases full : limit.threshold < count + 1
      · rw [if_pos full] at answered
        obtain ⟨after, rfl, logged⟩ := Code.runs_log_bind.mp answered
        obtain ⟨again, last, rfl, reset⟩ := Code.runs_tally_bind.mp logged
        obtain ⟨rfl, rfl, rfl⟩ := Program.runs_pure.mp reset
        exact ⟨rfl, _, rfl, .retired counted count again full _⟩
      · rw [if_neg full] at answered
        obtain ⟨rfl, rfl, rfl⟩ := Program.runs_pure.mp answered
        exact ⟨rfl, _, rfl, .noted counted count (Nat.le_of_not_lt full)⟩
    · rw [if_neg counted] at run
      obtain ⟨rfl, rfl, rfl⟩ := Program.runs_pure.mp run
      exact ⟨rfl, _, rfl, .ignored (Bool.eq_false_iff.mpr counted)⟩

/-- What becomes of the result of a call, and of the count. -/
theorem observe_runs (le : n ≤ limit.threshold) {inner : Outcome Unit} {result : PoolResult Unit}
    (same : inner.ending = .ok result) {e : Except Panic (PoolResult Unit)}
    (run : (limit.observe worker result).Runs T t steps e t')
    (follows : (counting limit.name worker).follow n steps = some m) :
    e = (limit.judge n inner).ending ∧ m = limit.next n inner ∧ t' = t := by
  obtain ⟨rfl, result', rfl, observes⟩ := observes_of_runs run
  cases inner with
  | panic x => cases same
  | ok value =>
    cases same
    cases observes with
    | cleared count =>
      obtain ⟨s, asked, stays⟩ := Rule.exists_of_follow_cons follows
      obtain ⟨_, rfl⟩ := counting_tally.mp asked
      cases stays
      exact ⟨rfl, rfl, rfl⟩
  | error error =>
    cases same
    cases observes with
    | ignored uncounted =>
      cases follows
      simp [judge, next, uncounted, Outcome.ending]
    | noted counted count few =>
      obtain ⟨s, asked, stays⟩ := Rule.exists_of_follow_cons follows
      obtain ⟨rfl, rfl⟩ := counting_tally.mp asked
      cases stays
      -- The count has not come to the threshold yet, so one failure more does not exceed it.
      have room : count ≠ limit.threshold := by omega
      simp [judge, next, counted, room, Outcome.ending]
    | retired counted count again full line =>
      obtain ⟨s, asked, goes_on⟩ := Rule.exists_of_follow_cons follows
      obtain ⟨rfl, rfl⟩ := counting_tally.mp asked
      -- The count was at the threshold, and the failure is the one too many.
      obtain rfl : count = limit.threshold := by omega
      rw [Rule.follow_cons counting_log] at goes_on
      obtain ⟨s, asked_again, stays⟩ := Rule.exists_of_follow_cons goes_on
      obtain ⟨_, rfl⟩ := counting_tally.mp asked_again
      cases stays
      simp [judge, next, counted, Outcome.ending, retirement]

/-- While the result of a call is being looked at, the count is at most one more than before. -/
theorem observe_reaches {result : PoolResult Unit} {q : Code C (PoolResult Unit)}
    (reaches : (limit.observe worker result).Reaches T t steps q t')
    (follows : (counting limit.name worker).follow n steps = some m) : m ≤ n + 1 := by
  -- Before the limit asks for anything the count is as it was.
  have unmoved (none : steps = []) : m ≤ n + 1 := by
    subst none
    cases follows
    omega
  cases result with
  | ok value =>
    rcases Code.reaches_tally_bind reaches with none | ⟨count, rest, rfl, answered⟩
    · exact unmoved none
    obtain rfl := Program.reaches_pure answered
    obtain ⟨s, asked, stays⟩ := Rule.exists_of_follow_cons follows
    obtain ⟨_, rfl⟩ := counting_tally.mp asked
    cases stays
    exact Nat.zero_le _
  | error error =>
    unfold observe at reaches
    dsimp only at reaches
    by_cases counted : counts error = true
    · rw [if_pos counted] at reaches
      rcases Code.reaches_tally_bind reaches with none | ⟨count, rest, rfl, answered⟩
      · exact unmoved none
      obtain ⟨s, asked, goes_on⟩ := Rule.exists_of_follow_cons follows
      obtain ⟨rfl, rfl⟩ := counting_tally.mp asked
      by_cases full : limit.threshold < count + 1
      · rw [if_pos full] at answered
        -- The threshold is exceeded: the count has been raised, and is still to be set to zero.
        rcases Code.reaches_log_bind answered with rfl | ⟨_, after, rfl, logged⟩
        · cases goes_on
          exact Nat.le_refl _
        rw [Rule.follow_cons counting_log] at goes_on
        rcases Code.reaches_tally_bind logged with rfl | ⟨again, last, rfl, reset⟩
        · cases goes_on
          exact Nat.le_refl _
        obtain rfl := Program.reaches_pure reset
        obtain ⟨s, asked_again, stays⟩ := Rule.exists_of_follow_cons goes_on
        obtain ⟨_, rfl⟩ := counting_tally.mp asked_again
        cases stays
        exact Nat.zero_le _
      · rw [if_neg full] at answered
        obtain rfl := Program.reaches_pure answered
        cases goes_on
        exact Nat.le_refl _
    · rw [if_neg counted] at reaches
      exact unmoved (Program.reaches_pure reaches)

/-- To look at a result, only the count of the worker is asked for. -/
theorem shuns_observe {other : String} (ne : other ≠ worker) (result : PoolResult Unit) :
    (limit.observe worker result : Code C (PoolResult Unit)).Shuns (Deed.talliesFor limit.name other) := by
  have asks (change : Nat → Nat) : (Code.tally limit.name worker change : Code C Nat).Shuns
      (Deed.talliesFor limit.name other) := by
    refine .ask (fun _ => decide_eq_false ?_) fun _ => .pure _
    rintro ⟨_, same⟩
    exact ne same.symm
  cases result with
  | ok => exact (asks _).bind fun _ => .pure _
  | error error =>
    unfold observe
    dsimp only
    split
    · refine (asks _).bind fun count => ?_
      split
      · exact .ask (fun _ => rfl) fun _ => (asks _).bind fun _ => .pure _
      · exact .pure _
    · exact .pure _

/-! ## Which errors count -/

/-- Unless it says under some wrapping that there was nothing to do, an error counts if the loop of a worker goes on
after it as after work, or if it is a cancellation. -/
theorem counts_iff {e : PoolError} (bare : e.innermost = .noWork → e = .noWork) :
    counts e = true ↔ WorkerState.after (.error e) = .active ∨ e.innermost = .cancelled := by
  by_cases none : e = .noWork
  · subst none
    decide
  have named : e.isNoWork = false := by
    cases e <;> first | rfl | exact absurd rfl none
  have unwrapped := e.isWrapped_innermost
  unfold counts
  rw [named]
  show (!e.innermost.isShutdownSignal) = true ↔ WorkerState.afterError e = .active ∨ e.innermost = .cancelled
  unfold WorkerState.afterError
  cases innermost : e.innermost with
  | noWork => exact absurd (bare innermost) none
  | retriesExhausted =>
    rw [innermost] at unwrapped
    cases unwrapped
  | _ => simp [PoolError.isShutdownSignal]

variable {s : Shared C}

/-- As long as the count is below the threshold, an error is passed on, and the count goes up if it counts. -/
theorem resume_observe_error (below : s.tally.count limit.name worker < limit.threshold) (e : PoolError) :
    (limit.observe worker (.error e)).resume (some worker) s =
      (.done (.error e),
        if counts e then
          { s with tally := s.tally.set limit.name worker (s.tally.count limit.name worker + 1) }
        else s) := by
  unfold observe
  dsimp only
  by_cases counted : counts e = true
  · rw [if_pos counted, if_pos counted]
    have few : ¬ limit.threshold < s.tally.count limit.name worker + 1 := by omega
    show (if limit.threshold < s.tally.count limit.name worker + 1 then _ else _ :
      Code C (PoolResult Unit)).resume _ _ = _
    rw [if_neg few]
    rfl
  · rw [if_neg counted, if_neg counted]
    rfl

/-- As long as a count is below the threshold, it goes up with just those errors after which the loop of a worker goes
on as after work, and with cancellations. It never does where there was nothing to do or where somebody asks for a
shutdown. An error that says under some wrapping that there was nothing to do is left out here. -/
theorem observe_agrees (limit : ErrorLimit) (worker : String) (s : Shared C)
    (below : s.tally.count limit.name worker < limit.threshold) (e : PoolError)
    (bare : e.innermost = .noWork → e = .noWork) :
    ∃ s', (limit.observe worker (.error e)).resume (some worker) s = (.done (.error e), s') ∧
      (s'.tally.count limit.name worker = s.tally.count limit.name worker + 1 ↔
        WorkerState.after (.error e) = .active ∨ e.innermost = .cancelled) ∧
      (s'.tally.count limit.name worker ≠ s.tally.count limit.name worker + 1 → s' = s) ∧
      (e = .noWork ∨ e.innermost.isShutdownSignal = true → s' = s) ∧
      (e.innermost = .cancelled → s'.tally.count limit.name worker = s.tally.count limit.name worker + 1) := by
  refine ⟨_, resume_observe_error below e, ?_⟩
  rw [← counts_iff bare]
  by_cases counted : counts e = true
  · simp only [counted, if_true, Tally.count_set_self, not_true_eq_false, ne_eq, false_implies, implies_true,
      true_and, and_true]
    intro uncounted
    have never : counts e = false := by
      rcases uncounted with rfl | signal
      · rfl
      · simp [counts, signal]
    rw [never] at counted
    cases counted
  · rw [if_neg counted]
    refine ⟨⟨fun more => absurd more (by omega), fun more => absurd more counted⟩, fun _ => rfl, fun _ => rfl, ?_⟩
    intro cancelled
    exact absurd ((counts_iff bare).mpr (.inr cancelled)) counted

/-- A failure under two wrappings is counted. -/
theorem observe_agrees_of_wrapped :
    Shared.fresh.tally.count "steady" "w" < 2 ∧
      ∃ s', ((⟨"steady", 2⟩ : ErrorLimit).observe "w" (.error (.wrap [3, 2] (.hook "torn")))).resume (some "w")
          Shared.fresh = (.done (.error (.wrap [3, 2] (.hook "torn"))), s') ∧
        s'.tally.count "steady" "w" = 1 := by
  have below : Shared.fresh.tally.count "steady" "w" < 2 := by decide
  obtain ⟨s', resumed, counted, _⟩ :=
    observe_agrees ⟨"steady", 2⟩ "w" Shared.fresh below (.wrap [3, 2] (.hook "torn")) (by decide)
  exact ⟨below, s', resumed, counted.mpr (.inl (by decide))⟩

/-- A cancellation is counted, although the loop of a worker does not go on after it. -/
theorem observe_counts_cancelled :
    Shared.fresh.tally.count "steady" "w" = 0 ∧
      (((⟨"steady", 2⟩ : ErrorLimit).observe "w" (.error .cancelled)).resume (some "w")
        Shared.fresh).2.tally.count "steady" "w" = 1 ∧
      WorkerState.after (.error .cancelled) ≠ .active := by
  decide

end ErrorLimit

/-! ## Calls of one worker -/

/-- A call of a worker through a layer around its work, and how what is inside ended. -/
structure Visit (C : Client) where
  call : Stretch C Unit
  inner : Outcome Unit

namespace Visit

/-- Whether it went through the layer of that limit, around work that does not touch the limit's counts. -/
def IsThrough (visit : Visit C) (limit : ErrorLimit) (worker : String) : Prop :=
  ∃ (T : Option Nat) (inner : Work C), (inner worker).Shuns (Deed.tallies limit.name) ∧
    visit.call.IsOf T ((Layer.errorLimit limit).wrap inner worker) ∧
    ∃ first second t, visit.call.steps = first ++ second ∧
      (inner worker).Runs T visit.call.begun first visit.inner.ending t

/-- Whether the worker was retired by the limit: what is inside failed, and the call ended with a shutdown. -/
def retires (visit : Visit C) : Bool :=
  visit.inner.isFailure &&
    match visit.call.outcome with
    | .error (.workerShutdown _) => true
    | _ => false

/-- Whether the failures in a row are counted anew after this. -/
def clears (visit : Visit C) : Bool :=
  visit.retires ||
    match visit.inner with
    | .ok () => true
    | _ => false

end Visit

/-- The failures since the last success and the last retirement. -/
def failures (past : List (Visit C)) : Nat :=
  (past.reverse.takeWhile fun visit => !visit.clears).countP fun visit => visit.inner.isFailure

/-- One more call starts the failures in a row anew, adds to them, or leaves them as they are. -/
theorem failures_snoc (past : List (Visit C)) (visit : Visit C) :
    failures (past ++ [visit]) =
      if visit.clears then 0 else failures past + if visit.inner.isFailure then 1 else 0 := by
  unfold failures
  rw [List.reverse_append, List.reverse_singleton, List.singleton_append, List.takeWhile_cons]
  cases visit.clears with
  | true => rfl
  | false => simp [List.countP_cons]

namespace ErrorLimit

variable {limit : ErrorLimit} {worker : String} {visit : Visit C} {past : List (Visit C)} {steps : List (Step C)}
  {n m : Nat}

/-- A failure that counts is not itself a request to shut the worker down. -/
theorem not_workerShutdown {e : PoolError} (counted : counts e = true) (reason : String) :
    e ≠ .workerShutdown reason := by
  rintro rfl
  cases counted

/-- A call that is judged by the failures before it makes of them what the limit makes of them. -/
theorem failures_judged
    (judged : visit.call.outcome = limit.judge (failures past) visit.inner) :
    failures (past ++ [visit]) = limit.next (failures past) visit.inner := by
  rw [failures_snoc]
  unfold Visit.clears Visit.retires
  cases ended : visit.inner with
  | ok => rfl
  | panic => rfl
  | error e =>
    rw [ended] at judged
    unfold Outcome.isFailure next
    unfold judge at judged
    dsimp only at judged ⊢
    by_cases counted : counts e = true
    · by_cases full : failures past = limit.threshold
      · rw [if_pos ⟨counted, full⟩] at judged
        simp [judged, counted, full, retirement]
      · rw [if_neg fun both => full both.2] at judged
        -- An error that is counted is no request to shut the worker down, so letting it pass retires nobody.
        have passed : (match visit.call.outcome with
            | .error (.workerShutdown _) => true
            | _ => false) = false := by
          rw [judged]
          split
          · next same => exact absurd (Outcome.error.inj same) (not_workerShutdown counted _)
          · rfl
        simp [passed, counted, full]
    · simp [counted]

/-- Who asks for no count of a limit leaves each of them alone. -/
theorem follow_eq_of_free (free : ∀ step ∈ steps, step.deed.tallies limit.name = false) (n : Nat) :
    (counting limit.name worker).follow n steps = some n := by
  refine Rule.follow_eq_self fun step mem => counting_eq_self (Bool.eq_false_iff.mpr fun asks => ?_) n
  have spared := free step mem
  rw [tallies_of_talliesFor asks] at spared
  cases spared

/-- A call through the layer is what is inside, and then a look at the result, unless there was a panic. -/
theorem through_cases (through : visit.IsThrough limit worker) :
    ∃ first second, visit.call.steps = first ++ second ∧
      (∀ step ∈ first, step.deed.tallies limit.name = false) ∧
      ((∃ x, visit.inner = .panic x ∧ second = [] ∧ visit.call.outcome = .panic x) ∨
        ∃ T t result, visit.inner.ending = .ok result ∧
          (limit.observe worker result).Runs T t second visit.call.outcome.ending visit.call.ended) := by
  obtain ⟨T, inner, apart, call, first, rest, t, split, ran⟩ := through
  obtain ⟨outcome, first', t₁, ran', goes_on⟩ := Program.runs_bind_outcome call
  have quiet := apart.runs ran
  cases outcome with
  | panic x =>
    obtain ⟨whole, ended, _⟩ := goes_on
    have same : first ++ rest = first' ++ [] := by rw [List.append_nil, ← whole, split]
    obtain ⟨rfl, ending, _⟩ := ran.unique ran' same
    refine ⟨first, [], by rw [List.append_nil, whole], quiet, .inl ⟨x, Outcome.ending_inj.mp ending, rfl, ?_⟩⟩
    exact Outcome.ending_inj.mp ended
  | ok | error =>
    obtain ⟨second, whole, looked⟩ := goes_on
    obtain ⟨rfl, ending, _⟩ := ran.unique ran' (split.symm.trans whole)
    exact ⟨first, second, whole, quiet, .inr ⟨T, t₁, _, ending, looked⟩⟩

/-- What one call comes to, and what it does to the count. -/
theorem visit_counted (through : visit.IsThrough limit worker) (le : n ≤ limit.threshold)
    (follows : (counting limit.name worker).follow n visit.call.steps = some m) :
    visit.call.outcome = limit.judge n visit.inner ∧ m = limit.next n visit.inner := by
  obtain ⟨first, second, whole, quiet, ended⟩ := through_cases through
  rw [whole, Rule.follow_append, follow_eq_of_free quiet] at follows
  rcases ended with ⟨x, inner, rfl, outcome⟩ | ⟨T, t, result, inner, looked⟩
  · cases follows
    rw [inner]
    exact ⟨outcome, rfl⟩
  · obtain ⟨judged, next, _⟩ := observe_runs le inner looked follows
    exact ⟨Outcome.ending_inj.mp judged, next⟩

/-- A call whose result is neither a success nor a failure that counts asks for no count. -/
theorem visit_silent (through : visit.IsThrough limit worker) (failed : visit.inner ≠ .ok ())
    (uncounted : visit.inner.isFailure = false) :
    ∀ step ∈ visit.call.steps, step.deed.tallies limit.name = false := by
  obtain ⟨first, second, whole, quiet, ended⟩ := through_cases through
  have rest : second = [] := by
    rcases ended with ⟨x, _, none, _⟩ | ⟨T, t, result, inner, looked⟩
    · exact none
    cases inner_eq : visit.inner with
    | ok => exact absurd inner_eq failed
    | panic x =>
      rw [inner_eq] at inner
      cases inner
    | error e =>
      rw [inner_eq] at inner uncounted
      cases inner
      have never : ¬ counts e = true := Bool.eq_false_iff.mp uncounted
      unfold observe at looked
      dsimp only at looked
      rw [if_neg never] at looked
      exact (Program.runs_pure.mp looked).1
  rw [whole, rest, List.append_nil]
  exact quiet

/-- Whether a worker has done that in a call through the layer of a limit, which need not be over. -/
def IsUnderway (limit : ErrorLimit) (worker : String) (steps : List (Step C)) : Prop :=
  ∃ (T : Option Nat) (inner : Work C) (t t' : Nat) (rest : Code C (PoolResult Unit)),
    (inner worker).Shuns (Deed.tallies limit.name) ∧
      ((Layer.errorLimit limit).wrap inner worker).Reaches T t steps rest t'

/-- While a call is under way, the count is at most one more than before it. -/
theorem underway_counted (underway : limit.IsUnderway worker steps)
    (follows : (counting limit.name worker).follow n steps = some m) : m ≤ n + 1 := by
  obtain ⟨T, inner, t, t', rest, apart, reaches⟩ := underway
  rcases Program.reaches_bind reaches with ⟨_, inside⟩ | ⟨result, t₁, first, second, rfl, ran, looks⟩
  · rw [follow_eq_of_free (apart.reaches inside).1] at follows
    cases follows
    omega
  · rw [Rule.follow_append, follow_eq_of_free (apart.runs ran)] at follows
    exact observe_reaches looks follows

/-- The count after any calls of a worker is the number of failures since the last success and the last retirement,
and each call is judged by the failures before it, of which there are never more than the threshold. -/
theorem visits_counted (through : ∀ visit ∈ past, visit.IsThrough limit worker)
    (follows : (counting limit.name worker).follow 0 (past.flatMap (·.call.steps)) = some n) :
    n = failures past ∧ n ≤ limit.threshold ∧
      ∀ before visit after, past = before ++ visit :: after → failures before ≤ limit.threshold ∧
        visit.call.outcome = limit.judge (failures before) visit.inner := by
  induction past using List.reverseRecOn generalizing n with
  | nil =>
    cases follows
    refine ⟨rfl, Nat.zero_le _, fun before visit after split => ?_⟩
    simp at split
  | append_singleton past last ih =>
    rw [List.forall_mem_append, List.forall_mem_singleton] at through
    rw [List.flatMap_append, List.flatMap_singleton] at follows
    obtain ⟨m, earlier, now⟩ := Rule.exists_of_follow_append follows
    obtain ⟨rfl, le, judged⟩ := ih through.1 earlier
    obtain ⟨judged_last, rfl⟩ := visit_counted through.2 le now
    refine ⟨(failures_judged judged_last).symm, next_le le _, fun before visit after split => ?_⟩
    rcases List.eq_nil_or_concat after with rfl | ⟨others, other, rfl⟩
    · obtain ⟨rfl, one⟩ := List.append_inj' split rfl
      cases one
      exact ⟨le, judged_last⟩
    · have same : past ++ [last] = (before ++ visit :: others) ++ [other] := by simpa using split
      exact judged before visit others (List.append_inj' same rfl).1

/-! ## Calls of any number of workers -/

/-- The calls of a worker through the layer of a limit never ask for the count of another. -/
theorem shuns_wrap {inner : Work C} {other : String} (apart : (inner worker).Shuns (Deed.tallies limit.name))
    (ne : other ≠ worker) :
    ((Layer.errorLimit limit).wrap inner worker).Shuns (Deed.talliesFor limit.name other) :=
  (apart.mono fun _ => tallies_of_talliesFor).bind fun result => shuns_observe ne result

/-- Calls of workers through the layers of one limit, at some moment: what all of them have done up to then, in that
order, what it has made of the counts, the calls of each worker that are over, and what each has done since. -/
structure Traffic (limit : ErrorLimit) (events : List (String × Step C)) (counts : Tally)
    (past : String → List (Visit C)) (now : String → List (Step C)) : Prop where
  tallied : Rule.follow tallying {} (events.map (·.2)) = some counts
  through : ∀ worker, ∀ visit ∈ past worker, visit.IsThrough limit worker
  underway : ∀ worker, limit.IsUnderway worker (now worker)
  deeds : ∀ worker, stepsOf worker events = (past worker).flatMap (·.call.steps) ++ now worker

/-- What holds of the count of a worker at any moment. -/
structure Counted (limit : ErrorLimit) (worker : String) (events : List (String × Step C)) (counts : Tally)
    (past : List (Visit C)) (now : List (Step C)) : Prop where
  /-- There have never been more failures in a row than the threshold. -/
  few : failures past ≤ limit.threshold
  /-- Unless the result of a call is being looked at, the count is the number of failures in a row. -/
  count_eq : (∀ step ∈ now, step.deed.talliesFor limit.name worker = false) →
    counts.count limit.name worker = failures past
  /-- At no time is the count more than one above the threshold. -/
  bounded : counts.count limit.name worker ≤ limit.threshold + 1
  /-- A call ends as what is inside does, unless that is one failure too many. -/
  passes : ∀ before visit after, past = before ++ visit :: after →
    ¬ (visit.inner.isFailure = true ∧ failures before = limit.threshold) → visit.call.outcome = visit.inner
  /-- With one failure too many, the call ends with a shutdown, and the failures are counted anew. -/
  retires : ∀ before visit after e, past = before ++ visit :: after → visit.inner = .error e →
    ErrorLimit.counts e = true → failures before = limit.threshold →
      visit.call.outcome = .error (.workerShutdown
        (toString (limit.threshold + 1) ++ " consecutive errors, last: " ++ e.message)) ∧
      failures (before ++ [visit]) = 0
  /-- Where there was nothing to do, where somebody asks for a shutdown, and where there is a panic, no count is
  asked for at all. -/
  silent : ∀ visit ∈ past, visit.inner ≠ .ok () → visit.inner.isFailure = false →
    ∀ step ∈ visit.call.steps, step.deed.tallies limit.name = false
  /-- No step of another worker changes the count. -/
  alone : ∀ before other step after, events = before ++ (other, step) :: after → other ≠ worker →
    ∃ c c', Rule.follow tallying {} (before.map (·.2)) = some c ∧ tallying c step.deed = some c' ∧
      c'.count limit.name worker = c.count limit.name worker

namespace Traffic

variable {events : List (String × Step C)} {counts : Tally} {calls : String → List (Visit C)}
  {now : String → List (Step C)}

/-- Nobody asks for the count of anybody else. -/
theorem others (h : Traffic limit events counts calls now) (worker : String) :
    ∀ event ∈ events, event.1 ≠ worker → event.2.deed.talliesFor limit.name worker = false := by
  intro event mem other
  have own := mem_stepsOf mem
  rw [h.deeds event.1, List.mem_append] at own
  rcases own with earlier | later
  · obtain ⟨visit, mem_visit, mem_steps⟩ := List.mem_flatMap.mp earlier
    obtain ⟨T, inner, apart, call, _⟩ := h.through event.1 visit mem_visit
    exact (shuns_wrap apart other.symm).runs call event.2 mem_steps
  · obtain ⟨T, inner, t, t', rest, apart, reaches⟩ := h.underway event.1
    exact ((shuns_wrap apart other.symm).reaches reaches).1 event.2 later

/-- Whatever the workers call and however their calls run into each other, every call is judged by the failures of its
worker in a row, and those are what the limit counts. -/
theorem counted (h : Traffic limit events counts calls now) (worker : String) :
    Counted limit worker events counts (calls worker) (now worker) := by
  have follows := follow_counting limit.name worker h.tallied
  rw [follow_stepsOf worker (h.others worker), h.deeds worker] at follows
  obtain ⟨n, earlier, later⟩ := Rule.exists_of_follow_append follows
  obtain ⟨rfl, few, judged⟩ := visits_counted (h.through worker) earlier
  constructor
  -- The deeds of this worker alone decide its count: visits that are over, and one that may be under way.
  case few => exact few
  case count_eq =>
    intro free
    rw [Rule.follow_eq_self fun step mem => counting_eq_self (free step mem) _] at later
    exact (Option.some.inj later).symm
  case bounded =>
    have more := underway_counted (h.underway worker) later
    omega
  case passes =>
    intro before visit after split spared
    rw [(judged before visit after split).2]
    cases inner : visit.inner with
    | ok | panic => rfl
    | error e =>
      rw [inner] at spared
      exact if_neg spared
  case retires =>
    intro before visit after e split inner counted full
    have outcome := (judged before visit after split).2
    have anew := failures_judged outcome
    rw [inner] at outcome anew
    constructor
    · exact outcome.trans (if_pos ⟨counted, full⟩)
    · simpa [next, counted, full] using anew
  case silent => exact fun visit mem => visit_silent (h.through worker visit mem)
  -- A deed of another worker asks about another count, and leaves this one where it was.
  case alone =>
    intro before other step after split ne
    have tallied := h.tallied
    rw [split, List.map_append] at tallied
    obtain ⟨c, first, rest⟩ := Rule.exists_of_follow_append tallied
    obtain ⟨c', asked, _⟩ := Rule.exists_of_follow_cons rest
    refine ⟨c, c', first, asked, ?_⟩
    have free := h.others worker (other, step) (split ▸ List.mem_append_right _ List.mem_cons_self) ne
    have moved := counting_of_tallying limit.name worker asked
    rw [counting_eq_self free] at moved
    exact (Option.some.inj moved).symm

end Traffic

/-- A limit of one failure in a row. -/
def strict : ErrorLimit where
  name := "strict"
  threshold := 1

/-- Work that fails. -/
def torn : Work .bare :=
  fun _ => .done (.error (.hook "torn"))

/-- A first failure. -/
def slip (worker : String) : Visit .bare where
  call := {
    begun := 0
    ended := 0
    steps := [⟨0, .asked (.tally "strict" worker (· + 1)) (0 : Nat)⟩]
    outcome := .error (.hook "torn") }
  inner := .error (.hook "torn")

/-- A second failure. -/
def fall (worker : String) : Visit .bare where
  call := {
    begun := 0
    ended := 0
    steps := [
      ⟨0, .asked (.tally "strict" worker (· + 1)) (1 : Nat)⟩,
      ⟨0, .asked (.log {
        level := .warn
        text := "🔨 Too many consecutive errors, retiring worker"
        fields := [
          ("worker", .text worker),
          ("consecutive_errors", .number 2),
          ("threshold", .number 1),
          ("error", .text (PoolError.hook "torn").message)] }) ()⟩,
      ⟨0, .asked (.tally "strict" worker fun _ => 0) (2 : Nat)⟩]
    outcome := .error (strict.retirement (.hook "torn")) }
  inner := .error (.hook "torn")

/-- The first failure went through the limit. -/
theorem slip_isThrough (worker : String) : (slip worker).IsThrough strict worker :=
  ⟨none, torn, .pure _, .ask trivial (.done _ _), [], _, 0, rfl, .done _ _⟩

/-- So did the second one. -/
theorem fall_isThrough (worker : String) : (fall worker).IsThrough strict worker :=
  ⟨none, torn, .pure _, .ask trivial (.ask trivial (.ask trivial (.done _ _))), [], _, 0, rfl, .done _ _⟩

/-- The calls of two workers, the first of which is retired, with a call of the second in between. -/
def twoCallers (worker : String) : List (Visit .bare) :=
  if worker = "a" then [slip "a", fall "a"] else if worker = "b" then [slip "b"] else []

/-- What they do. -/
def twoCallersEvents : List (String × Step .bare) :=
  (slip "a").call.steps.map ("a", ·) ++ (slip "b").call.steps.map ("b", ·) ++ (fall "a").call.steps.map ("a", ·)

/-- The worker that failed twice is retired and starts anew; the one that failed once is counted by itself. -/
theorem counted_of_two :
    ∃ counts, Traffic strict twoCallersEvents counts twoCallers (fun _ => []) ∧
      counts.count "strict" "a" = 0 ∧ counts.count "strict" "b" = 1 ∧
      Counted strict "a" twoCallersEvents counts [slip "a", fall "a"] [] ∧
      Counted strict "b" twoCallersEvents counts [slip "b"] [] := by
  have traffic : Traffic strict twoCallersEvents
      (((({} : Tally).set "strict" "a" 1).set "strict" "b" 1).set "strict" "a" 2 |>.set "strict" "a" 0) twoCallers
      (fun _ => []) := by
    constructor
    case tallied => rfl
    case through =>
      intro worker visit mem
      unfold twoCallers at mem
      by_cases a : worker = "a"
      · subst a
        rw [if_pos rfl, List.mem_cons, List.mem_singleton] at mem
        rcases mem with rfl | rfl
        · exact slip_isThrough "a"
        · exact fall_isThrough "a"
      by_cases b : worker = "b"
      · subst b
        rw [if_neg a, if_pos rfl, List.mem_singleton] at mem
        subst mem
        exact slip_isThrough "b"
      · rw [if_neg a, if_neg b] at mem
        cases mem
    case underway => exact fun worker => ⟨none, torn, 0, 0, _, .pure _, .refl _ _⟩
    case deeds =>
      intro worker
      rw [List.append_nil]
      by_cases a : worker = "a"
      · subst a
        rfl
      by_cases b : worker = "b"
      · subst b
        rfl
      · simp [stepsOf, twoCallersEvents, twoCallers, slip, fall, a, b, Ne.symm a, Ne.symm b]
  exact ⟨_, traffic, by decide, by decide, traffic.counted "a", traffic.counted "b"⟩

end ErrorLimit

end WorkerPool
