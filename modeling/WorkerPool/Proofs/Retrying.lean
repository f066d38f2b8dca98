import WorkerPool.Proofs.Alone
import WorkerPool.Proofs.Observation
import WorkerPool.Retry

/-!
# How a retried operation goes

`RetryPolicy.Goes` says how the attempts at an operation follow one another, one constructor for each
way in which an attempt can be the last one and one for going on. `runFrom_goes` reads it off the code
that retries.
-/

namespace WorkerPool

variable {C : Client} {α : Type} {T : Option Nat} {t t' : Nat}

namespace RetryPolicy

/-- The backoff before an attempt, in milliseconds of the clock. -/
def backoff (policy : RetryPolicy) (attempt : Nat) : Nat :=
  waited (policy.delayFor attempt).ceilMillis

/-- What follows an attempt that succeeded. -/
def successNote (attempt time : Nat) : List (Step C) :=
  if 1 < attempt then [⟨time, .asked (.record (.retrySuccess attempt)) ()⟩] else []

/-- What follows the failure of the last attempt that there may be. -/
def exhaustionNote (policy : RetryPolicy) (time : Nat) : List (Step C) :=
  if 1 < policy.maxAttempts then
    [⟨time, .asked (.record (.retryExhausted policy.maxAttempts)) ()⟩]
  else []

/-- How the attempts go from the one with that number on, if at most `left` more may follow it: the
attempts, what is done beside the log, the outcome, and when it is all over. -/
inductive Goes (policy : RetryPolicy) (operation : Nat → Code C (PoolResult α)) (T : Option Nat) :
    (attempt left : Nat) → List (Stretch C α) → List (Step C) → Outcome α → Nat → Prop
  | succeeded {n left : Nat} {a : Stretch C α} {value : α} (run : a.IsOf T (operation n))
      (ok : a.outcome = .ok value) :
      Goes policy operation T n left [a] (unlogged a.steps ++ successNote n a.ended) (.ok value)
        a.ended
  | panicked {n left : Nat} {a : Stretch C α} {x : Panic} (run : a.IsOf T (operation n))
      (panic : a.outcome = .panic x) :
      Goes policy operation T n left [a] (unlogged a.steps) (.panic x) a.ended
  | exhausted {n : Nat} {a : Stretch C α} {e : PoolError} (run : a.IsOf T (operation n))
      (failed : a.outcome = .error e) :
      Goes policy operation T n 0 [a] (unlogged a.steps ++ policy.exhaustionNote a.ended)
        (.error (.retriesExhausted policy.maxAttempts e)) a.ended
  | cancelled {n left t' : Nat} {a : Stretch C α} {e : PoolError} (run : a.IsOf T (operation n))
      (failed : a.outcome = .error e)
      (wait : WaitEnds T a.ended (policy.delayFor (n + 1)).ceilMillis true .cancelled t') :
      Goes policy operation T n (left + 1) [a] (unlogged a.steps ++ [⟨t', .waited true .cancelled⟩])
        (.error .cancelled) t'
  | again {n left t' : Nat} {a b : Stretch C α} {more : List (Stretch C α)} {e : PoolError}
      {steps : List (Step C)} {outcome : Outcome α} (run : a.IsOf T (operation n))
      (failed : a.outcome = .error e)
      (wait : WaitEnds T a.ended (policy.delayFor (n + 1)).ceilMillis true .elapsed b.begun)
      (rest : Goes policy operation T (n + 1) left (b :: more) steps outcome t') :
      Goes policy operation T n (left + 1) (a :: b :: more)
        (unlogged a.steps ++ ⟨b.begun, .waited true .elapsed⟩ ::
          ⟨b.begun, .asked (.record (.retryAttempt (n + 1))) ()⟩ :: steps)
        outcome t'

variable {policy : RetryPolicy} {operation : Nat → Code C (PoolResult α)}

/-- After a success nothing is left to do but to say so, if it was not the first attempt. -/
theorem goes_of_ok {n left : Nat} {a : Stretch C α} {value : α} {rest : List (Step C)}
    {e : Except Panic (PoolResult α)} (run : a.IsOf T (operation n)) (ok : a.outcome = .ok value)
    (next : Program.Runs T
      (if 1 < n then do
        Code.log .debug "Task succeeded after retry" [("attempt", .number n)]
        Code.record (.retrySuccess n)
        return .ok value
      else return .ok value) a.ended rest e t') :
    ∃ outcome, e = outcome.ending ∧
      policy.Goes operation T n left [a] (unlogged (a.steps ++ rest)) outcome t' := by
  have goes : policy.Goes operation T n left [a] _ (.ok value) a.ended := .succeeded run ok
  by_cases again : 1 < n
  · simp only [if_pos again, Code.runs_log_bind, Code.runs_record_bind, Program.runs_pure] at next
    obtain ⟨_, rfl, _, rfl, rfl, rfl, rfl⟩ := next
    refine ⟨.ok value, rfl, ?_⟩
    simpa [successNote, again] using goes
  · simp only [if_neg again, Program.runs_pure] at next
    obtain ⟨rfl, rfl, rfl⟩ := next
    refine ⟨.ok value, rfl, ?_⟩
    simpa [successNote, again] using goes

/-- Attempts go as the policy says. The induction is on those that are left; a failure with none left ends them. -/
theorem runFrom_goes {t n left : Nat} {steps : List (Step C)} {e : Except Panic (PoolResult α)}
    (h : (policy.runFrom operation n left).Runs T t steps e t') :
    ∃ a more outcome, e = outcome.ending ∧ a.begun = t ∧
      policy.Goes operation T n left (a :: more) (unlogged steps) outcome t' := by
  unfold runFrom at h
  obtain ⟨outcome, first, t₁, run, next⟩ := Program.runs_bind_outcome h
  let a : Stretch C α := ⟨t, t₁, first, outcome⟩
  cases outcome with
  | panic x =>
    obtain ⟨rfl, rfl, rfl⟩ := next
    exact ⟨a, [], .panic x, rfl, rfl, .panicked run rfl⟩
  | ok value =>
    obtain ⟨second, rfl, next⟩ := next
    have isOf : a.IsOf T (operation n) := run
    obtain ⟨outcome, he, goes⟩ := goes_of_ok isOf rfl next
    exact ⟨a, [], outcome, he, rfl, goes⟩
  | error error =>
    obtain ⟨second, rfl, next⟩ := next
    -- A failed attempt with none left exhausts them, and else there is a backoff, which the token may cut short.
    cases left with
    | zero =>
      refine ⟨a, [], .error (.retriesExhausted policy.maxAttempts error), ?_⟩
      have goes : policy.Goes operation T n 0 [a] _ _ t₁ := .exhausted run rfl
      by_cases several : 1 < policy.maxAttempts
      · simp only [if_pos several, Code.runs_log_bind, Code.runs_record_bind, Program.runs_pure]
          at next
        obtain ⟨_, rfl, _, rfl, rfl, rfl, rfl⟩ := next
        exact ⟨rfl, rfl, by simpa [exhaustionNote, several] using goes⟩
      · simp only [if_neg several, Code.runs_log_bind, Program.runs_pure] at next
        obtain ⟨_, rfl, rfl, rfl, rfl⟩ := next
        exact ⟨rfl, rfl, by simpa [exhaustionNote, several] using goes⟩
    | succ left =>
      simp only [Code.runs_log_bind, Program.runs_sleepUnlessCancelled_bind] at next
      obtain ⟨_, rfl, _, rfl, wake, t₂, rest, ends, rfl, next⟩ := next
      cases wake with
      | cancelled =>
        obtain ⟨rfl, rfl, rfl⟩ := Program.runs_pure.mp next
        refine ⟨a, [], .error .cancelled, rfl, rfl, ?_⟩
        have goes : policy.Goes operation T n (left + 1) [a] _ _ t' := .cancelled run rfl ends
        simpa using goes
      | elapsed =>
        rw [Code.runs_record_bind] at next
        obtain ⟨_, rfl, next⟩ := next
        obtain ⟨b, more, outcome, he, rfl, goes⟩ := runFrom_goes next
        refine ⟨a, b :: more, outcome, he, rfl, ?_⟩
        have all : policy.Goes operation T n (left + 1) (a :: b :: more) _ outcome t' :=
          .again run rfl ends goes
        simpa using all

/-- The result of a run under a policy, given the number of attempts that it may still make when it
has come to an end with the attempt `last`. -/
inductive Settles (policy : RetryPolicy) (T : Option Nat) (count : Nat) (last : Stretch C α) :
    Outcome α → Nat → Prop
  | succeeded {value : α} (ok : last.outcome = .ok value) :
      Settles policy T count last (.ok value) last.ended
  | panicked {x : Panic} (panic : last.outcome = .panic x) :
      Settles policy T count last (.panic x) last.ended
  | exhausted {e : PoolError} (failed : last.outcome = .error e) (all : count = policy.maxAttempts) :
      Settles policy T count last (.error (.retriesExhausted policy.maxAttempts e)) last.ended
  | cancelled {e : PoolError} {moment : Nat} (failed : last.outcome = .error e)
      (some_left : count < policy.maxAttempts) (mem : moment ∈ T)
      (le : moment ≤ last.ended + policy.backoff (count + 1)) :
      Settles policy T count last (.error .cancelled) (max last.ended moment)

/-- If the last attempt settles the run with an error, it was cancelled or the attempts are exhausted. -/
theorem Settles.failed {count : Nat} {last : Stretch C α} {result : Outcome α}
    (h : policy.Settles T count last result t') (e : PoolError) (failed : result = .error e) :
    e = .cancelled ∨ ∃ source, e = .retriesExhausted policy.maxAttempts source := by
  cases h <;> cases failed
  · exact .inr ⟨_, rfl⟩
  · exact .inl rfl

/-! ## Facts about all attempts -/

section

variable {n left : Nat} {attempts : List (Stretch C α)} {steps : List (Step C)} {result : Outcome α}

/-- There are no more attempts than are allowed. -/
theorem Goes.length_le (h : policy.Goes operation T n left attempts steps result t') :
    attempts.length ≤ left + 1 := by
  induction h with
  | succeeded | panicked | exhausted | cancelled => simp
  | again _ _ _ _ ih => simpa using ih

/-- Each attempt is a run of the operation, with its number. -/
theorem Goes.isOf (h : policy.Goes operation T n left attempts steps result t') (i : Nat)
    (a : Stretch C α) (at_i : attempts[i]? = some a) : a.IsOf T (operation (n + i)) := by
  induction h generalizing i with
  | succeeded run _ | panicked run _ | exhausted run _ | cancelled run _ _ =>
    cases i with
    | zero => cases at_i; exact run
    | succ => cases at_i
  | again run _ _ _ ih =>
    cases i with
    | zero => cases at_i; exact run
    | succ i =>
      rw [← Nat.add_assoc, Nat.add_right_comm]
      exact ih i at_i

/-- Between two attempts there was a failure and a backoff that ran out before the token was
cancelled. -/
theorem Goes.between (h : policy.Goes operation T n left attempts steps result t') (i : Nat)
    (a b : Stretch C α) (at_i : attempts[i]? = some a) (at_next : attempts[i + 1]? = some b) :
    (∃ e, a.outcome = .error e) ∧ b.begun = a.ended + policy.backoff (n + i + 1) ∧
      ∀ moment ∈ T, b.begun ≤ moment := by
  induction h generalizing i with
  | succeeded | panicked | exhausted | cancelled => cases at_next
  | @again n _ _ _ _ _ e _ _ _ failed wait _ ih =>
    cases i with
    | zero =>
      cases at_i
      cases at_next
      obtain ⟨due, before⟩ := waitEnds_elapsed_iff.mp wait
      exact ⟨⟨e, failed⟩, due, before rfl⟩
    | succ i =>
      rw [← Nat.add_assoc n, Nat.add_right_comm n]
      exact ih i at_i at_next

/-- What becomes of the whole follows from the last attempt and the number that are left. -/
theorem Goes.settles (h : policy.Goes operation T n left attempts steps result t')
    (all : n + left = policy.maxAttempts) :
    ∃ last, attempts.getLast? = some last ∧
      policy.Settles T (n + attempts.length - 1) last result t' := by
  induction h with
  | succeeded _ ok => exact ⟨_, rfl, .succeeded ok⟩
  | panicked _ panic => exact ⟨_, rfl, .panicked panic⟩
  | exhausted _ failed => exact ⟨_, rfl, .exhausted failed all⟩
  | cancelled _ failed wait =>
    obtain ⟨moment, mem, le, rfl⟩ := waitEnds_cancelled_iff.mp wait
    refine ⟨_, rfl, .cancelled failed ?_ mem le⟩
    simp only [List.length_cons, List.length_nil]
    omega
  | again _ _ _ _ ih =>
    obtain ⟨last, last_eq, settles⟩ := ih (by omega)
    refine ⟨last, by simpa using last_eq, ?_⟩
    simpa only [List.length_cons, Nat.add_assoc, Nat.add_comm 1] using settles

end

/-- What attempts leave behind beside the log, the first of them having that number: each attempt
after the first was waited for and told to the collector before it was made. -/
def story : (attempt : Nat) → List (Stretch C α) → List (Step C)
  | _, [] => []
  | n, a :: more =>
    (if 1 < n then
      [⟨a.begun, .waited true .elapsed⟩, ⟨a.begun, .asked (.record (.retryAttempt n)) ()⟩]
    else []) ++ unlogged a.steps ++ story (n + 1) more

/-- What follows the last of `count` attempts. -/
def coda (policy : RetryPolicy) (count time : Nat) : Outcome α → List (Step C)
  | .ok _ => successNote count time
  | .error .cancelled => [⟨time, .waited true .cancelled⟩]
  | .error _ => policy.exhaustionNote time
  | .panic _ => []

/-- Without the log a run is its first attempt, what is done for each attempt after it, and what is done at the
end. -/
theorem Goes.steps_eq {n left : Nat} {a : Stretch C α} {more : List (Stretch C α)}
    {steps : List (Step C)} {result : Outcome α}
    (h : policy.Goes operation T n left (a :: more) steps result t') (pos : 0 < n) :
    steps = unlogged a.steps ++ story (n + 1) more ++ policy.coda (n + more.length) t' result := by
  generalize hl : a :: more = attempts at h
  induction h generalizing a more with
  | succeeded | panicked | exhausted | cancelled =>
    cases hl
    simp [story, coda]
  | @again n _ _ _ _ _ _ _ _ _ _ _ _ ih =>
    cases hl
    have again : 1 < n + 1 := by omega
    rw [ih (by omega) rfl]
    simp [story, again, Nat.add_assoc, Nat.add_comm 1]

/-- What the collector is told when the last of `count` attempts has been made. -/
def verdict (policy : RetryPolicy) (count : Nat) : Outcome α → List Metric
  | .ok _ => if 1 < count then [.retrySuccess count] else []
  | .error (.retriesExhausted _ _) =>
    if 1 < policy.maxAttempts then [.retryExhausted policy.maxAttempts] else []
  | _ => []

/-- Everything that is to be said of a run of an operation under a policy, given its attempts. -/
structure Course (policy : RetryPolicy) (operation : Nat → Code C (PoolResult α)) (T : Option Nat)
    (t : Nat) (steps : List (Step C)) (result : Outcome α) (t' : Nat)
    (attempts : List (Stretch C α)) (last : Stretch C α) : Prop where
  last_eq : attempts.getLast? = some last
  length_le : attempts.length ≤ policy.maxAttempts
  /-- The attempts are calls of the operation with the numbers 1, 2, and so on. -/
  isOf : ∀ (i : Nat) (a : Stretch C α), attempts[i]? = some a → a.IsOf T (operation (i + 1))
  /-- The first attempt is made at once, whatever the token. -/
  first : ∀ a : Stretch C α, attempts[0]? = some a → a.begun = t
  /-- Every attempt before the last failed, and the next one was made when the backoff had run out,
  which it did not after the token was cancelled. -/
  between : ∀ (i : Nat) (a b : Stretch C α), attempts[i]? = some a → attempts[i + 1]? = some b →
    (∃ e, a.outcome = .error e) ∧ b.begun = a.ended + policy.backoff (i + 2) ∧
      ∀ moment ∈ T, b.begun ≤ moment
  succeeded_iff : ∀ value, result = .ok value ↔ last.outcome = .ok value
  exhausted_iff : ∀ count source, result = .error (.retriesExhausted count source) ↔
    count = policy.maxAttempts ∧ attempts.length = policy.maxAttempts ∧ last.outcome = .error source
  /-- The run is cancelled if the token is by the end of a backoff, and then it ends as soon as both
  the attempt is over and the token is cancelled. -/
  cancelled_iff : result = .error .cancelled ↔
    attempts.length < policy.maxAttempts ∧ (∃ e, last.outcome = .error e) ∧
      ∃ moment ∈ T, moment ≤ last.ended + policy.backoff (attempts.length + 1) ∧
        t' = max last.ended moment
  panicked_iff : ∀ x, result = .panic x ↔ last.outcome = .panic x
  /-- There is no other error. -/
  failed : ∀ e, result = .error e →
    e = .cancelled ∨ ∃ source, e = .retriesExhausted policy.maxAttempts source
  ended : result ≠ .error .cancelled → t' = last.ended
  /-- A backoff of whole milliseconds is kept exactly, unless it is longer than any wait. -/
  backoff_eq : ∀ attempt ms, (policy.delayFor attempt).toNanos = ms * nanosPerMilli →
    ms ≤ longestWait → policy.backoff attempt = ms
  /-- Nothing else is done but to write to the log. -/
  unlogged_eq : unlogged steps = story 1 attempts ++ policy.coda attempts.length t' result
  /-- So the collector is told of each attempt after the first, and then of the ending. -/
  recordings_eq : (∀ a ∈ attempts, recordings a.steps = []) →
    recordings steps = (List.range' 2 (attempts.length - 1)).map .retryAttempt ++
      policy.verdict attempts.length result

/-- A delay of whole milliseconds is waited for exactly, unless it is longer than any wait. -/
theorem backoff_eq_of_whole {attempt ms : Nat}
    (whole : (policy.delayFor attempt).toNanos = ms * nanosPerMilli) (le : ms ≤ longestWait) :
    policy.backoff attempt = ms := by
  rw [backoff, Duration.ceilMillis, whole, waited]
  simp only [nanosPerMilli]
  omega

/-- Each attempt after the first is recorded when it begins. -/
theorem recordings_story {n : Nat} {attempts : List (Stretch C α)} (pos : 1 < n)
    (silent : ∀ a ∈ attempts, recordings a.steps = []) :
    recordings (story n attempts) = (List.range' n attempts.length).map .retryAttempt := by
  induction attempts generalizing n with
  | nil => rfl
  | cons a more ih =>
    have rest := ih (n := n + 1) (by omega) fun b mem => silent b (by simp [mem])
    rw [story, if_pos pos]
    simp [recordings_unlogged, silent a, rest, List.range'_succ]

/-- At the end of a run its verdict is recorded, and nothing else. -/
theorem recordings_coda {count time : Nat} {result : Outcome α}
    (failed : ∀ e, result = .error e →
      e = .cancelled ∨ ∃ source, e = .retriesExhausted policy.maxAttempts source) :
    recordings (policy.coda count time result : List (Step C)) = policy.verdict count result := by
  cases result with
  | ok value => simp only [coda, successNote, verdict]; split <;> rfl
  | panic x => rfl
  | error e =>
    cases e with
    | retriesExhausted => simp only [coda, exhaustionNote, verdict]; split <;> rfl
    | cancelled => rfl
    | _ => rcases failed _ rfl with h | ⟨_, h⟩ <;> cases h

/-- Any run under a policy, however it ends, takes a course as described above. -/
theorem exists_course {steps : List (Step C)} {e : Except Panic (PoolResult α)}
    (h : (policy.run operation).Runs T t steps e t') :
    ∃ (attempts : List (Stretch C α)) (last : Stretch C α) (result : Outcome α),
      e = result.ending ∧ policy.Course operation T t steps result t' attempts last := by
  have pos := policy.maxAttempts_pos
  obtain ⟨a, more, result, he, begun, goes⟩ := runFrom_goes h
  -- How the last attempt settles the run decides each of the endings below.
  obtain ⟨last, last_eq, settles⟩ := goes.settles (by omega)
  rw [Nat.add_sub_cancel_left] at settles
  have length_le := goes.length_le
  have unlogged_eq : unlogged steps = story 1 (a :: more) ++
      policy.coda (a :: more).length t' result := by
    simpa [story, Nat.add_comm 1] using goes.steps_eq Nat.one_pos
  refine ⟨a :: more, last, result, he, ?_⟩
  constructor
  case last_eq => exact last_eq
  case length_le => omega
  case isOf =>
    intro i b at_i
    rw [Nat.add_comm]
    exact goes.isOf i b at_i
  case first =>
    intro b at_zero
    cases at_zero
    exact begun
  case between =>
    intro i b c at_i at_next
    rw [show i + 2 = 1 + i + 1 by omega]
    exact goes.between i b c at_i at_next
  case succeeded_iff =>
    intro value
    cases settles <;> simp [*]
  -- Attempts are exhausted with none left, so the other endings either have another outcome or some left.
  case exhausted_iff =>
    intro count source
    cases settles with
    | exhausted failed all =>
      simp only [failed, Outcome.error.injEq, PoolError.retriesExhausted.injEq]
      exact ⟨fun ⟨h, same⟩ => ⟨h.symm, by omega, same⟩, fun ⟨h, _, same⟩ => ⟨h.symm, same⟩⟩
    | cancelled failed some_left =>
      simp only [reduceCtorEq, Outcome.error.injEq, false_iff]
      omega
    | succeeded ok => simp [ok]
    | panicked panic => simp [panic]
  case cancelled_iff =>
    cases settles with
    | exhausted failed all =>
      simp only [reduceCtorEq, Outcome.error.injEq, false_iff]
      omega
    | @cancelled _ moment failed some_left mem le =>
      exact iff_of_true rfl ⟨some_left, ⟨_, failed⟩, moment, mem, le, rfl⟩
    | succeeded ok => simp [ok]
    | panicked panic => simp [panic]
  case panicked_iff =>
    intro x
    cases settles <;> simp [*]
  case failed => exact settles.failed
  case ended =>
    intro other
    cases settles <;> first | rfl | exact absurd rfl other
  case backoff_eq => exact fun attempt ms whole le => backoff_eq_of_whole whole le
  case unlogged_eq => exact unlogged_eq
  -- The log apart, what is recorded is read off the story of the attempts and the note at the end.
  case recordings_eq =>
    intro silent
    have silent_more : ∀ b ∈ more, recordings b.steps = [] := fun b mem => silent b (by simp [mem])
    rw [← recordings_unlogged, unlogged_eq, recordings_append, recordings_coda settles.failed, story]
    have story_more := recordings_story (Nat.one_lt_two) silent_more
    simp [recordings_unlogged, silent a, story_more]

/-- Where the last attempt failed with others left, the run was cancelled. -/
theorem Course.cancelled_of_left {steps : List (Step C)} {result : Outcome α}
    {attempts : List (Stretch C α)} {last : Stretch C α}
    (h : policy.Course operation T t steps result t' attempts last) {e : PoolError}
    (failed : last.outcome = .error e) (left : attempts.length < policy.maxAttempts) :
    result = .error .cancelled := by
  cases result with
  | ok value =>
    have succeeded := (h.succeeded_iff value).mp rfl
    rw [failed] at succeeded
    cases succeeded
  | panic x =>
    have panicked := (h.panicked_iff x).mp rfl
    rw [failed] at panicked
    cases panicked
  | error other =>
    rcases h.failed other rfl with rfl | ⟨source, rfl⟩
    · rfl
    · obtain ⟨_, all, _⟩ := (h.exhausted_iff _ _).mp rfl
      omega

/-- An operation is run to an end, and every run of it under a policy is a row of attempts, numbered from
1: each one after the first is made when the backoff after the failure of the one before has run out. The
last one decides the result, unless the token is cancelled in the backoff that would follow it. -/
theorem run_course [Nonempty C.State] (policy : RetryPolicy) (operation : Nat → Code C (PoolResult α))
    (T : Option Nat) (t : Nat) :
    (∃ steps e t', (policy.run operation).Runs T t steps e t') ∧
      ∀ steps e t', (policy.run operation).Runs T t steps e t' →
        ∃ (attempts : List (Stretch C α)) (last : Stretch C α) (result : Outcome α),
          e = result.ending ∧ policy.Course operation T t steps result t' attempts last :=
  ⟨(policy.run operation).exists_runs T t, fun _ _ _ run => exists_course run⟩

/-- An operation that fails before the attempt with a given number. -/
def succeedsAt (attempt : Nat) (n : Nat) : Code .bare (PoolResult Unit) :=
  .done (if n < attempt then .error .noWork else .ok ())

/-- A second attempt that succeeds, after a backoff of ten milliseconds. -/
theorem run_course_of_second :
    let policy := RetryPolicy.new 3 (.ofMillis 10)
    Nonempty Client.bare.State ∧ ∃ steps,
      (policy.run (succeedsAt 2)).Runs none 0 steps (.ok (.ok ())) 10 ∧
        ∃ attempts last result, Except.ok (Except.ok ()) = result.ending ∧
          policy.Course (succeedsAt 2) none 0 steps result 10 attempts last := by
  intro policy
  have state : Nonempty Client.bare.State := ⟨()⟩
  have run : ∃ steps, (policy.run (succeedsAt 2)).Runs none 0 steps (.ok (.ok ())) 10 :=
    Program.runs_of_playAlone none none Shared.fresh_pastCancel (by decide +kernel)
      (by decide +kernel) (by decide +kernel)
  obtain ⟨steps, run⟩ := run
  obtain ⟨_, courses⟩ := run_course policy (succeedsAt 2) none 0
  exact ⟨state, steps, run, courses steps _ _ run⟩

/-- A backoff may end before its time. Of two attempts that fail at once, with a delay of `2 ^ 63`
seconds in between, the second is made after thirty years. -/
theorem backoff_cut_short :
    let delay : Duration := { secs := 9223372036854775808, nanos := 0 }
    let policy := RetryPolicy.new 2 delay
    policy.delayFor 2 = delay ∧ ∃ steps attempts last first second,
      policy.Course (succeedsAt 3) none 0 steps (.error (.retriesExhausted 2 .noWork)) 946080000000
        attempts last ∧
      attempts[0]? = some first ∧ attempts[1]? = some second ∧
      second.begun < first.ended + delay.ceilMillis := by
  intro delay policy
  have run : ∃ steps, (policy.run (succeedsAt 3)).Runs none 0 steps
      (.ok (.error (.retriesExhausted 2 .noWork))) 946080000000 :=
    Program.runs_of_playAlone none none Shared.fresh_pastCancel (by decide +kernel)
      (by decide +kernel) (by decide +kernel)
  obtain ⟨steps, run⟩ := run
  obtain ⟨attempts, last, result, same, course⟩ := exists_course run
  obtain rfl : result = .error (.retriesExhausted 2 .noWork) := Outcome.ending_inj.mp same.symm
  obtain ⟨_, all, _⟩ := (course.exhausted_iff _ _).mp rfl
  have two : attempts.length = 2 := all
  obtain ⟨first, at_zero⟩ : ∃ first, attempts[0]? = some first :=
    ⟨_, List.getElem?_eq_getElem (by omega)⟩
  obtain ⟨second, at_one⟩ : ∃ second, attempts[1]? = some second :=
    ⟨_, List.getElem?_eq_getElem (by omega)⟩
  obtain ⟨_, begun, _⟩ := course.between 0 first second at_zero at_one
  refine ⟨by decide, steps, attempts, last, first, second, course, at_zero, at_one, ?_⟩
  have short : policy.backoff (0 + 2) < delay.ceilMillis := by decide
  omega

end RetryPolicy

end WorkerPool
