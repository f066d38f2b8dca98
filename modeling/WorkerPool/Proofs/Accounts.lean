import WorkerPool.Proofs.Counting
import WorkerPool.Proofs.Disposal

/-!
# What is recorded of each task

What a worker tells the collector adds up: nothing is told of a task that has not been checked out, and
not more of it than there can be. An `Account` says how many marks of one sort there may be for each mark
of another, and it is covered at every moment, not only in the end (`Account.Covers`). Rounds cover the
accounts of tasks (`Round.Follows.covers`), so do loops and whatever is the beginning of one
(`Pool.Underway.covers`). Where rounds are complete, moreover, each task that was checked out has been
completed or failed, unless the call that was to do it panicked (`Loops.settles`).
-/

namespace WorkerPool

variable {C : Client} {T : Option Nat} {t t' : Nat}

/-! ## Accounts -/

/-- At most `limit` marks of one sort for each mark of another. -/
structure Account (C : Client) where
  limit : Nat
  earns : Mark C → Bool
  spends : Mark C → Bool

namespace Account

/-- Whether at every moment enough marks had been earned. -/
def Covers (a : Account C) (marks : List (Nat × Mark C)) : Prop :=
  ∀ before, before <+: marks →
    before.countP (fun mark => a.spends mark.2) ≤ a.limit * before.countP fun mark => a.earns mark.2

variable {a : Account C} {marks first second : List (Nat × Mark C)}

/-- What is covered in the end was covered at every moment before, for `Covers` speaks of all beginnings. -/
theorem Covers.of_prefix (h : a.Covers marks) (begins : first <+: marks) : a.Covers first :=
  fun before prior => h before (prior.trans begins)

/-- Nothing that is not spent need be earned. -/
theorem covers_of_unspent (unspent : ∀ mark ∈ marks, a.spends mark.2 = false) : a.Covers marks := by
  intro before prior
  have none_spent : before.countP (fun mark => a.spends mark.2) = 0 := by
    rw [List.countP_eq_zero]
    intro mark mem
    simp [unspent mark (prior.subset mem)]
  omega

/-- An account that is covered in two stretches is covered in both of them together. -/
theorem Covers.append (h : a.Covers first) (g : a.Covers second) : a.Covers (first ++ second) := by
  intro before prior
  rcases List.prefix_or_prefix_of_prefix prior (List.prefix_append first second) with within | ⟨more, rfl⟩
  · exact h before within
  · have prior := (List.prefix_append_right_inj first).mp prior
    have earlier := h first (List.prefix_refl _)
    have later := g more prior
    rw [List.countP_append, List.countP_append, Nat.mul_add]
    omega

/-- An account is covered over stretches each of which covers it by itself. -/
theorem covers_flatMap {ι : Type} {f : ι → List (Nat × Mark C)} {items : List ι}
    (each : ∀ item ∈ items, a.Covers (f item)) : a.Covers (items.flatMap f) := by
  induction items with
  | nil => exact covers_of_unspent (List.forall_mem_nil _)
  | cons item rest ih =>
    rw [List.flatMap_cons]
    exact (each item (by simp)).append (ih fun other mem => each other (by simp [mem]))

/-- What is earned once covers all that may be spent of it later. -/
theorem covers_cons {mark : Nat × Mark C} (earned : a.earns mark.2 = true)
    (unspent : a.spends mark.2 = false)
    (le : second.countP (fun mark => a.spends mark.2) ≤ a.limit) : a.Covers (mark :: second) := by
  intro before prior
  cases before with
  | nil => exact Nat.zero_le _
  | cons head more =>
    obtain ⟨rfl, later⟩ := List.cons_prefix_cons.mp prior
    have spent : more.countP (fun mark => a.spends mark.2) ≤ a.limit :=
      Nat.le_trans later.sublist.countP_le le
    rw [List.countP_cons_of_neg (by simp [unspent]), List.countP_cons_of_pos (by simp [earned]), Nat.mul_add]
    omega

end Account

/-- Whether the collector was told something of one of those kinds. -/
def Mark.tellsAny (kinds : List MetricKind) (mark : Mark C) : Bool :=
  kinds.any mark.tells

theorem Mark.tellsAny_singleton (kind : MetricKind) :
    (Mark.tellsAny [kind] : Mark C → Bool) = Mark.tells kind :=
  funext fun _ => Bool.or_false _

/-- What may be recorded of the tasks that were checked out: each is completed or failed at most once, it
is attempted again at most as often as the policy has it, and its retries come to one end. -/
def taskAccounts (maxAttempts : Nat) : List (Account C) :=
  [⟨1, Mark.tells .taskCheckedOut, Mark.tellsAny [.taskCompleted, .taskFailed]⟩,
    ⟨maxAttempts - 1, Mark.tells .taskCheckedOut, Mark.tellsAny [.retryAttempt]⟩,
    ⟨1, Mark.tells .taskCheckedOut, Mark.tellsAny [.retrySuccess, .retryExhausted]⟩]

/-- A worker that stops has started. -/
def loopAccount : Account C :=
  ⟨1, Mark.tells .workerStarted, Mark.tells .workerStopped⟩

/-- Recordings of two kinds are those of one kind and those of the other. -/
theorem countMarks_tellsAny {a b : MetricKind} (ne : a ≠ b) (steps : List (Step C)) :
    countMarks (Mark.tellsAny [a, b]) steps = told a steps + told b steps := by
  unfold told countMarks
  induction marks steps with
  | nil => rfl
  | cons mark rest ih =>
    have either : mark.2.tells a = true → mark.2.tells b = false := by
      unfold Mark.tells
      cases mark.2.metric? with
      | none => exact nofun
      | some metric => simpa using fun same => same ▸ ne
    rw [List.countP_cons, List.countP_cons, List.countP_cons, ih]
    cases first : mark.2.tells a with
    | true => simp [Mark.tellsAny, first, either first]; omega
    | false => simp [Mark.tellsAny, first]; omega

/-! ## The parts of a round -/

/-- The part of a worker's work to which a mark belongs. -/
inductive Mark.Part where
  | loop
  | checkout
  | calls
  | retries
  | verdict
  | panic
  | disposal
deriving DecidableEq

/-- The part of the work of which a recording of that kind tells. -/
def MetricKind.part : MetricKind → Mark.Part
  | .workerStarted | .workerStopped => .loop
  | .taskCheckedOut | .checkoutError => .checkout
  | .retryAttempt => .retries
  | .retrySuccess | .retryExhausted => .verdict
  | .workerPanicked => .panic
  | .taskCompleted | .taskFailed => .disposal

namespace Mark

/-- The part of the work to which a mark belongs. -/
def part : Mark C → Part
  | .made (.checkout _) | .ended (.checkout _) => .checkout
  | .made (.complete ..) | .made (.fail ..) | .ended (.complete _) | .ended (.fail _) => .disposal
  | .made _ | .ended _ => .calls
  | .told metric => metric.kind.part

/-- Whether a mark is that of a checkout that returned a task. -/
def claims : Mark C → Bool
  | .made (.checkout (.ok _)) => true
  | _ => false

/-- Whether a mark is that of the panic of a call that was to dispose of a task. -/
def spoils : Mark C → Bool
  | .ended (.complete (.panic _)) | .ended (.fail (.panic _)) => true
  | _ => false

/-- Whether a mark shows that a task was disposed of, or that the call for it panicked. -/
def settles (mark : Mark C) : Bool :=
  mark.tellsAny [.taskCompleted, .taskFailed] || mark.spoils

variable (mark : Mark C)

/-- A mark that tells of some kind of recording belongs to the part of the work in which that kind is recorded. -/
theorem part_of_tells (kind : MetricKind) (h : mark.tells kind = true) : mark.part = kind.part := by
  cases mark with
  | told metric => simpa [tells, metric?, part] using congrArg MetricKind.part (of_decide_eq_true h)
  | made | ended => cases h

/-- The same goes for several kinds, if all of them are recorded in one part. -/
theorem part_of_tellsAny (kinds : List MetricKind) (of : Part) (same : ∀ kind ∈ kinds, kind.part = of)
    (h : mark.tellsAny kinds = true) : mark.part = of := by
  obtain ⟨kind, mem, tells⟩ := List.any_eq_true.mp h
  exact (mark.part_of_tells kind tells).trans (same kind mem)

/-- Checking out belongs to the checkout. -/
theorem part_of_claims (h : mark.claims = true) : mark.part = .checkout := by
  unfold claims at h
  split at h
  · rfl
  · cases h

/-- Completing or failing a task belongs to its disposal. -/
theorem part_of_settles (h : mark.settles = true) : mark.part = .disposal := by
  rcases (Bool.or_eq_true ..).mp h with told | spoilt
  · exact mark.part_of_tellsAny _ _ (by simp [MetricKind.part]) told
  · unfold spoils at spoilt
    split at spoilt
    · rfl
    · rfl
    · cases spoilt

end Mark

section

variable {sort : Mark C → Bool} {of : Mark.Part}

/-- Where no mark belongs to a part, none is counted that would belong to it. -/
theorem countP_eq_zero_of_part (belongs : ∀ mark : Mark C, sort mark = true → mark.part = of)
    {marks : List (Nat × Mark C)} (apart : ∀ mark ∈ marks, mark.2.part ≠ of) :
    marks.countP (fun mark => sort mark.2) = 0 :=
  List.countP_eq_zero.mpr fun mark mem counted => apart mark mem (belongs mark.2 counted)

variable (belongs : ∀ mark : Mark C, sort mark = true → mark.part = of)
include belongs

/-- The marks of hooks are marks of calls, and nothing else is found among them. -/
theorem countP_passMarks_eq_zero (apart : of ≠ .calls) (made : C.Hook → Call C)
    (ended : Outcome Unit → Ending C) (inner_made : ∀ hook, (Mark.made (made hook)).part = .calls)
    (inner_ended : ∀ outcome, (Mark.ended (ended outcome)).part = .calls) (time : Nat)
    (calls : List (HookCall C)) :
    (passMarks time made ended calls).countP (fun mark => sort mark.2) = 0 := by
  refine countP_eq_zero_of_part belongs fun mark mem same => ?_
  obtain ⟨call, _, one⟩ := List.mem_flatMap.mp mem
  simp only [List.mem_cons, List.not_mem_nil, or_false] at one
  rcases one with rfl | rfl
  · exact apart (same.symm.trans (inner_made _))
  · exact apart (same.symm.trans (inner_ended _))

/-- Among the marks of attempts there are those of calls and of retries, and nothing else. -/
theorem countP_attemptMarks_eq_zero (apart : of ≠ .calls) (apart' : of ≠ .retries) (task : C.Task) (n : Nat)
    (attempts : List (Stretch C C.Task)) :
    (attemptMarks task n attempts).countP (fun mark => sort mark.2) = 0 := by
  have calls (mark : Mark C) (same : mark.part = .calls) : sort mark = false :=
    Bool.eq_false_iff.mpr fun counted => apart ((belongs mark counted).symm.trans same)
  have retried : sort (.told (.retryAttempt n)) = false :=
    Bool.eq_false_iff.mpr fun counted => apart' (belongs _ counted).symm
  induction attempts generalizing n with
  | nil => rfl
  | cons a more ih =>
    have made := calls (.made (.process task)) rfl
    have ended := calls (.ended (.process a.outcome)) rfl
    have rest := ih (n + 1) (Bool.eq_false_iff.mpr fun counted => apart' (belongs _ counted).symm)
    by_cases later : 1 < n
    · simp [attemptMarks, later, retried, made, ended, rest]
    · simp [attemptMarks, later, made, ended, rest]

/-- Where a panic was caught there is the mark that tells of it, and nothing else. -/
theorem countP_panicMarks_eq_zero (apart : of ≠ .panic) (worker : String) (time : Nat)
    (outcome : Outcome C.Task) :
    (panicMarks worker time outcome).countP (fun mark => sort mark.2) = 0 := by
  refine countP_eq_zero_of_part belongs fun mark mem same => ?_
  cases outcome with
  | ok | error => cases mem
  | panic x =>
    obtain rfl := List.mem_singleton.mp mem
    exact apart same.symm

/-- Among the marks of a call that disposes of a task, nothing else is found. -/
theorem countP_disposalMarks_eq_zero (apart : of ≠ .disposal) (worker : String) (run : TaskRun C) :
    (run.disposalMarks worker).countP (fun mark => sort mark.2) = 0 := by
  refine countP_eq_zero_of_part belongs fun mark mem => ?_
  suffices disposal : mark.2.part = .disposal from disposal ▸ apart.symm
  unfold TaskRun.disposalMarks disposalMarks at mem
  revert mark
  split <;> cases run.disposal <;> simp [Outcome.panic?, Mark.part, Metric.kind, MetricKind.part]

omit belongs

/-- The retries come to one end at most. -/
theorem verdict_cases (policy : RetryPolicy) (count : Nat) (result : Outcome C.Task) :
    policy.verdict count result = [] ∨
      ∃ metric, policy.verdict count result = [metric] ∧ metric.kind.part = .verdict := by
  unfold RetryPolicy.verdict
  split
  · split
    · exact .inr ⟨_, rfl, rfl⟩
    · exact .inl rfl
  · split
    · exact .inr ⟨_, rfl, rfl⟩
    · exact .inl rfl
  · exact .inl rfl

/-- The collector is told of at most one verdict on the retries. -/
theorem countP_verdictMarks_le (sort : Mark C → Bool) (policy : RetryPolicy) (count time : Nat)
    (tried : Option (Outcome C.Task)) :
    (tried.elim [] (verdictMarks policy count time)).countP (fun mark => sort mark.2) ≤ 1 := by
  refine Nat.le_trans List.countP_le_length ?_
  cases tried with
  | none => exact Nat.zero_le _
  | some result =>
    rw [Option.elim_some, verdictMarks, List.length_map]
    rcases verdict_cases policy count result with none | ⟨_, one, _⟩
    · simp [none]
    · simp [one]

include belongs

/-- The verdict on the retries is found among no other marks. -/
theorem countP_verdictMarks_eq_zero (apart : of ≠ .verdict) (policy : RetryPolicy) (count time : Nat)
    (tried : Option (Outcome C.Task)) :
    (tried.elim [] (verdictMarks policy count time)).countP (fun mark => sort mark.2) = 0 := by
  refine countP_eq_zero_of_part belongs fun mark mem same => ?_
  cases tried with
  | none => cases mem
  | some result =>
    rw [Option.elim_some, verdictMarks] at mem
    rcases verdict_cases policy count result with none | ⟨metric, one, verdict⟩
    · rw [none] at mem
      cases mem
    · rw [one] at mem
      obtain rfl := List.mem_singleton.mp mem
      exact apart (same.symm.trans verdict)

end

/-! ## Rounds -/

/-- Every attempt after the first is told to the collector. -/
theorem countP_attemptMarks (task : C.Task) {n : Nat} (pos : 0 < n) (attempts : List (Stretch C C.Task)) :
    (attemptMarks task n attempts).countP (fun mark => mark.2.tellsAny [.retryAttempt]) =
      if 1 < n then attempts.length else attempts.length - 1 := by
  induction attempts generalizing n with
  | nil => simp [attemptMarks]
  | cons a more ih =>
    have retried : (Mark.told (.retryAttempt n) : Mark C).tellsAny [.retryAttempt] = true := rfl
    have made : (Mark.made (.process task)).tellsAny [.retryAttempt] = false := rfl
    have ended : (Mark.ended (.process a.outcome)).tellsAny [.retryAttempt] = false := rfl
    have rest := ih (n := n + 1) (by omega)
    rw [if_pos (by omega)] at rest
    by_cases later : 1 < n
    · simp [attemptMarks, later, retried, made, ended, rest]
    · simp [attemptMarks, later, made, ended, rest]

namespace TaskRun

variable {it : Iteration C} {run : TaskRun C} {policy : RetryPolicy} {worker : String}

/-- The marks of the work on a task, after those of its checkout. -/
def laterMarks (policy : RetryPolicy) (worker : String) (run : TaskRun C) : List (Nat × Mark C) :=
  run.processing.marks policy run.task run.claimed run.resumed ++
    panicMarks worker run.resumed run.processing.outcome ++ run.disposalMarks worker

/-- The marks of the work on a task, with those of the checkout apart from all later ones. -/
theorem marks_eq (policy : RetryPolicy) (worker : String) (run : TaskRun C) :
    run.marks policy worker =
      [(run.claimed, .ended (.checkout (.ok run.task))), (run.claimed, .made (.checkout (.ok run.task)))] ++
        (run.claimed, .told (.taskCheckedOut worker)) :: run.laterMarks policy worker := by
  simp [marks, laterMarks]

variable {sort : Mark C → Bool} {of : Mark.Part}

/-- Marks are counted part by part. -/
theorem countP_laterMarks (belongs : ∀ mark : Mark C, sort mark = true → mark.part = of)
    (apart : of ≠ .calls) :
    (run.laterMarks policy worker).countP (fun mark => sort mark.2) =
      (attemptMarks run.task 1 run.processing.attempts).countP (fun mark => sort mark.2) +
      (run.processing.tried.elim [] (verdictMarks policy run.processing.attempts.length run.resumed)).countP
        (fun mark => sort mark.2) +
      (panicMarks worker run.resumed run.processing.outcome).countP (fun mark => sort mark.2) +
      (run.disposalMarks worker).countP fun mark => sort mark.2 := by
  have pre := countP_passMarks_eq_zero belongs apart (.preHook · run.task) .preHook
    (fun _ => rfl) (fun _ => rfl) run.claimed run.processing.pre
  have post := countP_passMarks_eq_zero belongs apart
    (Processing.postCall run.task run.processing.tried) .postHook
    (fun _ => by unfold Processing.postCall; split <;> rfl) (fun _ => rfl) run.resumed run.processing.post
  simp only [laterMarks, Processing.marks, List.countP_append, pre, post]
  omega

/-- One call disposes of the task, and unless it panics the collector is told. -/
theorem countP_settles : (run.laterMarks policy worker).countP (fun mark => mark.2.settles) = 1 := by
  have belongs (mark : Mark C) := mark.part_of_settles
  have disposed : (run.disposalMarks worker).countP (fun mark => mark.2.settles) = 1 := by
    unfold disposalMarks WorkerPool.disposalMarks
    split <;> cases run.disposal <;> rfl
  rw [countP_laterMarks belongs nofun, countP_attemptMarks_eq_zero belongs nofun nofun,
    countP_verdictMarks_eq_zero belongs nofun, countP_panicMarks_eq_zero belongs nofun, disposed]

/-- A task is attempted again at most as often as the policy has it. -/
theorem countP_retries (le : run.processing.attempts.length ≤ policy.maxAttempts) :
    (run.laterMarks policy worker).countP (fun mark => mark.2.tellsAny [.retryAttempt]) ≤
      policy.maxAttempts - 1 := by
  have belongs (mark : Mark C) := mark.part_of_tellsAny [.retryAttempt] .retries (by simp [MetricKind.part])
  rw [countP_laterMarks belongs nofun, countP_attemptMarks _ Nat.one_pos,
    countP_verdictMarks_eq_zero belongs nofun, countP_panicMarks_eq_zero belongs nofun,
    countP_disposalMarks_eq_zero belongs nofun]
  simp only [Nat.lt_irrefl, if_false]
  omega

/-- The collector is told of one end of the retries at most. -/
theorem countP_verdict :
    (run.laterMarks policy worker).countP (fun mark => mark.2.tellsAny [.retrySuccess, .retryExhausted]) ≤ 1 := by
  have belongs (mark : Mark C) := mark.part_of_tellsAny [.retrySuccess, .retryExhausted] .verdict
    (by simp [MetricKind.part])
  rw [countP_laterMarks belongs nofun, countP_attemptMarks_eq_zero belongs nofun nofun,
    countP_panicMarks_eq_zero belongs nofun, countP_disposalMarks_eq_zero belongs nofun]
  have := countP_verdictMarks_le (Mark.tellsAny [.retrySuccess, .retryExhausted]) policy
    run.processing.attempts.length run.resumed run.processing.tried
  omega

end TaskRun

section

variable {N : Nat} {a : Account C} {it : Iteration C} {worker : String}

/-- What is spent on tasks belongs to the work on them. -/
theorem not_spends_of_part (mem : a ∈ taskAccounts N) (mark : Mark C)
    (part : mark.part = .loop ∨ mark.part = .checkout ∨ mark.part = .panic) : a.spends mark = false := by
  have belongs (kinds : List MetricKind) (of : Mark.Part) (same : ∀ kind ∈ kinds, kind.part = of)
      (apart : mark.part ≠ of) : mark.tellsAny kinds = false :=
    Bool.eq_false_iff.mpr fun told => apart (mark.part_of_tellsAny kinds of same told)
  simp only [taskAccounts, List.mem_cons, List.not_mem_nil, or_false] at mem
  rcases mem with rfl | rfl | rfl
  · exact belongs _ .disposal (by simp [MetricKind.part]) (by rcases part with h | h | h <;> simp [h])
  · exact belongs _ .retries (by simp [MetricKind.part]) (by rcases part with h | h | h <;> simp [h])
  · exact belongs _ .verdict (by simp [MetricKind.part]) (by rcases part with h | h | h <;> simp [h])

/-- The work on a task pays for what it records: at most one disposal, one verdict, and as many retries as the
policy has. -/
theorem TaskRun.Follows.covers {run : TaskRun C} (h : run.Follows it T)
    (mem : a ∈ taskAccounts it.retry.maxAttempts) : a.Covers (run.marks it.retry worker) := by
  rw [run.marks_eq]
  refine .append (Account.covers_of_unspent ?_) (Account.covers_cons ?_ ?_ ?_)
  · intro mark mem_checkout
    refine not_spends_of_part mem _ (.inr (.inl ?_))
    simp only [List.mem_cons, List.not_mem_nil, or_false] at mem_checkout
    rcases mem_checkout with rfl | rfl <;> rfl
  · simp only [taskAccounts, List.mem_cons, List.not_mem_nil, or_false] at mem
    rcases mem with rfl | rfl | rfl <;> rfl
  · exact not_spends_of_part mem _ (.inr (.inl rfl))
  · simp only [taskAccounts, List.mem_cons, List.not_mem_nil, or_false] at mem
    rcases mem with rfl | rfl | rfl
    · refine Nat.le_trans (List.countP_mono_left fun mark _ told => ?_) (Nat.le_of_eq run.countP_settles)
      exact (Bool.or_eq_true ..).mpr (.inl told)
    · exact run.countP_retries h.orderly.length_le
    · exact run.countP_verdict

/-- So does every iteration, for one without a task records nothing that would have to be paid for. -/
theorem Round.Follows.covers {round : Round C} (h : round.Follows it T)
    (mem : a ∈ taskAccounts it.retry.maxAttempts) : a.Covers (round.marks it.retry worker) := by
  cases round with
  | worked run => exact TaskRun.Follows.covers h mem
  | idle time error =>
    refine Account.covers_of_unspent fun mark shown => not_spends_of_part mem _ (.inr (.inl ?_))
    rw [Round.marks, List.mem_cons, List.mem_cons] at shown
    rcases shown with rfl | rfl | shown
    · rfl
    · rfl
    · split at shown
      · cases shown
      · obtain rfl := List.mem_singleton.mp shown
        rfl
  | panicked time x =>
    refine Account.covers_of_unspent fun mark shown => not_spends_of_part mem _ (.inr (.inl ?_))
    obtain rfl := List.mem_singleton.mp shown
    rfl

/-- Counting marks of the work on a task is counting them in its checkout and in what comes after it. -/
theorem TaskRun.countP_marks (sort : Mark C → Bool) (policy : RetryPolicy) (run : TaskRun C) :
    (run.marks policy worker).countP (fun mark => sort mark.2) =
      [.ended (.checkout (.ok run.task)), .made (.checkout (.ok run.task)),
        .told (.taskCheckedOut worker)].countP sort +
        (run.laterMarks policy worker).countP fun mark => sort mark.2 := by
  simp only [run.marks_eq, List.countP_append, List.countP_cons, List.countP_nil]
  omega

/-- What belongs to the checkout shows before the work on the task. -/
theorem TaskRun.countP_laterMarks_eq_zero {sort : Mark C → Bool} {of : Mark.Part}
    (belongs : ∀ mark : Mark C, sort mark = true → mark.part = of) (before : of = .loop ∨ of = .checkout)
    (policy : RetryPolicy) (run : TaskRun C) :
    (run.laterMarks policy worker).countP (fun mark => sort mark.2) = 0 := by
  have apart (other : Mark.Part) (ne : other ≠ .loop ∧ other ≠ .checkout) : of ≠ other := by
    rintro rfl
    exact before.elim ne.1 ne.2
  rw [countP_laterMarks belongs (apart _ ⟨nofun, nofun⟩),
    countP_attemptMarks_eq_zero belongs (apart _ ⟨nofun, nofun⟩) (apart _ ⟨nofun, nofun⟩),
    countP_verdictMarks_eq_zero belongs (apart _ ⟨nofun, nofun⟩),
    countP_panicMarks_eq_zero belongs (apart _ ⟨nofun, nofun⟩),
    countP_disposalMarks_eq_zero belongs (apart _ ⟨nofun, nofun⟩)]

namespace Round

variable (policy : RetryPolicy) (worker : String) (round : Round C)

/-- A round that checks a task out settles it. -/
theorem countP_settles : (round.marks policy worker).countP (fun mark => mark.2.settles) =
    (round.marks policy worker).countP fun mark => mark.2.claims := by
  cases round with
  | panicked time x => rfl
  | idle time error => cases signal : Iteration.isSignal error <;> simp only [marks, signal] <;> rfl
  | worked run =>
    have belongs (mark : Mark C) := mark.part_of_claims
    rw [marks, run.countP_marks, run.countP_marks, run.countP_settles,
      run.countP_laterMarks_eq_zero belongs (.inr rfl)]
    rfl

/-- The collector is told of each checkout that returned a task. -/
theorem countP_claims : (round.marks policy worker).countP (fun mark => mark.2.tells .taskCheckedOut) =
    (round.marks policy worker).countP fun mark => mark.2.claims := by
  cases round with
  | panicked time x => rfl
  | idle time error => cases signal : Iteration.isSignal error <;> simp only [marks, signal] <;> rfl
  | worked run =>
    have belongs (mark : Mark C) := mark.part_of_claims
    have belongs' (mark : Mark C) := mark.part_of_tells .taskCheckedOut
    rw [marks, run.countP_marks, run.countP_marks, run.countP_laterMarks_eq_zero belongs' (.inr rfl),
      run.countP_laterMarks_eq_zero belongs (.inr rfl)]
    rfl

/-- No round tells of the loop around it. -/
theorem countP_eq_zero_of_loop {sort : Mark C → Bool}
    (belongs : ∀ mark : Mark C, sort mark = true → mark.part = .loop) :
    (round.marks policy worker).countP (fun mark => sort mark.2) = 0 := by
  have apart (mark : Mark C) (other : mark.part ≠ .loop) : sort mark = false :=
    Bool.eq_false_iff.mpr fun counted => other (belongs mark counted)
  have ended (outcome : Outcome C.Task) := apart (.ended (.checkout outcome)) nofun
  have made (result : PoolResult C.Task) := apart (.made (.checkout result)) nofun
  have claimed := apart (.told (.taskCheckedOut worker)) nofun
  have missed := apart (.told (.checkoutError worker)) nofun
  cases round with
  | panicked time x => simp [marks, ended]
  | idle time error => cases signal : Iteration.isSignal error <;> simp [marks, signal, ended, made, missed]
  | worked run =>
    rw [marks, run.countP_marks, run.countP_laterMarks_eq_zero belongs (.inl rfl)]
    simp [ended, made, claimed]

end Round

end

/-! ## Loops -/

section

variable {a : Account C} {it : Iteration C} {worker : String} {marks : List (Nat × Mark C)}

/-- Iterations one after another are covered because each of them is. -/
theorem IsRounds.covers (h : IsRounds it T worker marks) (mem : a ∈ taskAccounts it.retry.maxAttempts) :
    a.Covers marks := by
  obtain ⟨rounds, follows, rfl⟩ := h
  exact Account.covers_flatMap fun round mem_rounds => (follows round mem_rounds).covers mem

/-- Two sorts of marks that are counted alike in each stretch are counted alike in all of them. -/
theorem countP_flatMap_congr {ι : Type} {f : ι → List (Nat × Mark C)} {sort other : Nat × Mark C → Bool}
    {items : List ι} (each : ∀ item ∈ items, (f item).countP sort = (f item).countP other) :
    (items.flatMap f).countP sort = (items.flatMap f).countP other := by
  induction items with
  | nil => rfl
  | cons item rest ih =>
    rw [List.flatMap_cons, List.countP_append, List.countP_append, each item (by simp),
      ih fun other mem => each other (by simp [mem])]

/-- What holds of every round holds of rounds, as far as numbers are concerned. -/
theorem IsRounds.countP_congr (h : IsRounds it T worker marks) {sort other : Mark C → Bool}
    (each : ∀ round : Round C, (round.marks it.retry worker).countP (fun mark => sort mark.2) =
      (round.marks it.retry worker).countP fun mark => other mark.2) :
    marks.countP (fun mark => sort mark.2) = marks.countP fun mark => other mark.2 := by
  obtain ⟨rounds, _, rfl⟩ := h
  exact countP_flatMap_congr fun round _ => each round

end

namespace Worker

variable {w : Worker C} {it : Iteration C} {layers : List (Layer C)} {a : Account C}
  {steps : List (Step C)} {e : Except Panic (Option WorkerState)}

/-- Whatever the layers, a loop covers the accounts of its tasks. -/
theorem Loops.covers (work : w.work = Layer.compose layers it.work) (h : w.Loops T t steps e t')
    (mem : a ∈ taskAccounts it.retry.maxAttempts) : a.Covers (marks steps) := by
  obtain ⟨next, shifts, _, isOf, marks_eq⟩ := h.marks_eq
  have began : a.Covers [(t, .told (.workerStarted w.id))] :=
    Account.covers_of_unspent (List.forall_mem_singleton.mpr (not_spends_of_part mem _ (.inl rfl)))
  have called : a.Covers (w.callMarks shifts) := by
    refine Account.covers_flatMap fun shift mem_shifts => .append ?_ (Account.covers_of_unspent ?_)
    · have run : shift.call.IsOf T (Layer.compose layers it.work w.id) := work ▸ isOf shift mem_shifts
      exact (compose_rounds run).covers mem
    · intro mark shown
      refine not_spends_of_part mem _ (.inr (.inr ?_))
      cases outcome : shift.call.outcome with
      | ok | error => rw [outcome] at shown; cases shown
      | panic x =>
        rw [outcome] at shown
        obtain rfl := List.mem_singleton.mp shown
        rfl
  have ended : a.Covers (if next = none then [(t', .told (.workerStopped w.id))] else []) := by
    refine Account.covers_of_unspent fun mark shown => ?_
    split at shown
    · obtain rfl := List.mem_singleton.mp shown
      exact not_spends_of_part mem _ (.inl rfl)
    · cases shown
  rw [marks_eq]
  exact (began.append called).append ended

/-- What holds of every round holds of the calls of a loop, as far as numbers are concerned. -/
theorem countP_callMarks_congr (work : w.work = Layer.compose layers it.work) {shifts : List (Shift C)}
    (isOf : ∀ shift ∈ shifts, shift.call.IsOf T (w.work w.id)) (sort other : Mark C → Bool)
    (each : ∀ round : Round C, (round.marks it.retry w.id).countP (fun mark => sort mark.2) =
      (round.marks it.retry w.id).countP fun mark => other mark.2)
    (panicked : sort (.told (.workerPanicked w.id)) = other (.told (.workerPanicked w.id))) :
    (w.callMarks shifts).countP (fun mark => sort mark.2) =
      (w.callMarks shifts).countP fun mark => other mark.2 := by
  refine countP_flatMap_congr fun shift mem => ?_
  have run : shift.call.IsOf T (Layer.compose layers it.work w.id) := work ▸ isOf shift mem
  rw [List.countP_append, List.countP_append, (compose_rounds run).countP_congr each]
  cases shift.call.outcome with
  | ok | error => rfl
  | panic x => simp [panicMarks, List.countP_cons, panicked]

/-- What the loop of a worker tells of itself is found in none of the calls that it makes. -/
theorem countP_callMarks_eq_zero (work : w.work = Layer.compose layers it.work) {shifts : List (Shift C)}
    (isOf : ∀ shift ∈ shifts, shift.call.IsOf T (w.work w.id)) {sort : Mark C → Bool}
    (belongs : ∀ mark : Mark C, sort mark = true → mark.part = .loop) :
    (w.callMarks shifts).countP (fun mark => sort mark.2) = 0 := by
  have none_counted (round : Round C) : (round.marks it.retry w.id).countP (fun mark => sort mark.2) =
      (round.marks it.retry w.id).countP fun _ => false := by
    rw [round.countP_eq_zero_of_loop it.retry w.id belongs]
    simp
  have panicked : sort (.told (.workerPanicked w.id)) = false :=
    Bool.eq_false_iff.mpr fun counted => by cases belongs _ counted
  exact (countP_callMarks_congr work isOf sort (fun _ => false) none_counted panicked).trans (by simp)

/-- A loop says once that it begins, and once that it ends if it does. -/
theorem Loops.told_eq (work : w.work = Layer.compose layers it.work) {next : Option WorkerState}
    (h : w.Loops T t steps (.ok next) t') :
    told .workerStarted steps = 1 ∧ told .workerStopped steps = if next = none then 1 else 0 := by
  obtain ⟨_, shifts, same, isOf, marks_eq⟩ := h.marks_eq
  cases same
  have started := countP_callMarks_eq_zero work isOf fun mark =>
    mark.part_of_tells .workerStarted
  have stopped := countP_callMarks_eq_zero work isOf fun mark =>
    mark.part_of_tells .workerStopped
  simp only [told, countMarks, marks_eq, List.countP_append, List.countP_cons, started, stopped]
  cases next with
  | none => exact ⟨rfl, rfl⟩
  | some state => exact ⟨rfl, rfl⟩

/-- A loop says that it has stopped at most once for each time that it said it has started, and not before that. -/
theorem Loops.covers_loopAccount (work : w.work = Layer.compose layers it.work)
    {next : Option WorkerState} (h : w.Loops T t steps (.ok next) t') : loopAccount.Covers (marks steps) := by
  have stopped := (h.told_eq work).2
  obtain ⟨_, shifts, same, isOf, marks_eq⟩ := h.marks_eq
  cases same
  rw [told, countMarks, marks_eq, List.cons_append, List.countP_cons_of_neg (by exact Bool.false_ne_true)]
    at stopped
  rw [marks_eq, List.cons_append]
  refine Account.covers_cons rfl rfl (Nat.le_trans (Nat.le_of_eq stopped) ?_)
  split <;> simp [loopAccount]

/-- In a loop every task that was checked out is settled. -/
theorem Loops.settles (work : w.work = Layer.compose layers it.work) (h : w.Loops T t steps e t') :
    countMarks Mark.settles steps = countMarks Mark.claims steps ∧
      told .taskCheckedOut steps = countMarks Mark.claims steps := by
  obtain ⟨next, shifts, rfl, isOf, marks_eq⟩ := h.marks_eq
  have settled := countP_callMarks_congr work isOf _ _ (fun round => round.countP_settles it.retry w.id) rfl
  have claimed := countP_callMarks_congr work isOf _ _ (fun round => round.countP_claims it.retry w.id) rfl
  simp only [told, countMarks, marks_eq, List.countP_append, List.countP_cons, settled, claimed]
  cases next with
  | none => exact ⟨rfl, rfl⟩
  | some state => exact ⟨rfl, rfl⟩

end Worker

/-! ## The workers of a pool -/

namespace Pool

variable {plan : PoolPlan C} {p : Pool C} {events : List (Nat × Step C)} {n : Nat} {seat : Seat C}
  {a : Account C}

/-- At every moment of a run each worker covers its accounts. -/
theorem Underway.covers (h : Underway plan p events t) (at_n : p.crew[n]? = some seat)
    (mem : a ∈ loopAccount :: taskAccounts plan.iteration.retry.maxAttempts) :
    a.Covers (marks (history n events)) := by
  have : Nonempty C.State := ⟨p.shared.state⟩
  obtain ⟨ahead, next, t', loops, _⟩ := (h.at_history n seat at_n).exists_loops
  have whole : a.Covers (marks (history n events ++ ahead)) := by
    rcases List.mem_cons.mp mem with rfl | mem
    · exact loops.covers_loopAccount (h.work_eq at_n)
    · exact loops.covers (h.work_eq at_n) mem
  rw [marks_append] at whole
  exact whole.of_prefix (List.prefix_append ..)

/-- So much for one loop; along a run of the pool it holds of the history of each worker. -/
theorem Underway.countMarks_le (h : Underway plan p events t) (at_n : p.crew[n]? = some seat)
    (mem : a ∈ loopAccount :: taskAccounts plan.iteration.retry.maxAttempts) :
    countMarks a.spends (history n events) ≤ a.limit * countMarks a.earns (history n events) :=
  h.covers at_n mem _ (List.prefix_refl _)

/-- A worker starts once at most. -/
theorem Underway.started_le (h : Underway plan p events t) (at_n : p.crew[n]? = some seat) :
    told .workerStarted (history n events) ≤ 1 := by
  have : Nonempty C.State := ⟨p.shared.state⟩
  obtain ⟨ahead, next, t', loops, _⟩ := (h.at_history n seat at_n).exists_loops
  have once := (loops.told_eq (h.work_eq at_n)).1
  rw [told, countMarks_append] at once
  unfold told
  omega

/-- A worker that has left has said so once, and it has settled every task that it checked out. -/
theorem Underway.left (h : Underway plan p events t) (at_n : p.crew[n]? = some seat)
    (exited : seat.thread = .exited) :
    told .workerStarted (history n events) = 1 ∧ told .workerStopped (history n events) = 1 ∧
      countMarks Mark.settles (history n events) = countMarks Mark.claims (history n events) ∧
      told .taskCheckedOut (history n events) = countMarks Mark.claims (history n events) := by
  have own := h.at_history n seat at_n
  rw [exited] at own
  obtain ⟨t', _, loops⟩ := own.loops
  obtain ⟨started, stopped⟩ := loops.told_eq (h.work_eq at_n)
  obtain ⟨settled, claimed⟩ := loops.settles (h.work_eq at_n)
  exact ⟨started, stopped, settled, claimed⟩

end Pool

end WorkerPool
