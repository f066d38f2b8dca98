import WorkerPool.Proofs.Draining
import WorkerPool.Proofs.Lifecycle

/-!
# What a run returns

A run is over when its last worker has left, and what it returns is settled then: it is cancelled if the
parent token is, by whatever time that came about. So the order in which things happened matters. The token
of a pool is cancelled by one occurrence, the first that does so, and from then on the workers finish what
they are at until the run is concluded. If it was the parent that was cancelled first, the run returns that it
was cancelled. If it was something else, then it depends on whether the parent was cancelled while the workers
were finishing. And if nothing cancelled the token before the last worker left, the run is fine
(`chronicle_returns`).
-/

namespace WorkerPool

variable {C : Client}

/-- Whether a deed cancels the parent token. -/
def Deed.cancelsParent : Deed C → Bool
  | .asked (.client (.cancel .parent)) _ => true
  | _ => false

/-- Whether the parent token is cancelled here, by the owner or in the work of a worker. -/
def Occurrence.cancelsParent : Occurrence C → Bool
  | cancelParent => true
  | work _ steps => steps.any (·.deed.cancelsParent)
  | _ => false

/-- Code cancels the parent only by a deed that does. -/
theorem Occurrence.cancelsParent_work (n : Nat) (step : Step C) :
    (work n [step]).cancelsParent = step.deed.cancelsParent :=
  Bool.or_false _

namespace Shared

variable {s : Shared C}

/-- A token that somebody cancels is cancelled, and so is the pool's own with the parent. -/
theorem cancelled_cancel (s : Shared C) (token : Token) : (s.cancel token).cancelled = true := by
  cases token <;> simp [cancel, cancelled]

theorem parentCancelled_stop (s : Shared C) (worker : Option String) :
    (s.stop worker).parentCancelled = s.parentCancelled := by
  unfold stop
  split <;> rfl

/-- A request leaves the parent cancelled if it was before or if that is what was asked for. -/
theorem parentCancelled_answer (s : Shared C) (worker : Option String) (request : Request C)
    (answer : request.Answer) :
    (s.answer worker request).2.parentCancelled =
      (s.parentCancelled || (Deed.asked request answer).cancelsParent) := by
  cases request with
  | client request =>
    cases request with
    | stop => exact (parentCancelled_stop s worker).trans (Bool.or_false _).symm
    | cancel token =>
      cases token with
      | parent => exact (Bool.or_true _).symm
      | own => exact (Bool.or_false _).symm
    | update | note => exact (Bool.or_false _).symm
  | _ => exact (Bool.or_false _).symm

/-- Who cancels the parent token cancels the token of the pool with it. -/
theorem cancelled_answer (s : Shared C) (worker : Option String) {request : Request C} {answer : request.Answer}
    (cancels : (Deed.asked request answer).cancelsParent = true) :
    (s.answer worker request).2.cancelled = true := by
  cases request with
  | client request =>
    cases request with
    | cancel token =>
      cases token with
      | parent => exact s.cancelled_cancel .parent
      | own => cases cancels
    | _ => cases cancels
  | _ => cases cancels

end Shared

namespace Pool

variable {p q r : Pool C} {story more : List (Occurrence C)} {occurrence : Occurrence C}

/-! ## Stories taken apart -/

/-- A property that does not hold at first and holds at last comes to hold somewhere in between, for the first
time. -/
theorem Chronicle.exists_turn {P : Pool C → Prop} (chronicle : p.Chronicle story q) (not : ¬ P p) (holds : P q) :
    ∃ before occurrence after q₁ q₂, story = before ++ occurrence :: after ∧ p.Chronicle before q₁ ∧ ¬ P q₁ ∧
      q₁.Occurs occurrence q₂ ∧ P q₂ ∧ q₂.Chronicle after q := by
  induction chronicle with
  | nil => exact absurd holds not
  | @snoc story last q r before occurs ih =>
    by_cases earlier : P q
    · obtain ⟨first, occurrence, after, q₁, q₂, rfl, reaches, not_yet, turns, now, rest⟩ := ih earlier
      exact ⟨first, occurrence, after ++ [last], q₁, q₂, by simp, reaches, not_yet, turns, now, .snoc rest occurs⟩
    · exact ⟨story, last, [], q, r, rfl, before, earlier, occurs, holds, .nil⟩

/-! ## The parent token -/

/-- After anything that happens in a pool, the parent is cancelled if it was before or if that is what happened. -/
theorem Occurs.parentCancelled_eq (occurs : p.Occurs occurrence q) :
    q.shared.parentCancelled = (p.shared.parentCancelled || occurrence.cancelsParent) := by
  have still (same : q.shared.parentCancelled = p.shared.parentCancelled)
      (silent : occurrence.cancelsParent = false) :
      q.shared.parentCancelled = (p.shared.parentCancelled || occurrence.cancelsParent) := by
    rw [silent, Bool.or_false, same]
  cases occurs with
  | start started =>
    obtain rfl := start_eq started
    exact still (by rw [opened_eq]; rfl) rfl
  | stop => exact still (p.shared.parentCancelled_stop none) rfl
  | cancelParent => exact (Bool.or_true _).symm
  | report => exact still (by rw [fireReports_eq]; rfl) rfl
  | conclude finished =>
    rw [Pool.conclude, if_pos finished] at still ⊢
    exact still (by rw [closed_eq]; rfl) rfl
  | receiveError =>
    refine still ?_ rfl
    unfold Pool.receiveError
    split <;> rfl
  | @work n seat _ _ _ at_n acts =>
    obtain ⟨w, thread⟩ := seat
    cases acts with
    | ask request next =>
      rw [Occurrence.cancelsParent_work]
      exact p.shared.parentCancelled_answer (some w.id) request _
    | skip | notice | elapse | wake => exact still rfl rfl
    | sleep | proceed | leave | crash => exact still rfl rfl
  | refuse | addHooks | update | takeErrors | dropErrors | readErrors | tick => exact still rfl rfl

/-- The parent token is cancelled if somebody has cancelled it. -/
theorem Chronicle.parentCancelled_eq (chronicle : p.Chronicle story q) :
    q.shared.parentCancelled = (p.shared.parentCancelled || story.any Occurrence.cancelsParent) := by
  induction chronicle with
  | nil => exact (Bool.or_false _).symm
  | snoc _ occurs ih => rw [occurs.parentCancelled_eq, ih, List.any_append, List.any_cons, List.any_nil,
      Bool.or_false, Bool.or_assoc]

/-- Where the parent token is cancelled, so is the token of the pool. -/
theorem Occurs.cancelled (occurs : p.Occurs occurrence q) (cancels : occurrence.cancelsParent = true) :
    q.shared.cancelled = true := by
  cases occurs with
  | cancelParent => exact p.shared.cancelled_cancel .parent
  | @work n seat _ _ _ at_n acts =>
    obtain ⟨w, thread⟩ := seat
    cases acts with
    | ask request next =>
      rw [Occurrence.cancelsParent_work] at cancels
      exact p.shared.cancelled_answer (some w.id) cancels
    | skip | notice | elapse | wake | sleep | proceed | leave | crash => cases cancels
  | _ => cases cancels

/-- As long as the token of a pool is not cancelled, nobody has cancelled the parent. -/
theorem Chronicle.silent (chronicle : p.Chronicle story q) (uncancelled : q.shared.cancelled = false) :
    story.any Occurrence.cancelsParent = false := by
  induction chronicle with
  | nil => rfl
  | @snoc story last q r _ occurs ih =>
    have before : q.shared.cancelled = false := by
      refine Bool.eq_false_iff.mpr fun cancelled => ?_
      rw [occurs.runs.evolves.cancelled cancelled] at uncancelled
      cases uncancelled
    have now : last.cancelsParent = false := by
      refine Bool.eq_false_iff.mpr fun cancels => ?_
      rw [occurs.cancelled cancels] at uncancelled
      cases uncancelled
    rw [List.any_append, ih before, List.any_cons, List.any_nil, now]
    rfl

/-! ## The result -/

/-- What a run returned stays what it is. -/
theorem chronicle_returned (b : PoolBuilder C) (state : C.State) (before : (build b state).Chronicle story p)
    {result : Nat × PoolResult Unit} (returned : p.returned = some result) (chronicle : p.Chronicle more q) :
    q.returned = some result := by
  induction chronicle with
  | nil => exact returned
  | snoc earlier occurs ih =>
    rcases occurs.returned_eq with ⟨_, same⟩ | ⟨rfl, _⟩
    · exact same.trans ih
    · rcases runs_follows b state (before.trans earlier).runs with unstarted | ⟨t, underway⟩
      · rw [unstarted.returned_eq] at ih
        cases ih
      · rw [underway.going occurs (.inl rfl)] at ih
        cases ih

/-- Whether it was the parent's cancellation that cancelled the token, if these are the things that happened from
then on. -/
def endedByParent (finishing : List (Occurrence C)) : Bool :=
  finishing.head?.any Occurrence.cancelsParent

/-- How the run of a new pool came to its end: what happened until its token was cancelled, and what happened from
then on until it was concluded. Where the last worker left although nothing had cancelled the token, the conclusion
does, and nothing comes before it. -/
structure Ended (b : PoolBuilder C) (state : C.State) (before finishing : List (Occurrence C))
    (result : PoolResult Unit) : Prop where
  /-- The token was not cancelled before. -/
  uncancelled : ∃ q, (build b state).Chronicle before q ∧ q.shared.cancelled = false
  /-- What came next cancelled it. -/
  cancelled : ∃ cause rest q, finishing ++ [.conclude] = cause :: rest ∧
    (build b state).Chronicle (before ++ [cause]) q ∧ q.shared.cancelled = true
  /-- The run was not concluded earlier. -/
  pending : .conclude ∉ before ++ finishing
  /-- If that was the cancellation of the parent, the run returns that it was cancelled. -/
  of_parent : endedByParent finishing = true → result = .error .cancelled
  /-- If it was something else, the run is fine, unless the parent was cancelled before the last worker had left. -/
  of_other : endedByParent finishing = false →
    result = if finishing.tail.any Occurrence.cancelsParent then .error .cancelled else .ok ()

/-- A run that returned was concluded once, with what the parent token was then. -/
theorem Chronicle.exists_conclusion (b : PoolBuilder C) (state : C.State)
    (chronicle : (build b state).Chronicle story p) {t : Nat} {result : PoolResult Unit}
    (returned : p.returned = some (t, result)) :
    ∃ first after q, story = first ++ .conclude :: after ∧ .conclude ∉ first ∧
      (build b state).Chronicle first q ∧ q.Occurs .conclude q.conclude ∧
      result = if q.shared.parentCancelled then .error .cancelled else .ok () := by
  obtain ⟨first, last, after, q, r, rfl, reaches, not_yet, turns, now, rest⟩ :=
    chronicle.exists_turn (P := fun p => p.returned.isSome = true) Bool.false_ne_true (by rw [returned]; rfl)
  rcases turns.returned_eq with ⟨_, same⟩ | ⟨rfl, _⟩
  · rw [same] at now
    exact absurd now not_yet
  have unconcluded : .conclude ∉ first := by rwa [chronicle_concluded reaches rfl]
  cases turns with
  | conclude finished =>
    refine ⟨first, after, q, rfl, unconcluded, reaches, .conclude finished, ?_⟩
    have still := chronicle_returned b state (reaches.snoc (.conclude finished))
      (by rw [Pool.conclude, if_pos finished]) rest
    rw [returned] at still
    cases still
    rfl

/-- A run whose token is cancelled comes to its end, and what it returns hangs on what cancelled the token first, and
where that was not the parent, on whether the parent was cancelled while the workers were finishing. -/
theorem chronicle_returns (b : PoolBuilder C) (state : C.State) (chronicle : (build b state).Chronicle story p) :
    (p.startedAt.isSome = true → p.shared.cancelled = true →
      ∃ more q, p.Chronicle more q ∧ q.returned.isSome = true) ∧
    ∀ t result, p.returned = some (t, result) → ∃ before finishing after,
      story = before ++ finishing ++ .conclude :: after ∧ Ended b state before finishing result := by
  constructor
  · intro started cancelled
    rcases runs_follows b state chronicle.runs with unstarted | ⟨t, underway⟩
    · rw [unstarted.startedAt_eq] at started
      cases started
    · obtain ⟨_, q, runs, returned⟩ := underway.runs_return cancelled
      obtain ⟨more, _, continued⟩ := runs.exists_chronicle
      exact ⟨more, q, continued, returned⟩
  · intro t result returned
    obtain ⟨first, after, q, rfl, unconcluded, reaches, concludes, result_eq⟩ :=
      Chronicle.exists_conclusion b state chronicle returned
    have cancelled : q.conclude.shared.cancelled = true := by
      cases concludes with
      | conclude finished =>
        rw [Pool.conclude, if_pos finished, closed_eq]
        exact q.shared.cancelled_cancel .own
    obtain ⟨before, cause, rest, q₁, q₂, split, earlier, not_yet, turns, now, _⟩ :=
      (reaches.snoc concludes).exists_turn (P := fun p => p.shared.cancelled = true) Bool.false_ne_true cancelled
    have uncancelled : q₁.shared.cancelled = false := Bool.eq_false_iff.mpr not_yet
    have parent_eq := reaches.parentCancelled_eq
    rcases List.eq_nil_or_concat rest with rfl | ⟨finishing, last, rfl⟩
    · -- Nothing cancelled the token before the run was concluded.
      obtain ⟨rfl, one⟩ := List.append_inj' split rfl
      cases one
      rw [earlier.silent uncancelled] at parent_eq
      refine ⟨first, [], after, by simp, ⟨q₁, earlier, uncancelled⟩, ⟨_, [], q₂, rfl, earlier.snoc turns, now⟩,
        by rwa [List.append_nil], fun parent => absurd parent Bool.false_ne_true, fun _ => ?_⟩
      rw [result_eq, parent_eq]
      rfl
    · have same : first ++ [.conclude] = (before ++ cause :: finishing) ++ [last] := by simpa using split
      obtain ⟨rfl, one⟩ := List.append_inj' same rfl
      cases one
      rw [List.any_append, List.any_cons, earlier.silent uncancelled] at parent_eq
      refine ⟨before, cause :: finishing, after, by simp, ⟨q₁, earlier, uncancelled⟩,
        ⟨cause, _, q₂, rfl, earlier.snoc turns, now⟩, unconcluded, fun parent => ?_, fun other => ?_⟩
      · have cancels : cause.cancelsParent = true := parent
        rw [result_eq, parent_eq, cancels]
        rfl
      · have spares : cause.cancelsParent = false := other
        rw [result_eq, parent_eq, spares]
        rfl

/-- Takes three milliseconds to process a task, and completes it without more ado. -/
def leisurely : Processor .bare :=
  { hasty with
    process := fun _ => .wait 3 false fun _ => .done (.ok ())
    complete := fun _ _ => .done (.ok ()) }

/-- A pool of one worker that looks for work every ten milliseconds and works for three. -/
def unhurried : PoolBuilder .bare :=
  { lonely with processor := leisurely }

/-- A run that is stopped while its worker is at a task, and whose parent is cancelled while the worker finishes it:
it returns that it was cancelled. -/
theorem chronicle_returns_of_stopped :
    ∃ story p more q before finishing after, (build unhurried ()).Chronicle story p ∧ p.shared.cancelled = false ∧
      p.stop.shared.cancelled = true ∧
      (build unhurried ()).Chronicle (story ++ [.stop] ++ [.cancelParent] ++ more) q ∧
      q.returned = some (13, .error .cancelled) ∧
      story ++ [.stop] ++ [.cancelParent] ++ more = before ++ finishing ++ .conclude :: after ∧
      Ended unhurried () before finishing (.error .cancelled) := by
  have quiet : (build unhurried ()).Quiet := ⟨List.forall_mem_nil _, rfl⟩
  obtain ⟨⟨_, runs⟩, _, paced⟩ := leads_perform quiet (List.forall_mem_nil _) [.start, .advance 11]
  obtain ⟨story, _, chronicle⟩ := runs.exists_chronicle
  let stopped := ((build unhurried ()).perform [.start, .advance 11]).stop.cancelParent
  have paced' : stopped.Paced := paced
  obtain ⟨_, settles⟩ := runs_settle stopped
  obtain ⟨⟨_, joins⟩, _⟩ := leads_join (quiet_settle paced') (paced_settle paced') 10
  obtain ⟨more, _, finishes⟩ := (settles.trans joins).exists_chronicle
  have whole := ((chronicle.snoc .stop).snoc .cancelParent).trans finishes
  have returned : (stopped.settle.join 10).returned = some (13, .error .cancelled) := by decide +kernel
  obtain ⟨before, finishing, after, split, ended⟩ := (chronicle_returns unhurried () whole).2 13 _ returned
  exact ⟨story, _, more, _, before, finishing, after, chronicle, by decide +kernel, by decide +kernel, whole,
    returned, split, ended⟩

end Pool

end WorkerPool
