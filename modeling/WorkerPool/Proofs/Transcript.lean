import WorkerPool.Shared

/-!
# What running code does

Code runs in surroundings that it does not know: other workers change what they share, and the token
may be cancelled at any time. `Program.Runs` says what code may do in any surroundings at all. A
transcript lists what was done, each deed with the millisecond of the clock; requests are answered by
whatever the surroundings have to say, the clock excepted, and a wait ends as `WaitEnds` has it. The
only thing fixed about the surroundings is the millisecond `T` in which the token is cancelled, `none`
if it never is.

Every law here is one of composition. A run of `p >>= f` is a run of `p` and then one of `f`
(`runs_bind`), a run that was cut short is the beginning of a whole one (`Reaches.exists_runs`), and
the boundary that catches panics changes the ending of a run and nothing else (`runs_guarded`). So what
a piece of code does is read off what its parts do.
-/

namespace WorkerPool

/-- One thing that running code did: it asked for something and was answered, or waited. -/
inductive Deed (C : Client) where
  | asked (request : Request C) (answer : request.Answer)
  | waited (heedsCancel : Bool) (wake : Wake)

/-- A deed, and the millisecond in which it was done; a wait is done when it is over. -/
structure Step (C : Client) where
  time : Nat
  deed : Deed C

/-- When and how a wait of `ms` milliseconds that begins in millisecond `t` may end, if the token is
cancelled in millisecond `T`. Where the wait is over in the very millisecond of the cancellation, it may
end either way. -/
inductive WaitEnds (T : Option Nat) (t ms : Nat) : (heedsCancel : Bool) → Wake → Nat → Prop
  | elapsed {heeds : Bool} (h : heeds = true → ∀ moment ∈ T, t + waited ms ≤ moment) :
      WaitEnds T t ms heeds .elapsed (t + waited ms)
  | cancelled {moment : Nat} (h : moment ∈ T) (le : moment ≤ t + waited ms) :
      WaitEnds T t ms true .cancelled (max t moment)

variable {C : Client} {α β : Type} {T : Option Nat} {t t' : Nat}

/-- What surroundings whose clock shows `t` may answer. -/
def Request.Admits (t : Nat) : (request : Request C) → request.Answer → Prop
  | .now, millis => millis = t
  | _, _ => True

/-- How code ended that has a result: with an outcome in the place of a result or a panic. -/
def Outcome.ending : Outcome α → Except Panic (PoolResult α)
  | .ok value => .ok (.ok value)
  | .error e => .ok (.error e)
  | .panic p => .error p

/-- What a panic is said to be, if the outcome is one. -/
def Outcome.panic? : Outcome α → Option Panic
  | .panic p => some p
  | _ => none

/-- The result that an outcome counts as where panics are caught. -/
def Outcome.caught : Outcome α → PoolResult α
  | .ok value => .ok value
  | .error e => .error e
  | .panic x => .error (.ofPanic x)

@[simp] theorem Outcome.ending_inj {a b : Outcome α} : a.ending = b.ending ↔ a = b := by
  cases a <;> cases b <;> simp [ending]

/-- Code that has a result ends with an outcome. -/
theorem exists_outcome (e : Except Panic (PoolResult α)) : ∃ outcome : Outcome α, e = outcome.ending :=
  match e with
  | .ok (.ok value) => ⟨.ok value, rfl⟩
  | .ok (.error error) => ⟨.error error, rfl⟩
  | .error x => ⟨.panic x, rfl⟩

namespace Program

/-- What code may do from millisecond `t` on until it ends in millisecond `t'`. -/
inductive Runs (T : Option Nat) :
    Code C α → Nat → List (Step C) → Except Panic α → Nat → Prop
  | done (value : α) (t : Nat) : Runs T (.done value) t [] (.ok value) t
  | panic (p : Panic) (t : Nat) : Runs T (.panic p) t [] (.error p) t
  | ask {request : Request C} {answer : request.Answer}
      {next : C.poolInterface.Answer request → Code C α} {t t' : Nat} {steps : List (Step C)}
      {e : Except Panic α} (admits : request.Admits t answer)
      (rest : Runs T (next answer) t steps e t') :
      Runs T (.ask request next) t (⟨t, .asked request answer⟩ :: steps) e t'
  | wait {ms : Nat} {heeds : Bool} {next : Wake → Code C α} {wake : Wake} {t t₁ t' : Nat}
      {steps : List (Step C)} {e : Except Panic α} (ends : WaitEnds T t ms heeds wake t₁)
      (rest : Runs T (next wake) t₁ steps e t') :
      Runs T (.wait ms heeds next) t (⟨t₁, .waited heeds wake⟩ :: steps) e t'

/-- What code may do from millisecond `t` on until it is, in millisecond `t'`, what `q` says. -/
inductive Reaches (T : Option Nat) :
    Code C α → Nat → List (Step C) → (q : Code C α) → Nat → Prop
  | refl (p : Code C α) (t : Nat) : Reaches T p t [] p t
  | ask {request : Request C} {answer : request.Answer}
      {next : C.poolInterface.Answer request → Code C α} {q : Code C α} {t t' : Nat}
      {steps : List (Step C)} (admits : request.Admits t answer)
      (rest : Reaches T (next answer) t steps q t') :
      Reaches T (.ask request next) t (⟨t, .asked request answer⟩ :: steps) q t'
  | wait {ms : Nat} {heeds : Bool} {next : Wake → Code C α} {wake : Wake} {q : Code C α}
      {t t₁ t' : Nat} {steps : List (Step C)} (ends : WaitEnds T t ms heeds wake t₁)
      (rest : Reaches T (next wake) t₁ steps q t') :
      Reaches T (.wait ms heeds next) t (⟨t₁, .waited heeds wake⟩ :: steps) q t'

end Program

/-! ## Time -/

theorem WaitEnds.le {ms : Nat} {heeds : Bool} {wake : Wake} (h : WaitEnds T t ms heeds wake t') :
    t ≤ t' := by
  cases h <;> omega

/-- A wait that has run out took its full length, and if it heeds the token then no cancellation came before its
end. -/
theorem waitEnds_elapsed_iff {ms : Nat} {heeds : Bool} :
    WaitEnds T t ms heeds .elapsed t' ↔
      t' = t + waited ms ∧ (heeds = true → ∀ moment ∈ T, t' ≤ moment) := by
  constructor
  · rintro ⟨h⟩
    exact ⟨rfl, h⟩
  · rintro ⟨rfl, h⟩
    exact .elapsed h

/-- A wait is cut short at the cancellation, or at once if that has been. -/
theorem waitEnds_cancelled_iff {ms : Nat} :
    WaitEnds T t ms true .cancelled t' ↔
      ∃ moment ∈ T, moment ≤ t + waited ms ∧ t' = max t moment := by
  constructor
  · rintro (_ | ⟨h, le⟩)
    exact ⟨_, h, le, rfl⟩
  · rintro ⟨moment, h, le, rfl⟩
    exact .cancelled h le

/-- Every wait can end: when the token is cancelled if that comes first, else by itself. -/
theorem exists_waitEnds (T : Option Nat) (t ms : Nat) (heeds : Bool) :
    ∃ wake t', WaitEnds T t ms heeds wake t' := by
  by_cases early : heeds = true ∧ ∃ moment ∈ T, moment < t + waited ms
  · obtain ⟨rfl, moment, h, lt⟩ := early
    exact ⟨_, _, .cancelled h (Nat.le_of_lt lt)⟩
  · refine ⟨_, _, .elapsed fun heeded moment h => ?_⟩
    exact Nat.le_of_not_lt fun lt => early ⟨heeded, moment, h, lt⟩

/-- What was done before the token was cancelled would have been done had it not been. -/
theorem WaitEnds.cancel_later {ms : Nat} {heeds : Bool} {wake : Wake} {moment : Nat}
    (h : WaitEnds none t ms heeds wake t') (le : t' ≤ moment) :
    WaitEnds (some moment) t ms heeds wake t' := by
  cases h with
  | elapsed _ =>
    refine .elapsed fun _ other h => ?_
    cases h
    exact le
  | cancelled h _ => cases h

namespace Program

/-- Code does not go back in time. -/
theorem Runs.le {p : Code C α} {steps : List (Step C)} {e : Except Panic α}
    (h : p.Runs T t steps e t') : t ≤ t' := by
  induction h with
  | done | panic => exact Nat.le_refl _
  | ask _ _ ih => exact ih
  | wait ends _ ih => exact Nat.le_trans ends.le ih

theorem Reaches.le {p q : Code C α} {steps : List (Step C)} (h : p.Reaches T t steps q t') :
    t ≤ t' := by
  induction h with
  | refl => exact Nat.le_refl _
  | ask _ _ ih => exact ih
  | wait ends _ ih => exact Nat.le_trans ends.le ih

/-- What code has come to without a cancellation it can come to before one. -/
theorem Reaches.cancel_later {p q : Code C α} {steps : List (Step C)} {moment : Nat}
    (h : p.Reaches none t steps q t') (le : t' ≤ moment) : p.Reaches (some moment) t steps q t' := by
  induction h with
  | refl => exact .refl _ _
  | ask admits _ ih => exact .ask admits (ih le)
  | wait ends rest ih => exact .wait (ends.cancel_later (Nat.le_trans rest.le le)) (ih le)

/-- What code does without a cancellation it can do before one. -/
theorem Runs.cancel_later {p : Code C α} {steps : List (Step C)} {e : Except Panic α} {moment : Nat}
    (h : p.Runs none t steps e t') (le : t' ≤ moment) : p.Runs (some moment) t steps e t' := by
  induction h with
  | done value t => exact .done value t
  | panic x t => exact .panic x t
  | ask admits _ ih => exact .ask admits (ih le)
  | wait ends rest ih => exact .wait (ends.cancel_later (Nat.le_trans rest.le le)) (ih le)

/-! ## Composition -/

/-- From one point of some code to another and on to a third. -/
theorem Reaches.trans {p q r : Code C α} {first second : List (Step C)} {t₁ : Nat}
    (h : p.Reaches T t first q t₁) (g : q.Reaches T t₁ second r t') :
    p.Reaches T t (first ++ second) r t' := by
  induction h with
  | refl => exact g
  | ask admits _ ih => exact .ask admits (ih g)
  | wait ends _ ih => exact .wait ends (ih g)

/-- From one point of some code to another and on to the end. -/
theorem Reaches.runs {p q : Code C α} {first second : List (Step C)} {e : Except Panic α} {t₁ : Nat}
    (h : p.Reaches T t first q t₁) (g : q.Runs T t₁ second e t') :
    p.Runs T t (first ++ second) e t' := by
  induction h with
  | refl => exact g
  | ask admits _ ih => exact .ask admits (ih g)
  | wait ends _ ih => exact .wait ends (ih g)

/-- Code that has come to its value has ended with it. -/
theorem Reaches.runs_done {p : Code C α} {value : α} {steps : List (Step C)}
    (h : p.Reaches T t steps (.done value) t') : p.Runs T t steps (.ok value) t' := by
  simpa using h.runs (.done value t')

/-- Code that has come to a panic has ended with it. -/
theorem Reaches.runs_panic {p : Code C α} {x : Panic} {steps : List (Step C)}
    (h : p.Reaches T t steps (.panic x) t') : p.Runs T t steps (.error x) t' := by
  simpa using h.runs (.panic x t')

/-- There is an answer to every request. -/
theorem exists_admits [Nonempty C.State] (t : Nat) (request : Request C) :
    ∃ answer : request.Answer, request.Admits t answer :=
  match request with
  | .client (.update _) => ⟨Classical.choice ‹_›, trivial⟩
  | .client (.note _) | .client (.cancel _) | .client .stop => ⟨(), trivial⟩
  | .now => ⟨t, rfl⟩
  | .enter _ | .ended _ | .log _ | .record _ | .register _ _ => ⟨(), trivial⟩
  | .registered _ => ⟨[], trivial⟩
  | .tally _ _ _ => ⟨(0 : Nat), trivial⟩
  | .escalate _ => ⟨true, trivial⟩

/-- Code comes to an end in any surroundings. -/
theorem exists_runs [Nonempty C.State] (T : Option Nat) (p : Code C α) (t : Nat) :
    ∃ steps e t', p.Runs T t steps e t' := by
  induction p generalizing t with
  | done value => exact ⟨_, _, _, .done value t⟩
  | panic x => exact ⟨_, _, _, .panic x t⟩
  | ask request next ih =>
    obtain ⟨answer, admits⟩ := exists_admits t request
    obtain ⟨steps, e, t', rest⟩ := ih answer t
    exact ⟨_, _, _, .ask admits rest⟩
  | wait ms heeds next ih =>
    obtain ⟨wake, t₁, ends⟩ := exists_waitEnds T t ms heeds
    obtain ⟨steps, e, t', rest⟩ := ih wake t₁
    exact ⟨_, _, _, .wait ends rest⟩

/-- What was done up to some point is the beginning of a whole run. -/
theorem Reaches.exists_runs [Nonempty C.State] {p q : Code C α} {first : List (Step C)}
    (h : p.Reaches T t first q t') :
    ∃ rest e t'', q.Runs T t' rest e t'' ∧ p.Runs T t (first ++ rest) e t'' := by
  obtain ⟨rest, e, t'', run⟩ := Program.exists_runs T q t'
  exact ⟨rest, e, t'', run, h.runs run⟩

/-- Code that ends with a value is gone on from with that value. -/
theorem Runs.bind {p : Code C α} {f : α → Code C β} {first second : List (Step C)} {value : α}
    {e : Except Panic β} {t₁ : Nat} (h : p.Runs T t first (.ok value) t₁)
    (g : (f value).Runs T t₁ second e t') : (p >>= f).Runs T t (first ++ second) e t' := by
  generalize hv : (Except.ok value : Except Panic α) = ending at h
  induction h with
  | done => cases hv; exact g
  | panic => cases hv
  | ask admits _ ih => exact .ask admits (ih g hv)
  | wait ends _ ih => exact .wait ends (ih g hv)

/-- After a panic nothing is gone on with. -/
theorem Runs.bind_panic {p : Code C α} {steps : List (Step C)} {x : Panic}
    (h : p.Runs T t steps (.error x) t') (f : α → Code C β) :
    (p >>= f).Runs T t steps (.error x) t' := by
  generalize hx : (Except.error x : Except Panic α) = ending at h
  induction h with
  | done => cases hx
  | panic => cases hx; exact .panic _ _
  | ask admits _ ih => exact .ask admits (ih hx)
  | wait ends _ ih => exact .wait ends (ih hx)

/-- A run of two pieces of code in a row is a run of the first and then one of the second, unless the
first panics. -/
theorem runs_bind {p : Code C α} {f : α → Code C β} {steps : List (Step C)} {e : Except Panic β} :
    (p >>= f).Runs T t steps e t' ↔
      (∃ x, e = .error x ∧ p.Runs T t steps (.error x) t') ∨
      ∃ value t₁ first second, steps = first ++ second ∧ p.Runs T t first (.ok value) t₁ ∧
        (f value).Runs T t₁ second e t' := by
  constructor
  · intro h
    induction p generalizing t steps with
    | done value => exact .inr ⟨value, t, [], steps, rfl, .done value t, h⟩
    | panic x => cases h; exact .inl ⟨x, rfl, .panic x _⟩
    | ask request next ih =>
      cases h with
      | ask admits rest =>
        rcases ih _ rest with ⟨x, he, run⟩ | ⟨value, t₁, first, second, rfl, run, more⟩
        · exact .inl ⟨x, he, .ask admits run⟩
        · exact .inr ⟨value, t₁, _, second, rfl, .ask admits run, more⟩
    | wait ms heeds next ih =>
      cases h with
      | wait ends rest =>
        rcases ih _ rest with ⟨x, he, run⟩ | ⟨value, t₁, first, second, rfl, run, more⟩
        · exact .inl ⟨x, he, .wait ends run⟩
        · exact .inr ⟨value, t₁, _, second, rfl, .wait ends run, more⟩
  · rintro (⟨x, rfl, run⟩ | ⟨value, t₁, first, second, rfl, run, more⟩)
    · exact run.bind_panic f
    · exact run.bind more

/-- Two pieces of code in a row are still in the first, or have gone on to the second. -/
theorem reaches_bind {p : Code C α} {f : α → Code C β} {q : Code C β} {steps : List (Step C)}
    (h : (p >>= f).Reaches T t steps q t') :
    (∃ p', p.Reaches T t steps p' t') ∨
      ∃ value t₁ first second, steps = first ++ second ∧ p.Runs T t first (.ok value) t₁ ∧
        (f value).Reaches T t₁ second q t' := by
  induction p generalizing t steps with
  | done value => exact .inr ⟨value, t, [], steps, rfl, .done value t, h⟩
  | panic x =>
    cases h with
    | refl => exact .inl ⟨_, .refl _ _⟩
  | ask request next ih =>
    cases h with
    | refl => exact .inl ⟨_, .refl _ _⟩
    | ask admits rest =>
      rcases ih _ rest with ⟨p', reaches⟩ | ⟨value, t₁, first, second, rfl, run, more⟩
      · exact .inl ⟨p', .ask admits reaches⟩
      · exact .inr ⟨value, t₁, _, second, rfl, .ask admits run, more⟩
  | wait ms heeds next ih =>
    cases h with
    | refl => exact .inl ⟨_, .refl _ _⟩
    | wait ends rest =>
      rcases ih _ rest with ⟨p', reaches⟩ | ⟨value, t₁, first, second, rfl, run, more⟩
      · exact .inl ⟨p', .wait ends reaches⟩
      · exact .inr ⟨value, t₁, _, second, rfl, .wait ends run, more⟩

/-- What code did says how it ended, and how much of what was done it did. -/
theorem Runs.unique {p : Code C α} {first second more more' : List (Step C)} {e e' : Except Panic α}
    {t₁ t₂ : Nat} (h : p.Runs T t first e t₁) (g : p.Runs T t second e' t₂)
    (same : first ++ more = second ++ more') : first = second ∧ e = e' ∧ t₁ = t₂ := by
  induction h generalizing second with
  | done | panic =>
    cases g
    exact ⟨rfl, rfl, rfl⟩
  | ask _ _ ih =>
    cases g with
    | ask _ rest =>
      obtain ⟨one, others⟩ := List.cons.inj same
      cases one
      obtain ⟨rfl, rfl, rfl⟩ := ih rest others
      exact ⟨rfl, rfl, rfl⟩
  | wait _ _ ih =>
    cases g with
    | wait _ rest =>
      obtain ⟨one, others⟩ := List.cons.inj same
      cases one
      obtain ⟨rfl, rfl, rfl⟩ := ih rest others
      exact ⟨rfl, rfl, rfl⟩

/-- A run of code that goes on with the result of other code, by how the other code ended. -/
theorem runs_bind_outcome {p : Code C (PoolResult α)} {f : PoolResult α → Code C β}
    {steps : List (Step C)} {e : Except Panic β} (h : (p >>= f).Runs T t steps e t') :
    ∃ (outcome : Outcome α) (first : List (Step C)) (t₁ : Nat),
      p.Runs T t first outcome.ending t₁ ∧
      match outcome with
      | .ok value => ∃ second, steps = first ++ second ∧ (f (.ok value)).Runs T t₁ second e t'
      | .error error => ∃ second, steps = first ++ second ∧ (f (.error error)).Runs T t₁ second e t'
      | .panic x => steps = first ∧ e = .error x ∧ t' = t₁ := by
  rcases runs_bind.mp h with ⟨x, rfl, run⟩ | ⟨result, t₁, first, second, rfl, run, next⟩
  · exact ⟨.panic x, steps, t', run, rfl, rfl, rfl⟩
  · cases result with
    | ok value => exact ⟨.ok value, first, t₁, run, second, rfl, next⟩
    | error error => exact ⟨.error error, first, t₁, run, second, rfl, next⟩

/-- The boundary that catches panics turns the ending of a run into a value. -/
theorem runs_guarded {p : Code C (PoolResult α)} {steps : List (Step C)}
    {e : Except Panic (Outcome α)} :
    p.guarded.Runs T t steps e t' ↔
      ∃ outcome : Outcome α, e = .ok outcome ∧ p.Runs T t steps outcome.ending t' := by
  constructor
  · intro h
    induction p generalizing t steps with
    | done result =>
      cases result <;> cases h
      · exact ⟨_, rfl, .done _ _⟩
      · exact ⟨_, rfl, .done _ _⟩
    | panic x => cases h; exact ⟨.panic x, rfl, .panic x _⟩
    | ask request next ih =>
      cases h with
      | ask admits rest =>
        obtain ⟨outcome, he, run⟩ := ih _ rest
        exact ⟨outcome, he, .ask admits run⟩
    | wait ms heeds next ih =>
      cases h with
      | wait ends rest =>
        obtain ⟨outcome, he, run⟩ := ih _ rest
        exact ⟨outcome, he, .wait ends run⟩
  · rintro ⟨outcome, rfl, run⟩
    generalize he : outcome.ending = ending at run
    -- The induction is on the run, whose ending is that of the outcome; only at its end do the two differ.
    induction run with
    | done =>
      cases outcome <;> cases he <;> exact .done _ _
    | panic =>
      cases outcome <;> cases he
      exact .done _ _
    | ask admits _ ih => exact .ask admits (ih he)
    | wait ends _ ih => exact .wait ends (ih he)

theorem runs_pure {value : α} {steps : List (Step C)} {e : Except Panic α} :
    (pure value : Code C α).Runs T t steps e t' ↔ steps = [] ∧ e = .ok value ∧ t' = t := by
  constructor
  · intro h
    cases h
    exact ⟨rfl, rfl, rfl⟩
  · rintro ⟨rfl, rfl, rfl⟩
    exact .done _ _

theorem runs_ofOutcome {outcome : Outcome α} {steps : List (Step C)}
    {e : Except Panic (PoolResult α)} :
    (ofOutcome outcome : Code C (PoolResult α)).Runs T t steps e t' ↔
      steps = [] ∧ e = outcome.ending ∧ t' = t := by
  constructor
  · intro h
    cases outcome <;> cases h <;> exact ⟨rfl, rfl, rfl⟩
  · rintro ⟨rfl, rfl, rfl⟩
    cases outcome
    · exact .done _ _
    · exact .done _ _
    · exact .panic _ _

/-! ## Single requests -/

/-- Code that asks first asks in the millisecond in which it begins. -/
theorem runs_ask (request : Request C) {next : request.Answer → Code C α} {steps : List (Step C)}
    {e : Except Panic α} :
    (Program.ask (I := C.poolInterface) request next).Runs T t steps e t' ↔
      ∃ answer rest, request.Admits t answer ∧ steps = ⟨t, .asked request answer⟩ :: rest ∧
        (next answer).Runs T t rest e t' := by
  constructor
  · intro h
    cases h with
    | ask admits rest => exact ⟨_, _, admits, rfl, rest⟩
  · rintro ⟨answer, rest, admits, rfl, run⟩
    exact .ask admits run

/-- Code that asks first has not done so yet, or goes on with the answer. -/
theorem reaches_ask {request : Request C} {next : request.Answer → Code C α} {q : Code C α}
    {steps : List (Step C)} (h : (Program.ask (I := C.poolInterface) request next).Reaches T t steps q t') :
    steps = [] ∨ ∃ answer rest, steps = ⟨t, .asked request answer⟩ :: rest ∧
      (next answer).Reaches T t rest q t' := by
  cases h with
  | refl => exact .inl rfl
  | ask admits rest => exact .inr ⟨_, _, rfl, rest⟩

theorem reaches_pure {value : α} {q : Code C α} {steps : List (Step C)}
    (h : (pure value : Code C α).Reaches T t steps q t') : steps = [] := by
  cases h
  rfl

/-- Code that waits first goes on when the wait is over. -/
theorem runs_wait {ms : Nat} {heeds : Bool} {next : Wake → Code C α} {steps : List (Step C)}
    {e : Except Panic α} :
    (wait ms heeds next : Code C α).Runs T t steps e t' ↔
      ∃ wake t₁ rest, WaitEnds T t ms heeds wake t₁ ∧ steps = ⟨t₁, .waited heeds wake⟩ :: rest ∧
        (next wake).Runs T t₁ rest e t' := by
  constructor
  · intro h
    cases h with
    | wait ends rest => exact ⟨_, _, _, ends, rfl, rest⟩
  · rintro ⟨wake, t₁, rest, ends, rfl, run⟩
    exact .wait ends run

/-- A sleep that heeds the token is one step, and ends either way. -/
theorem runs_sleepUnlessCancelled_bind {ms : Nat} {f : Wake → Code C α} {steps : List (Step C)}
    {e : Except Panic α} :
    (sleepUnlessCancelled ms >>= f : Code C α).Runs T t steps e t' ↔
      ∃ wake t₁ rest, WaitEnds T t ms true wake t₁ ∧ steps = ⟨t₁, .waited true wake⟩ :: rest ∧
        (f wake).Runs T t₁ rest e t' :=
  runs_wait

end Program

namespace Code

variable {f : Unit → Code C α} {steps : List (Step C)} {e : Except Panic α}

/-- Asking for something that is answered with nothing leaves one step behind. -/
theorem runs_tell (request : Request C) {next : request.Answer → Code C α} (nothing : request.Answer)
    (unique : ∀ answer : request.Answer, answer = nothing) (admits : request.Admits t nothing) :
    (Program.ask (I := C.poolInterface) request next).Runs T t steps e t' ↔
      ∃ rest, steps = ⟨t, .asked request nothing⟩ :: rest ∧
        (next nothing).Runs T t rest e t' := by
  constructor
  · intro h
    obtain ⟨answer, rest, _, rfl, run⟩ := (Program.runs_ask request).mp h
    cases unique answer
    exact ⟨rest, rfl, run⟩
  · rintro ⟨rest, rfl, run⟩
    exact .ask admits run

theorem runs_enter_bind {call : Call C} :
    (enter call >>= f).Runs T t steps e t' ↔
      ∃ rest, steps = ⟨t, .asked (.enter call) ()⟩ :: rest ∧ (f ()).Runs T t rest e t' :=
  runs_tell (.enter call) () (fun _ => rfl) trivial

theorem runs_ended_bind {ending : Ending C} :
    (ended ending >>= f).Runs T t steps e t' ↔
      ∃ rest, steps = ⟨t, .asked (.ended ending) ()⟩ :: rest ∧ (f ()).Runs T t rest e t' :=
  runs_tell (.ended ending) () (fun _ => rfl) trivial

theorem runs_log_bind {level : LogLevel} {text : String} {fields : List (String × LogValue)} :
    (log level text fields >>= f).Runs T t steps e t' ↔
      ∃ rest, steps = ⟨t, .asked (.log { level, text, fields }) ()⟩ :: rest ∧
        (f ()).Runs T t rest e t' :=
  runs_tell (.log { level, text, fields }) () (fun _ => rfl) trivial

theorem runs_record_bind {metric : Metric} :
    (record metric >>= f).Runs T t steps e t' ↔
      ∃ rest, steps = ⟨t, .asked (.record metric) ()⟩ :: rest ∧ (f ()).Runs T t rest e t' :=
  runs_tell (.record metric) () (fun _ => rfl) trivial

/-- To ask for the time is one step, and the answer is the millisecond in which it is done. -/
theorem runs_now_bind {f : Nat → Code C α} :
    (now >>= f).Runs T t steps e t' ↔
      ∃ rest, steps = ⟨t, .asked .now t⟩ :: rest ∧ (f t).Runs T t rest e t' := by
  constructor
  · intro h
    obtain ⟨answer, rest, rfl, rfl, run⟩ := (Program.runs_ask .now).mp h
    exact ⟨rest, rfl, run⟩
  · rintro ⟨rest, rfl, run⟩
    exact (Program.runs_ask .now).mpr ⟨t, rest, rfl, rfl, run⟩

/-- Asking for something that surroundings may answer with anything leaves the answer behind. -/
theorem runs_ask_any {request : Request C} {next : request.Answer → Code C α}
    (any : ∀ answer, request.Admits t answer) :
    (Program.ask (I := C.poolInterface) request next).Runs T t steps e t' ↔
      ∃ answer rest, steps = ⟨t, .asked request answer⟩ :: rest ∧
        (next answer).Runs T t rest e t' := by
  rw [Program.runs_ask]
  simp only [any, true_and]

theorem runs_registered_bind {side : HookSide} {f : List C.Hook → Code C α} :
    (registered side >>= f).Runs T t steps e t' ↔
      ∃ hooks rest, steps = ⟨t, .asked (.registered side) hooks⟩ :: rest ∧
        (f hooks).Runs T t rest e t' :=
  runs_ask_any fun _ => trivial

theorem runs_tally_bind {limit worker : String} {change : Nat → Nat} {f : Nat → Code C α} :
    (tally limit worker change >>= f).Runs T t steps e t' ↔
      ∃ (count : Nat) (rest : List (Step C)),
        steps = ⟨t, .asked (.tally limit worker change) count⟩ :: rest ∧
        (f count).Runs T t rest e t' :=
  runs_ask_any fun _ => trivial

/-- Code that is to change a tally has not done so yet or has gone on with the count. -/
theorem reaches_tally_bind {limit worker : String} {change : Nat → Nat} {f : Nat → Code C α} {q : Code C α}
    (h : (tally limit worker change >>= f).Reaches T t steps q t') :
    steps = [] ∨ ∃ (count : Nat) (rest : List (Step C)),
      steps = ⟨t, .asked (.tally limit worker change) count⟩ :: rest ∧ (f count).Reaches T t rest q t' :=
  Program.reaches_ask h

/-- Code that is to write a line has not done so yet or has gone on. -/
theorem reaches_log_bind {level : LogLevel} {text : String} {fields : List (String × LogValue)} {q : Code C α}
    (h : (log level text fields >>= f).Reaches T t steps q t') :
    steps = [] ∨ ∃ (answer : Unit) (rest : List (Step C)),
      steps = ⟨t, .asked (.log { level, text, fields }) answer⟩ :: rest ∧ (f answer).Reaches T t rest q t' :=
  Program.reaches_ask h

theorem runs_escalate_bind {error : PoolError} {f : Bool → Code C α} :
    (escalate error >>= f).Runs T t steps e t' ↔
      ∃ taken rest, steps = ⟨t, .asked (.escalate error) taken⟩ :: rest ∧
        (f taken).Runs T t rest e t' :=
  runs_ask_any fun _ => trivial

theorem runs_log {level : LogLevel} {text : String} {fields : List (String × LogValue)}
    {e : Except Panic Unit} :
    (log level text fields : Code C Unit).Runs T t steps e t' ↔
      steps = [⟨t, .asked (.log { level, text, fields }) ()⟩] ∧ e = .ok () ∧ t' = t := by
  refine (runs_tell (.log { level, text, fields }) () (fun _ => rfl) trivial).trans ?_
  constructor
  · rintro ⟨rest, rfl, run⟩
    obtain ⟨rfl, rfl, rfl⟩ := Program.runs_pure.mp run
    exact ⟨rfl, rfl, rfl⟩
  · rintro ⟨rfl, rfl, rfl⟩
    exact ⟨[], rfl, .done _ _⟩

/-- A call of client code runs the code, says how it ended, and ends so. -/
theorem runs_call {ending : Outcome α → Ending C} {code : Code C (PoolResult α)}
    {e : Except Panic (PoolResult α)} (h : (call ending code).Runs T t steps e t') :
    ∃ (outcome : Outcome α) (inner : List (Step C)),
      steps = inner ++ [⟨t', .asked (.ended (ending outcome)) ()⟩] ∧ e = outcome.ending ∧
      code.Runs T t inner outcome.ending t' := by
  rcases Program.runs_bind.mp h with ⟨x, rfl, guarded⟩ | ⟨outcome, t₁, inner, rest, rfl, guarded, run⟩
  · obtain ⟨outcome, he, _⟩ := Program.runs_guarded.mp guarded
    cases he
  · obtain ⟨outcome, he, code⟩ := Program.runs_guarded.mp guarded
    cases he
    simp only [runs_ended_bind, Program.runs_ofOutcome] at run
    obtain ⟨_, rfl, rfl, rfl, rfl⟩ := run
    exact ⟨outcome, inner, rfl, rfl, code⟩

end Code

/-! ## Stretches -/

/-- A stretch of a transcript in which some code ran to its end. -/
structure Stretch (C : Client) (α : Type) where
  begun : Nat
  ended : Nat
  steps : List (Step C)
  outcome : Outcome α

/-- Whether it was `code` that ran. -/
def Stretch.IsOf (a : Stretch C α) (T : Option Nat) (code : Code C (PoolResult α)) : Prop :=
  code.Runs T a.begun a.steps a.outcome.ending a.ended

end WorkerPool
