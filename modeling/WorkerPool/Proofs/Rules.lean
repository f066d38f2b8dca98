import WorkerPool.Proofs.Observation

/-!
# Rules that code keeps to

A `Rule` watches what code does: it says where it stands after a deed, given where it stood before, and
has no answer for a deed that breaks it. `Program.Keeps` says of code that it keeps to a rule whatever
its surroundings answer, and where the rule may stand when the code ends. It is defined along the code
itself, so it is proved of a function by going through its text, one law for each way in which code is put
together; and what keeps to a rule does so up to any point that it reaches (`Keeps.reaches`).
-/

namespace WorkerPool

variable {C : Client} {α β σ τ : Type} {T : Option Nat} {t t' : Nat}

/-- Where a rule stands after a deed, `none` if the deed breaks it. -/
abbrev Rule (C : Client) (σ : Type) := σ → Deed C → Option σ

/-- Where a rule stands after a transcript. -/
def Rule.follow (rule : Rule C σ) (s : σ) (steps : List (Step C)) : Option σ :=
  steps.foldlM (fun s step => rule s step.deed) s

namespace Rule

variable {rule : Rule C σ} {s s' : σ}

/-- A rule that goes on past a step goes on from where the step has taken it. -/
theorem follow_cons_eq (rule : Rule C σ) (s : σ) (step : Step C) (steps : List (Step C)) :
    rule.follow s (step :: steps) = (rule s step.deed).bind (rule.follow · steps) :=
  rfl

theorem follow_cons {step : Step C} {steps : List (Step C)} (h : rule s step.deed = some s') :
    rule.follow s (step :: steps) = rule.follow s' steps := by
  simp [follow, h]

/-- A rule that has been followed has allowed the first step and then been followed by the others. -/
theorem exists_of_follow_cons {step : Step C} {steps : List (Step C)} {s'' : σ}
    (h : rule.follow s (step :: steps) = some s'') :
    ∃ s', rule s step.deed = some s' ∧ rule.follow s' steps = some s'' := by
  simpa [follow, Option.bind_eq_some_iff] using h

@[simp] theorem follow_append (rule : Rule C σ) (s : σ) (first second : List (Step C)) :
    rule.follow s (first ++ second) = (rule.follow s first).bind (rule.follow · second) :=
  List.foldlM_append

/-- A rule that has been followed through both stretches stood somewhere in between. -/
theorem exists_of_follow_append {first second : List (Step C)} {s'' : σ}
    (h : rule.follow s (first ++ second) = some s'') :
    ∃ s', rule.follow s first = some s' ∧ rule.follow s' second = some s'' := by
  rw [follow_append] at h
  exact Option.bind_eq_some_iff.mp h

/-- Deeds that do not move a rule leave it where it stands. -/
theorem follow_eq_self {steps : List (Step C)} (neutral : ∀ step ∈ steps, rule s step.deed = some s) :
    rule.follow s steps = some s := by
  induction steps with
  | nil => rfl
  | cons step rest ih =>
    rw [List.forall_mem_cons] at neutral
    exact (follow_cons neutral.1).trans (ih neutral.2)

/-- What is followed by a rule is followed by every rule that watches less of it. -/
theorem follow_map {watched : Rule C τ} {f : σ → τ}
    (laxer : ∀ s deed s', rule s deed = some s' → watched (f s) deed = some (f s')) {steps : List (Step C)}
    (h : rule.follow s steps = some s') : watched.follow (f s) steps = some (f s') := by
  induction steps generalizing s with
  | nil =>
    cases h
    rfl
  | cons step rest ih =>
    obtain ⟨between, allowed, follows⟩ := exists_of_follow_cons h
    exact (follow_cons (laxer _ _ _ allowed)).trans (ih follows)

end Rule

namespace Program

/-- Whether code keeps to a rule that stands somewhere, and what holds of where it stands in the end. -/
def Keeps (rule : Rule C σ) (post : σ → Except Panic α → Prop) : Code C α → σ → Prop
  | .done value, s => post s (.ok value)
  | .panic x, s => post s (.error x)
  | .ask request next, s => ∀ answer, ∃ s' ∈ rule s (.asked request answer), Keeps rule post (next answer) s'
  | .wait _ heeds next, s => ∀ wake, ∃ s' ∈ rule s (.waited heeds wake), Keeps rule post (next wake) s'

variable {rule : Rule C σ} {post post' : σ → Except Panic α → Prop} {p q : Code C α} {s : σ}
  {steps : List (Step C)}

/-- What code has done up to some point keeps to the rule, and so does the rest of the code. -/
theorem Keeps.reaches (h : p.Keeps rule post s) (reaches : p.Reaches T t steps q t') :
    ∃ s', rule.follow s steps = some s' ∧ q.Keeps rule post s' := by
  induction reaches generalizing s with
  | refl => exact ⟨s, rfl, h⟩
  | ask _ _ ih =>
    obtain ⟨s₁, allowed, next⟩ := h _
    obtain ⟨s', follows, rest⟩ := ih next
    exact ⟨s', (Rule.follow_cons allowed).trans follows, rest⟩
  | wait _ _ ih =>
    obtain ⟨s₁, allowed, next⟩ := h _
    obtain ⟨s', follows, rest⟩ := ih next
    exact ⟨s', (Rule.follow_cons allowed).trans follows, rest⟩

/-- Code that keeps to a rule keeps to it in each of its runs, and the rule ends where it should. -/
theorem Keeps.runs (h : p.Keeps rule post s) {e : Except Panic α} (runs : p.Runs T t steps e t') :
    ∃ s', rule.follow s steps = some s' ∧ post s' e := by
  induction runs generalizing s with
  | done | panic => exact ⟨s, rfl, h⟩
  | ask _ _ ih =>
    obtain ⟨s₁, allowed, next⟩ := h _
    obtain ⟨s', follows, ended⟩ := ih next
    exact ⟨s', (Rule.follow_cons allowed).trans follows, ended⟩
  | wait _ _ ih =>
    obtain ⟨s₁, allowed, next⟩ := h _
    obtain ⟨s', follows, ended⟩ := ih next
    exact ⟨s', (Rule.follow_cons allowed).trans follows, ended⟩

/-- To end where less is asked is to end well. -/
theorem Keeps.mono (h : p.Keeps rule post s) (weaker : ∀ s e, post s e → post' s e) :
    p.Keeps rule post' s := by
  induction p generalizing s with
  | done | panic => exact weaker _ _ h
  | ask request next ih =>
    intro answer
    obtain ⟨s', allowed, rest⟩ := h answer
    exact ⟨s', allowed, ih answer rest⟩
  | wait ms heeds next ih =>
    intro wake
    obtain ⟨s', allowed, rest⟩ := h wake
    exact ⟨s', allowed, ih wake rest⟩

/-- Who keeps to a rule keeps to every laxer one. -/
theorem Keeps.relax {lax : Rule C τ} {f : σ → τ} {post' : τ → Except Panic α → Prop}
    (h : p.Keeps rule post s) (weaker : ∀ s e, post s e → post' (f s) e)
    (laxer : ∀ s deed s', rule s deed = some s' → lax (f s) deed = some (f s')) :
    p.Keeps lax post' (f s) := by
  induction p generalizing s with
  | done | panic => exact weaker _ _ h
  | ask request next ih =>
    intro answer
    obtain ⟨s', allowed, rest⟩ := h answer
    exact ⟨f s', laxer _ _ _ allowed, ih answer rest⟩
  | wait ms heeds next ih =>
    intro wake
    obtain ⟨s', allowed, rest⟩ := h wake
    exact ⟨f s', laxer _ _ _ allowed, ih wake rest⟩

/-! ## Composition -/

/-- What has to hold where code ends that other code follows. -/
def Then (rule : Rule C σ) (post : σ → Except Panic β → Prop) (f : α → Code C β) (s : σ) :
    Except Panic α → Prop
  | .ok value => (f value).Keeps rule post s
  | .error x => post s (.error x)

/-- Code and what comes after it keep to a rule just if the code leaves the rule where the rest keeps to it. -/
theorem keeps_bind {f : α → Code C β} {post : σ → Except Panic β → Prop} :
    (p >>= f).Keeps rule post s ↔ p.Keeps rule (Then rule post f) s := by
  induction p generalizing s with
  | done | panic => exact Iff.rfl
  | ask request next ih => exact forall_congr' fun answer => exists_congr fun s' => and_congr_right' (ih answer)
  | wait ms heeds next ih => exact forall_congr' fun wake => exists_congr fun s' => and_congr_right' (ih wake)

/-- The boundary that catches panics does nothing by itself. -/
theorem keeps_guarded {p : Code C (PoolResult α)} {post : σ → Except Panic (Outcome α) → Prop} :
    p.guarded.Keeps rule post s ↔
      p.Keeps rule (fun s e => ∀ outcome : Outcome α, outcome.ending = e → post s (.ok outcome)) s := by
  have forall_same (given : Outcome α) {s : σ} :
      post s (.ok given) ↔ ∀ outcome : Outcome α, outcome.ending = given.ending → post s (.ok outcome) := by
    refine ⟨fun h outcome same => ?_, fun h => h given rfl⟩
    rwa [Outcome.ending_inj.mp same]
  induction p generalizing s with
  | done result =>
    cases result with
    | ok value => exact forall_same (.ok value)
    | error e => exact forall_same (.error e)
  | panic x => exact forall_same (.panic x)
  | ask request next ih => exact forall_congr' fun answer => exists_congr fun s' => and_congr_right' (ih answer)
  | wait ms heeds next ih => exact forall_congr' fun wake => exists_congr fun s' => and_congr_right' (ih wake)

/-- A given outcome keeps to any rule that ends well with it. -/
theorem keeps_ofOutcome {outcome : Outcome α} {post : σ → Except Panic (PoolResult α) → Prop} :
    (ofOutcome outcome : Code C (PoolResult α)).Keeps rule post s ↔ post s outcome.ending := by
  cases outcome <;> exact Iff.rfl

/-- Client code keeps to a rule that it cannot move. -/
theorem keeps_act {post : σ → Except Panic (PoolResult α) → Prop}
    (asks : ∀ (request : ClientRequest C) answer, rule s (.asked (.client request) answer) = some s)
    (waits : ∀ heeds wake, rule s (.waited heeds wake) = some s) (ends : ∀ e, post s e) (code : Act C α) :
    (Code.act code).Keeps rule post s := by
  unfold Code.act
  induction code with
  | done | panic => exact ends _
  | ask request next ih => exact fun answer => ⟨s, asks request answer, ih answer⟩
  | wait ms heeds next ih => exact fun wake => ⟨s, waits heeds wake, ih wake⟩

end Program

/-! ## Deeds that code does not do -/

/-- Whether code never does a deed of some kind. -/
def Program.Shuns (kind : Deed C → Bool) (code : Code C α) : Prop :=
  code.Keeps (fun _ deed => if kind deed then none else some ()) (fun _ _ => True) ()

namespace Program.Shuns

variable {kind other : Deed C → Bool} {p q : Code C α} {steps : List (Step C)}

/-- A rule that forbids a kind of deed has been followed only where there were none. -/
theorem of_follow {s' : Unit}
    (h : Rule.follow (fun _ deed => if kind deed then none else some ()) () steps = some s') :
    ∀ step ∈ steps, kind step.deed = false := by
  induction steps with
  | nil => exact List.forall_mem_nil _
  | cons step rest ih =>
    obtain ⟨_, allowed, follows⟩ := Rule.exists_of_follow_cons h
    have free : kind step.deed = false := by simpa using allowed
    exact List.forall_mem_cons.mpr ⟨free, ih follows⟩

/-- What code shuns it has not done so far, and does not do from there on. -/
theorem reaches (h : p.Shuns kind) (reaches : p.Reaches T t steps q t') :
    (∀ step ∈ steps, kind step.deed = false) ∧ q.Shuns kind := by
  obtain ⟨_, follows, rest⟩ := Keeps.reaches h reaches
  exact ⟨of_follow follows, rest⟩

/-- A run of code has none of the deeds that the code shuns. -/
theorem runs (h : p.Shuns kind) {e : Except Panic α} (runs : p.Runs T t steps e t') :
    ∀ step ∈ steps, kind step.deed = false := by
  obtain ⟨_, follows, _⟩ := Keeps.runs h runs
  exact of_follow follows

theorem mono (h : p.Shuns kind) (fewer : ∀ deed, other deed = true → kind deed = true) : p.Shuns other := by
  refine Keeps.relax (f := id) h (fun _ _ _ => trivial) fun s deed s' allowed => ?_
  have free : kind deed = false := by simpa using allowed
  have spared : other deed = false := by
    refine Bool.eq_false_iff.mpr fun done => ?_
    rw [fewer deed done] at free
    cases free
  simp [spared]

theorem pure (value : α) : (Pure.pure value : Code C α).Shuns kind :=
  trivial

/-- What code that shuns a deed has to be followed by for the whole to keep to that. -/
theorem keeps_bind {f : α → Code C β} {post : Unit → Except Panic β → Prop} (h : p.Shuns kind)
    (g : ∀ value, (f value).Keeps (fun _ deed => if kind deed then none else some ()) post ())
    (panics : ∀ x, post () (.error x)) :
    (p >>= f).Keeps (fun _ deed => if kind deed then none else some ()) post () := by
  refine Program.keeps_bind.mpr (Keeps.mono h fun _ e _ => ?_)
  cases e with
  | ok value => exact g value
  | error x => exact panics x

theorem bind {f : α → Code C β} (h : p.Shuns kind) (g : ∀ value, (f value).Shuns kind) : (p >>= f).Shuns kind :=
  keeps_bind h g fun _ => trivial

theorem guarded {p : Code C (PoolResult α)} (h : p.Shuns kind) : p.guarded.Shuns kind :=
  Program.keeps_guarded.mpr (Keeps.mono h fun _ _ _ _ _ => trivial)

theorem ask {request : Request C} {next : request.Answer → Code C α}
    (free : ∀ answer, kind (.asked request answer) = false) (rest : ∀ answer, (next answer).Shuns kind) :
    Program.Shuns kind (Program.ask (I := C.poolInterface) request next) :=
  fun answer => ⟨(), if_neg (by simp [free answer]), rest answer⟩

theorem wait {ms : Nat} {heeds : Bool} {next : Wake → Code C α} (free : ∀ wake, kind (.waited heeds wake) = false)
    (rest : ∀ wake, (next wake).Shuns kind) : (Program.wait ms heeds next : Code C α).Shuns kind :=
  fun wake => ⟨(), if_neg (by simp [free wake]), rest wake⟩

theorem act (asks : ∀ (request : ClientRequest C) answer, kind (.asked (.client request) answer) = false)
    (waits : ∀ heeds wake, kind (.waited heeds wake) = false) (code : Act C α) : (Code.act code).Shuns kind :=
  Program.keeps_act (fun request answer => if_neg (by simp [asks request answer]))
    (fun heeds wake => if_neg (by simp [waits heeds wake])) (fun _ => trivial) code

theorem ofOutcome (outcome : Outcome α) : (Program.ofOutcome outcome : Code C (PoolResult α)).Shuns kind :=
  Program.keeps_ofOutcome.mpr trivial

end Program.Shuns

/-! ## Calls -/

/-- A call of client code does what the code does, and then says how it ended. -/
theorem Code.keeps_call {rule : Rule C σ} {post : σ → Except Panic (PoolResult α) → Prop} {s : σ}
    {ending : Outcome α → Ending C} {code : Code C (PoolResult α)}
    (h : code.Keeps rule (fun s e => ∀ outcome : Outcome α, outcome.ending = e →
      ∃ s' ∈ rule s (.asked (.ended (ending outcome)) ()), post s' outcome.ending) s) :
    (Code.call ending code).Keeps rule post s := by
  refine Program.keeps_bind.mpr (Program.keeps_guarded.mpr (h.mono fun s e said outcome same => ?_))
  obtain ⟨s', allowed, ended⟩ := said outcome same
  exact fun _ => ⟨s', allowed, Program.keeps_ofOutcome.mpr ended⟩

/-- The marks around a call are all that is added to its code. -/
theorem Code.shuns_call {kind : Deed C → Bool} {ending : Outcome α → Ending C} {code : Code C (PoolResult α)}
    (h : code.Shuns kind) (free : ∀ outcome, kind (.asked (.ended (ending outcome)) ()) = false) :
    (Code.call ending code).Shuns kind :=
  h.guarded.bind fun outcome => .ask (fun _ => free outcome) fun _ => .ofOutcome outcome

end WorkerPool
