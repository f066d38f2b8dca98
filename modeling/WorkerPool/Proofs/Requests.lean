import WorkerPool.Proofs.Transcript

/-!
# How what the workers share evolves

The clock goes on, and the token may be cancelled once. `Shared.Evolves` says both, and every request
keeps to it without moving the clock (`evolves_answer`, `clock_answer`). A token is never revived, so the
millisecond of its cancellation, once there is one, stays what it is.

What is done shows in the journal: `Shared.scene` is the journal as far as running code writes it, the
lines of the log left out, and a request adds to it what its step shows (`scene_answer`).
-/

namespace WorkerPool

variable {C : Client}

namespace Shared

variable {s s' s'' : Shared C} {moment : Nat}

/-- Whether the token was not cancelled later than now. -/
def PastCancel (s : Shared C) : Prop :=
  ∀ moment ∈ s.cancelledSince, moment ≤ s.clock

/-- The clock went on, and the token, unless it had been before, may have been cancelled meanwhile. -/
def Evolves (s s' : Shared C) : Prop :=
  s.clock ≤ s'.clock ∧ (s'.cancelledSince = s.cancelledSince ∨
    s.cancelledSince = none ∧ ∃ moment ∈ s'.cancelledSince, s.clock ≤ moment ∧ moment ≤ s'.clock)

theorem Evolves.refl (s : Shared C) : s.Evolves s :=
  ⟨Nat.le_refl _, .inl rfl⟩

theorem Evolves.trans (h : s.Evolves s') (g : s'.Evolves s'') : s.Evolves s'' := by
  rcases h with ⟨le, same | ⟨none, moment, mem, lower, upper⟩⟩ <;>
    rcases g with ⟨le', same' | ⟨none', moment', mem', lower', upper'⟩⟩
  · exact ⟨Nat.le_trans le le', .inl (same'.trans same)⟩
  · exact ⟨Nat.le_trans le le', .inr ⟨same ▸ none', moment', mem', Nat.le_trans le lower', upper'⟩⟩
  · exact ⟨Nat.le_trans le le', .inr ⟨none, moment, same' ▸ mem, lower, Nat.le_trans upper le'⟩⟩
  · rw [none'] at mem
    cases mem

/-- What happened after the cancellation has happened after it for good. -/
theorem Evolves.pastCancel (h : s.Evolves s') (past : s.PastCancel) : s'.PastCancel := by
  rcases h with ⟨le, same | ⟨_, moment, mem, _, upper⟩⟩
  · intro moment mem
    exact Nat.le_trans (past moment (same ▸ mem)) le
  · intro other mem'
    cases Option.mem_unique mem mem'
    exact upper

/-- A token that is cancelled stays so, since the same millisecond. -/
theorem Evolves.mem (h : s.Evolves s') (mem : moment ∈ s.cancelledSince) :
    moment ∈ s'.cancelledSince := by
  rcases h with ⟨_, same | ⟨none, _⟩⟩
  · exact same ▸ mem
  · rw [none] at mem
    cases mem

/-- A token that is not cancelled will not have been cancelled before now. -/
theorem Evolves.clock_le (h : s.Evolves s') (uncancelled : s.cancelled = false)
    (mem : moment ∈ s'.cancelledSince) : s.clock ≤ moment := by
  have none : s.cancelledSince = none := by simpa [cancelled] using uncancelled
  rcases h with ⟨_, same | ⟨_, other, mem', lower, _⟩⟩
  · rw [same, none] at mem
    cases mem
  · cases Option.mem_unique mem mem'
    exact lower

/-- The token is cancelled once there is a millisecond at which it was. -/
theorem cancelled_iff : s.cancelled = true ↔ ∃ moment, moment ∈ s.cancelledSince := by
  rw [cancelled, Option.isSome_iff_exists]
  exact Iff.rfl

theorem Evolves.cancelled (h : s.Evolves s') (cancelled : s.cancelled = true) :
    s'.cancelled = true := by
  obtain ⟨moment, mem⟩ := cancelled_iff.mp cancelled
  exact cancelled_iff.mpr ⟨moment, h.mem mem⟩

theorem clock_cancel (s : Shared C) (token : Token) : (s.cancel token).clock = s.clock := by
  cases token <;> rfl

theorem clock_stop (s : Shared C) (worker : Option String) : (s.stop worker).clock = s.clock := by
  unfold stop
  split <;> rfl

/-- Only waiting takes time: no request does. -/
theorem clock_answer (s : Shared C) (worker : Option String) (request : Request C) :
    (s.answer worker request).2.clock = s.clock := by
  cases request with
  | client request =>
    cases request with
    | cancel token => exact clock_cancel s token
    | stop => exact clock_stop s worker
    | _ => rfl
  | _ => rfl

/-- Cancelling a token leaves it cancelled since now, unless it was before. -/
theorem evolves_cancel (s : Shared C) (token : Token) : s.Evolves (s.cancel token) := by
  refine ⟨Nat.le_of_eq (clock_cancel s token).symm, ?_⟩
  cases h : s.cancelledSince with
  | none =>
    refine .inr ⟨rfl, s.clock, ?_, Nat.le_refl _, Nat.le_of_eq (clock_cancel s token).symm⟩
    cases token <;> simp [cancel, h]
  | some moment => cases token <;> exact .inl (by simp [cancel, h])

/-- A stop is a way for the state of the pool to go on. -/
theorem evolves_stop (s : Shared C) (worker : Option String) : s.Evolves (s.stop worker) := by
  unfold stop
  split
  · exact evolves_cancel (s.log worker ..) .own
  · exact .refl s

/-- Every request is a way for the state of the pool to go on. -/
theorem evolves_answer (s : Shared C) (worker : Option String) (request : Request C) :
    s.Evolves (s.answer worker request).2 := by
  cases request with
  | client request =>
    cases request with
    | cancel token => exact evolves_cancel s token
    | stop => exact evolves_stop s worker
    | _ => exact ⟨Nat.le_refl _, .inl rfl⟩
  | _ => exact ⟨Nat.le_refl _, .inl rfl⟩

theorem running_cancel (s : Shared C) (token : Token) : (s.cancel token).running = s.running := by
  cases token <;> rfl

theorem running_stop (s : Shared C) (worker : Option String) : (s.stop worker).running = s.running := by
  unfold stop
  split <;> rfl

/-- Running code does not end the run. -/
theorem running_answer (s : Shared C) (worker : Option String) (request : Request C) :
    (s.answer worker request).2.running = s.running := by
  cases request with
  | client request =>
    cases request with
    | cancel token => exact running_cancel s token
    | stop => exact running_stop s worker
    | _ => rfl
  | _ => rfl

/-- What a request is answered is an answer that it admits. -/
theorem admits_answer (s : Shared C) (worker : Option String) (request : Request C) :
    request.Admits s.clock (s.answer worker request).1 := by
  cases request with
  | now => exact rfl
  | _ => exact trivial

/-- Where neither the clock nor the cancellation has changed, nothing stands against it. -/
theorem Evolves.of_same (clock : s'.clock = s.clock) (since : s'.cancelledSince = s.cancelledSince) :
    s.Evolves s' :=
  ⟨Nat.le_of_eq clock.symm, .inl since⟩

end Shared

/-! ## The journal -/

/-- What a deed enters into the journal, apart from lines of the log. -/
def Deed.event? : Deed C → Option (Event C)
  | .asked (.enter call) _ => some (.call call)
  | .asked (.record metric) _ => some (.metric metric)
  | .asked (.client (.note n)) _ => some (.note n)
  | _ => none

/-- What a step enters into the journal, apart from lines of the log. -/
def Step.shown? (worker : Option String) (step : Step C) : Option (Entry C) :=
  step.deed.event?.map fun event => { time := step.time, worker, event }

/-- Whether an event is the work of running code: a call, a recording or a note. -/
def Event.isDeed : Event C → Bool
  | .call _ | .metric _ | .note _ => true
  | _ => false

namespace Shared

variable {s : Shared C}

/-- What is shared after entries into the journal. -/
def withEntries (s : Shared C) (entries : List (Entry C)) : Shared C :=
  { s with journal := (s.journal.toList ++ entries).toArray }

/-- Entries that are made at this moment. -/
def entries (s : Shared C) (worker : Option String) (events : List (Event C)) : List (Entry C) :=
  events.map fun event => { time := s.clock, worker, event }

@[simp] theorem withEntries_nil (s : Shared C) : s.withEntries [] = s := by
  simp [withEntries]

@[simp] theorem withEntries_withEntries (s : Shared C) (first second : List (Entry C)) :
    (s.withEntries first).withEntries second = s.withEntries (first ++ second) := by
  simp [withEntries]

theorem enter_eq (s : Shared C) (worker : Option String) (event : Event C) :
    s.enter worker event = s.withEntries [{ time := s.clock, worker, event }] := by
  have journal (entry : Entry C) : s.journal.push entry = (s.journal.toList ++ [entry]).toArray :=
    Array.ext' (by simp)
  rw [enter, withEntries, journal]

theorem enterLines_eq (s : Shared C) (worker : Option String) (lines : List LogLine) :
    s.enterLines worker lines = s.withEntries (s.entries worker (lines.map .log)) := by
  unfold enterLines
  induction lines generalizing s with
  | nil => simp [entries]
  | cons line rest ih =>
    rw [List.foldl_cons, ih, enter_eq, withEntries_withEntries]
    rfl

/-- What the journal shows of running code, apart from lines of the log. -/
def scene (s : Shared C) : List (Entry C) :=
  s.journal.toList.filter fun entry => entry.event.isDeed

/-- Of the entries, the deeds are shown. -/
theorem scene_withEntries (s : Shared C) (entries : List (Entry C)) :
    (s.withEntries entries).scene = s.scene ++ entries.filter fun entry => entry.event.isDeed := by
  simp [scene, withEntries]

/-- An event is shown if it is a deed. -/
theorem scene_enter (s : Shared C) (worker : Option String) (event : Event C) :
    (s.enter worker event).scene =
      s.scene ++ if event.isDeed then [{ time := s.clock, worker, event }] else [] := by
  simp only [scene, enter, Array.toList_push, List.filter_append, List.filter_cons, List.filter_nil]

theorem scene_stop (s : Shared C) (worker : Option String) : (s.stop worker).scene = s.scene := by
  unfold stop
  split
  · exact (scene_enter ..).trans (List.append_nil _)
  · rfl

/-- A request is shown as a step at the current time, if it is shown at all. -/
theorem scene_answer (s : Shared C) (worker : Option String) (request : Request C)
    (answer : request.Answer) :
    (s.answer worker request).2.scene =
      s.scene ++ (Step.shown? worker ⟨s.clock, .asked request answer⟩).toList := by
  cases request with
  | enter | record => exact scene_enter ..
  | client request =>
    cases request with
    | note => exact scene_enter ..
    | cancel token => cases token <;> exact (List.append_nil _).symm
    | stop => exact (scene_stop s worker).trans (List.append_nil _).symm
    | update => exact (List.append_nil _).symm
  | log => exact scene_enter ..
  | now | ended | registered | register | tally | escalate => exact (List.append_nil _).symm

end Shared

end WorkerPool
