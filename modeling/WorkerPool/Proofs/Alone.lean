import WorkerPool.Progress
import WorkerPool.Proofs.Requests

/-!
# Code that runs alone

`Program.playAlone` runs code to its end with nothing else going on. What it does is one of the runs
that the code may have in any surroundings (`playAlone_runs`), the token being cancelled in the
millisecond that shows in the end; so a law about all runs is one about `playAlone`.
-/

namespace WorkerPool

variable {C : Client} {α : Type} {s s' : Shared C}

namespace Shared

/-- The ways in which a wait passes with nothing else going on, the token being cancelled from outside
in millisecond `moment` where one is named. -/
inductive SleepsAlone (s : Shared C) (ms : Nat) : (heedsCancel : Bool) → Wake → Shared C → Prop
  | noticed (h : s.cancelled = true) : SleepsAlone s ms true .cancelled s
  | unneeded {heeds : Bool} (h : heeds = true → s.cancelled = false) (none : ms = 0) :
      SleepsAlone s ms heeds .elapsed s
  | woken {moment : Nat} (h : s.cancelled = false) (le : s.clock ≤ moment)
      (before : moment ≤ s.clock + waited ms) :
      SleepsAlone s ms true .cancelled ({ s with clock := moment }.cancel .own)
  | unmoved {moment : Nat} (h : s.cancelled = false) (le : s.clock ≤ moment)
      (before : moment ≤ s.clock + waited ms) :
      SleepsAlone s ms false .elapsed
        { { s with clock := moment }.cancel .own with clock := s.clock + waited ms }
  | elapsed {heeds : Bool} (h : heeds = true → s.cancelled = false) :
      SleepsAlone s ms heeds .elapsed { s with clock := s.clock + waited ms }

/-- Sleeping alone is a wait as code may see it: the clock goes on to the end of the wait, or to the
cancellation if that comes before. -/
theorem sleepsAlone (cancelAt : Option Nat) (ms : Nat) (heeds : Bool) (s : Shared C) :
    s.SleepsAlone ms heeds (s.sleepAlone cancelAt ms heeds).1 (s.sleepAlone cancelAt ms heeds).2 := by
  unfold sleepAlone
  split
  · next noticed =>
    obtain ⟨rfl, cancelled⟩ := (Bool.and_eq_true ..).mp noticed
    exact .noticed cancelled
  · next unnoticed =>
    have h : heeds = true → s.cancelled = false := by simpa using unnoticed
    split
    · next none => exact .unneeded h none
    · dsimp only
      split
      · next moment found =>
        obtain ⟨_, before⟩ := Option.filter_eq_some_iff.mp found
        simp only [Bool.and_eq_true, Bool.not_eq_true', decide_eq_true_eq] at before
        have le : max s.clock moment ≤ s.clock + waited ms := by omega
        cases heeds with
        | true => exact .woken before.1 (Nat.le_max_left ..) le
        | false => exact .unmoved before.1 (Nat.le_max_left ..) le
      · exact .elapsed h

/-- A token that is cancelled for the first time is cancelled since that moment. -/
theorem cancelledSince_cancel_own (h : s.cancelled = false) (moment : Nat) :
    ({ s with clock := moment }.cancel .own).cancelledSince = some moment := by
  have none : s.cancelledSince = none := by simpa [cancelled] using h
  simp [cancel, none]

/-- Sleeping never turns the clock back, nor undoes a cancellation. -/
theorem SleepsAlone.evolves {ms : Nat} {heeds : Bool} {wake : Wake}
    (h : s.SleepsAlone ms heeds wake s') : s.Evolves s' := by
  cases h with
  | noticed | unneeded => exact .refl s
  | woken h le _ =>
    have none : s.cancelledSince = none := by simpa [cancelled] using h
    exact ⟨le, .inr ⟨none, _, cancelledSince_cancel_own h _, le, Nat.le_refl _⟩⟩
  | unmoved h le before =>
    have none : s.cancelledSince = none := by simpa [cancelled] using h
    exact ⟨Nat.le_add_right .., .inr ⟨none, _, cancelledSince_cancel_own h _, le, before⟩⟩
  | elapsed => exact ⟨Nat.le_add_right .., .inl rfl⟩

/-- Sleeping leaves nothing in the journal. -/
theorem SleepsAlone.scene {ms : Nat} {heeds : Bool} {wake : Wake}
    (h : s.SleepsAlone ms heeds wake s') : s'.scene = s.scene := by
  cases h <;> rfl

/-- How a wait ends that passes alone is one of the ways in which it may end. -/
theorem SleepsAlone.waitEnds {ms : Nat} {heeds : Bool} {wake : Wake} {s₁ : Shared C}
    (h : s.SleepsAlone ms heeds wake s₁) (past : s.PastCancel) (later : s₁.Evolves s') :
    WaitEnds s'.cancelledSince s.clock ms heeds wake s₁.clock := by
  cases h with
  | noticed h =>
    obtain ⟨moment, mem⟩ := cancelled_iff.mp h
    have le := past moment mem
    have ends : WaitEnds s'.cancelledSince s.clock ms true .cancelled (max s.clock moment) :=
      .cancelled (later.mem mem) (by omega)
    rwa [Nat.max_eq_left le] at ends
  | unneeded h none =>
    subst none
    exact .elapsed fun heeded moment mem => later.clock_le (h heeded) mem
  | woken h le before =>
    rename_i moment
    have mem : moment ∈ s'.cancelledSince := later.mem (cancelledSince_cancel_own h moment)
    have ends := WaitEnds.cancelled (t := s.clock) mem before
    rwa [Nat.max_eq_right le] at ends
  | unmoved => exact .elapsed nofun
  | elapsed h => exact .elapsed fun heeded moment mem => later.clock_le (h heeded) mem

end Shared

namespace Program

/-- Code that is run alone never turns the clock back, nor undoes a cancellation. -/
theorem evolves_playAlone (worker : Option String) (cancelAt : Option Nat) (p : Code C α)
    (s : Shared C) : s.Evolves (p.playAlone worker cancelAt s).2 := by
  induction p generalizing s with
  | done | panic => exact .refl s
  | ask request next ih => exact (s.evolves_answer worker request).trans (ih _ _)
  | wait ms heeds next ih => exact (s.sleepsAlone cancelAt ms heeds).evolves.trans (ih _ _)

/-- What code does alone, it may do in surroundings where the token is cancelled when it will have
been; and the journal shows what it did. -/
theorem playAlone_runs_later (worker : Option String) (cancelAt : Option Nat) (p : Code C α)
    (past : s.PastCancel) (later : (p.playAlone worker cancelAt s).2.Evolves s') :
    ∃ steps,
      p.Runs s'.cancelledSince s.clock steps (p.playAlone worker cancelAt s).1
        (p.playAlone worker cancelAt s).2.clock ∧
      (p.playAlone worker cancelAt s).2.scene = s.scene ++ steps.filterMap (·.shown? worker) := by
  induction p generalizing s with
  | done value => exact ⟨[], .done value _, (List.append_nil _).symm⟩
  | panic x => exact ⟨[], .panic x _, (List.append_nil _).symm⟩
  | ask request next ih =>
    obtain ⟨steps, run, scene⟩ :=
      ih (s.answer worker request).1 ((s.evolves_answer worker request).pastCancel past) later
    refine ⟨_, .ask (s.admits_answer worker request) (s.clock_answer worker request ▸ run), ?_⟩
    rw [playAlone, scene, s.scene_answer worker request (s.answer worker request).1,
      List.filterMap_cons, List.append_assoc]
    cases Step.shown? worker ⟨s.clock, .asked request (s.answer worker request).1⟩ <;> rfl
  | wait ms heeds next ih =>
    have slept := s.sleepsAlone cancelAt ms heeds
    obtain ⟨steps, run, scene⟩ := ih _ (slept.evolves.pastCancel past) later
    refine ⟨_, .wait (slept.waitEnds past ((evolves_playAlone ..).trans later)) run, ?_⟩
    rw [playAlone, scene, slept.scene]
    rfl

/-- Code that is run alone runs as `Program.Runs` has it, and its steps are what the journal shows. -/
theorem playAlone_runs (worker : Option String) (cancelAt : Option Nat) (p : Code C α)
    (past : s.PastCancel) :
    ∃ steps,
      p.Runs (p.playAlone worker cancelAt s).2.cancelledSince s.clock steps
        (p.playAlone worker cancelAt s).1 (p.playAlone worker cancelAt s).2.clock ∧
      (p.playAlone worker cancelAt s).2.scene = s.scene ++ steps.filterMap (·.shown? worker) :=
  playAlone_runs_later worker cancelAt p past (.refl _)

/-- The run of code whose end can be computed. -/
theorem runs_of_playAlone (worker : Option String) (cancelAt : Option Nat) {p : Code C α}
    {e : Except Panic α} {T : Option Nat} {t' : Nat} (past : s.PastCancel)
    (result : (p.playAlone worker cancelAt s).1 = e)
    (since : (p.playAlone worker cancelAt s).2.cancelledSince = T)
    (finished : (p.playAlone worker cancelAt s).2.clock = t') :
    ∃ steps, p.Runs T s.clock steps e t' := by
  subst result since finished
  obtain ⟨steps, run, _⟩ := playAlone_runs worker cancelAt p past
  exact ⟨steps, run⟩

end Program

/-! ## Surroundings in which nothing has happened -/

instance decidableEqExcept {ε : Type} [DecidableEq ε] [DecidableEq α] : DecidableEq (Except ε α)
  | .ok a, .ok b => decidable_of_iff (a = b) (by rw [Except.ok.injEq])
  | .error e, .error e' => decidable_of_iff (e = e') (by rw [Except.error.injEq])
  | .ok _, .error _ | .error _, .ok _ => .isFalse nofun

/-- The client that brings nothing along. -/
def Client.bare : Client where
  Task := Unit
  Hook := Unit
  State := Unit
  Note := Unit

/-- What is shared before anything has happened. -/
def Shared.fresh : Shared .bare where
  pool := ""
  channel := { capacity := 1 }
  state := ()

/-- In a fresh state no cancellation is still to come. -/
theorem Shared.fresh_pastCancel : Shared.fresh.PastCancel :=
  nofun

end WorkerPool
