import WorkerPool.Proofs.Disposal
import WorkerPool.Proofs.Draining
import WorkerPool.Proofs.Planning

/-!
# A worker's loop cannot spin

The loop of a worker has no counter. What keeps it from going round and round is that it waits before each call of its
work, and that a wait which heeds the token does not run out after the token was cancelled. So the measure of a loop is
the time that is left until the cancellation: a segment that goes on to another one takes at least the shorter of the
two intervals from it, whatever the outcome of the call was, a panic that took no time included (`Moves.paced`).

It follows that no more calls are made before a cancellation than intervals fit in, that the loop is over with the
segment after them, and that running it that far is enough (`Worker.EndsWithin`). A pool has no interval of zero, since
its plan replaces them, so that the same holds for each of its workers (`Pool.runs_paced`).
-/

namespace WorkerPool

variable {C : Client} {t t' T moment : Nat}

/-- The shortest wait before a call, in nanoseconds: the shorter of the intervals, but never more than the longest wait
there is. -/
def PollSchedule.leastNanos (schedule : PollSchedule) : Nat :=
  min (min schedule.active.toNanos schedule.idle.toNanos) (longestWait * nanosPerMilli)

/-- A wait for a duration is not over before the duration is, or else it is the longest wait there is. -/
theorem Duration.le_waited_ceilMillis (d : Duration) :
    Min.min d.toNanos (longestWait * nanosPerMilli) ≤ waited d.ceilMillis * nanosPerMilli := by
  unfold waited ceilMillis longestWait nanosPerMilli
  omega

/-- Whichever interval a worker waits for, it waits no less than the shortest wait. -/
theorem PollSchedule.leastNanos_le {schedule : PollSchedule} {state : WorkerState} {delay : Duration}
    (interval : schedule.interval? state = some delay) :
    schedule.leastNanos ≤ waited delay.ceilMillis * nanosPerMilli := by
  have long := delay.le_waited_ceilMillis
  have shorter : schedule.leastNanos ≤ min delay.toNanos (longestWait * nanosPerMilli) := by
    unfold leastNanos
    cases state with
    | active =>
      cases interval
      omega
    | idle =>
      cases interval
      omega
    | shuttingDown | terminated => cases interval
  exact Nat.le_trans shorter long

/-- Whether so many of the shortest waits, one after the other from a millisecond on, are over after the cancellation
only. -/
def PollSchedule.Outlasts (schedule : PollSchedule) (waits t moment : Nat) : Prop :=
  moment * nanosPerMilli < t * nanosPerMilli + waits * schedule.leastNanos

namespace PollSchedule.Outlasts

variable {schedule : PollSchedule} {waits : Nat}

/-- A single wait that outlasts the cancellation is not over before it. -/
theorem not_before (outlasts : schedule.Outlasts 1 t moment) :
    ¬t * nanosPerMilli + schedule.leastNanos ≤ moment * nanosPerMilli := by
  rw [Outlasts, Nat.one_mul] at outlasts
  exact Nat.not_le.mpr outlasts

/-- After one of the waits, those that are left do. -/
theorem step (outlasts : schedule.Outlasts (waits + 1) t moment)
    (took : t * nanosPerMilli + schedule.leastNanos ≤ t' * nanosPerMilli) : schedule.Outlasts waits t' moment :=
  calc moment * nanosPerMilli
    _ < t * nanosPerMilli + (waits + 1) * schedule.leastNanos := outlasts
    _ = t * nanosPerMilli + schedule.leastNanos + waits * schedule.leastNanos := by rw [Nat.succ_mul]; omega
    _ ≤ t' * nanosPerMilli + waits * schedule.leastNanos := Nat.add_le_add_right took _

/-- One wait more than fit into the time until the cancellation. -/
theorem of_div (pos : 0 < schedule.leastNanos) (le : moment ≤ t + T) :
    schedule.Outlasts (T * nanosPerMilli / schedule.leastNanos + 1) t moment := by
  have fits := Nat.lt_mul_div_succ (T * nanosPerMilli) pos
  rw [Nat.mul_comm schedule.leastNanos] at fits
  calc moment * nanosPerMilli
    _ ≤ (t + T) * nanosPerMilli := Nat.mul_le_mul_right _ le
    _ = t * nanosPerMilli + T * nanosPerMilli := Nat.add_mul ..
    _ < _ := Nat.add_lt_add_left fits _

end PollSchedule.Outlasts

namespace Worker

variable {w : Worker C} {steps : List (Step C)}

/-! ## Segments -/

/-- A segment after which the loop goes on began its call in time before the cancellation, and took no less than the
shortest wait. -/
theorem Moves.paced {state next : WorkerState} {changed : List (String × String)}
    (moves : w.Moves (some moment) state t steps changed (some next) t') :
    t * nanosPerMilli + w.schedule.leastNanos ≤ moment * nanosPerMilli ∧
      t * nanosPerMilli + w.schedule.leastNanos ≤ t' * nanosPerMilli := by
  cases moves with
  | works interval wait run =>
    have long := PollSchedule.leastNanos_le interval
    obtain ⟨begun, heeded⟩ := waitEnds_elapsed_iff.mp wait
    have before := heeded rfl moment rfl
    have ended := Program.Runs.le run
    unfold nanosPerMilli at long ⊢
    omega

/-- However the code goes from a millisecond on, a worker's loop is over after at most so many segments, of which the
code is the first. -/
def OverWithin (w : Worker C) (moment : Nat) : (segments : Nat) → Code C (Option WorkerState) → (t : Nat) → Prop
  | 0, _, _ => False
  | segments + 1, code, t => ∀ steps e t', code.Runs (some moment) t steps e t' →
    ∃ next, e = .ok next ∧ ∀ state, next = some state → w.OverWithin moment segments (w.segment state) t'

/-- A loop is over within as many segments as waits are needed to outlast the cancellation. The induction is on the
segments that are left; each of them takes a wait from the time that is left. -/
theorem overWithin_segment {segments : Nat} {state : WorkerState}
    (outlasts : w.schedule.Outlasts (segments + 1) t moment) :
    w.OverWithin moment (segments + 1) (w.segment state) t := by
  induction segments generalizing t state with
  | zero =>
    intro steps e t' run
    obtain ⟨next, rfl, moves⟩ := segment_moves run
    refine ⟨next, rfl, ?_⟩
    rintro state rfl
    exact absurd moves.paced.1 outlasts.not_before
  | succ segments ih =>
    intro steps e t' run
    obtain ⟨next, rfl, moves⟩ := segment_moves run
    refine ⟨next, rfl, ?_⟩
    rintro state rfl
    exact ih (outlasts.step moves.paced.2)

/-- The same holds from the start of the worker on: what it records and logs before its first segment takes no
time. -/
theorem overWithin_start {segments : Nat} (outlasts : w.schedule.Outlasts (segments + 1) t moment) :
    w.OverWithin moment (segments + 1) w.start t := by
  have first : w.OverWithin moment (segments + 1) (w.segment .active) t := overWithin_segment outlasts
  intro steps e t' run
  -- What is done before the first segment takes no time.
  simp only [start, opening, bind_assoc, Code.runs_record_bind, Code.runs_log_bind] at run
  obtain ⟨_, rfl, _, rfl, run⟩ := run
  exact first _ e t' run

end Worker

/-! ## Loops that run alone -/

/-- A wait that heeds the token and runs out is over before the token is cancelled. -/
theorem Shared.sleepAlone_elapsed {s : Shared C} {ms : Nat} (long : ms ≠ 0)
    (slept : (s.sleepAlone (some moment) ms true).1 = .elapsed) :
    (s.sleepAlone (some moment) ms true).2.clock = s.clock + waited ms ∧ s.clock + waited ms ≤ moment := by
  have cut : waited moment ≤ moment := Nat.min_le_left ..
  cases cancelled : s.cancelled with
  | true => simp [sleepAlone, cancelled] at slept
  | false =>
    by_cases caught : waited moment < s.clock + waited ms
    · simp [sleepAlone, cancelled, long, Option.filter, caught] at slept
    · have clock : (s.sleepAlone (some moment) ms true).2.clock = s.clock + waited ms := by
        simp [sleepAlone, cancelled, long, Option.filter, caught]
      exact ⟨clock, by omega⟩

namespace Worker

variable {w : Worker C} {s : Shared C}

/-- A segment that runs alone is the last one, or it took no less than the shortest wait, in time before the
cancellation. -/
theorem segment_alone {state next : WorkerState} {s' : Shared C} (pos : 0 < w.schedule.leastNanos)
    (played : (w.segment state).playAlone (some w.id) (some moment) s = (.ok (some next), s')) :
    s.clock * nanosPerMilli + w.schedule.leastNanos ≤ moment * nanosPerMilli ∧
      s.clock * nanosPerMilli + w.schedule.leastNanos ≤ s'.clock * nanosPerMilli := by
  cases interval : w.schedule.interval? state with
  | none =>
    rw [segment_of_over interval] at played
    cases congrArg Prod.fst played
  | some delay =>
    have least := PollSchedule.leastNanos_le interval
    -- A wait of no length would be shorter than the shortest one.
    have long : delay.ceilMillis ≠ 0 := by
      intro none
      rw [none] at least
      exact absurd least (Nat.not_le.mpr pos)
    rw [segment_of_interval interval, Program.playAlone] at played
    have evolves := Program.evolves_playAlone (some w.id) (some moment)
      (w.wakeUp state (s.sleepAlone (some moment) delay.ceilMillis true).1)
      (s.sleepAlone (some moment) delay.ceilMillis true).2
    rw [played] at evolves
    -- Woken by the cancellation, the worker leaves, so that there is no next state.
    cases slept : (s.sleepAlone (some moment) delay.ceilMillis true).1 with
    | cancelled =>
      rw [slept] at played
      cases congrArg Prod.fst played
    | elapsed =>
      obtain ⟨clock, before⟩ := Shared.sleepAlone_elapsed long slept
      have after : _ ≤ s'.clock := evolves.1
      unfold nanosPerMilli at least ⊢
      omega

/-- Run alone, a loop is over once the waits that outlast the cancellation are used up: a segment after which it
goes on takes one of them away. -/
theorem isSome_loopAlone {segments : Nat} {state : WorkerState} (pos : 0 < w.schedule.leastNanos)
    (outlasts : w.schedule.Outlasts (segments + 1) s.clock moment) :
    (w.loopAlone (some moment) (segments + 1) (w.segment state) s).isSome = true := by
  induction segments generalizing s state with
  | zero =>
    unfold loopAlone
    split
    · next played => exact absurd (segment_alone pos played).1 outlasts.not_before
    · rfl
  | succ segments ih =>
    unfold loopAlone
    split
    · next played => exact ih (outlasts.step (segment_alone pos played).2)
    · rfl

/-- A worker that runs alone is done within as many segments as waits are needed to outlast the cancellation. -/
theorem isSome_runAlone {segments : Nat} (pos : 0 < w.schedule.leastNanos)
    (outlasts : w.schedule.Outlasts (segments + 1) s.clock moment) :
    (w.runAlone (some moment) (segments + 1) s).isSome = true := by
  have first (begun : Shared C) (clock : begun.clock = s.clock) :
      (w.loopAlone (some moment) (segments + 1) (w.segment .active) begun).isSome = true :=
    isSome_loopAlone pos (clock ▸ outlasts)
  -- What is done before the first segment takes no time.
  exact first _ rfl

/-! ## Calls -/

/-- Each call of a tour begins after as many of the shortest waits as there are calls up to it. -/
theorem Tour.begun_ge {next : Option WorkerState} {steps : List (Step C)} {shifts : List (Shift C)}
    (tour : w.Tour (some moment) t steps next t' shifts) (i : Nat) (shift : Shift C) (at_i : shifts[i]? = some shift) :
    t * nanosPerMilli + (i + 1) * w.schedule.leastNanos ≤ shift.call.begun * nanosPerMilli := by
  induction i generalizing shift with
  | zero =>
    have active : w.schedule.interval? .active = some w.schedule.active := rfl
    have long := PollSchedule.leastNanos_le active
    rw [tour.first shift at_i, Nat.add_mul t, Nat.one_mul]
    exact Nat.add_le_add_left long _
  | succ i ih =>
    obtain ⟨last, at_last⟩ : ∃ last, shifts[i]? = some last :=
      ⟨_, List.getElem?_eq_getElem (Nat.lt_of_succ_lt (List.getElem?_eq_some_iff.mp at_i).1)⟩
    obtain ⟨-, delay, interval, begun⟩ := tour.between i last shift at_last at_i
    have long := PollSchedule.leastNanos_le interval
    have ended : last.call.begun ≤ last.call.ended :=
      Program.Runs.le (tour.isOf last (List.mem_of_getElem? at_last))
    calc t * nanosPerMilli + (i + 1 + 1) * w.schedule.leastNanos
      _ = t * nanosPerMilli + (i + 1) * w.schedule.leastNanos + w.schedule.leastNanos := by
        rw [Nat.succ_mul (i + 1), Nat.add_assoc]
      _ ≤ last.call.begun * nanosPerMilli + w.schedule.leastNanos := Nat.add_le_add_right (ih last at_last) _
      _ ≤ last.call.ended * nanosPerMilli + waited delay.ceilMillis * nanosPerMilli :=
        Nat.add_le_add (Nat.mul_le_mul_right _ ended) long
      _ = shift.call.begun * nanosPerMilli := by rw [begun, Nat.add_mul]

/-- No more calls are made than the shortest waits fit into the time until the cancellation. -/
theorem Tour.length_le {next : Option WorkerState} {steps : List (Step C)} {shifts : List (Shift C)}
    (tour : w.Tour (some moment) t steps next t' shifts) (pos : 0 < w.schedule.leastNanos) (le : moment ≤ t + T) :
    shifts.length ≤ T * nanosPerMilli / w.schedule.leastNanos := by
  cases length : shifts.length with
  | zero => exact Nat.zero_le _
  | succ i =>
    obtain ⟨last, at_last⟩ : ∃ last, shifts[i]? = some last :=
      ⟨_, List.getElem?_eq_getElem (by omega)⟩
    have late := tour.begun_ge i last at_last
    have heeded := tour.heeded last (List.mem_of_getElem? at_last) moment rfl
    rw [Nat.le_div_iff_mul_le pos]
    refine Nat.le_of_add_le_add_left (a := t * nanosPerMilli) ?_
    calc t * nanosPerMilli + (i + 1) * w.schedule.leastNanos
      _ ≤ last.call.begun * nanosPerMilli := late
      _ ≤ (t + T) * nanosPerMilli := Nat.mul_le_mul_right _ (Nat.le_trans heeded le)
      _ = t * nanosPerMilli + T * nanosPerMilli := Nat.add_mul ..

/-- A worker's loop that begins in millisecond `t` and whose token is cancelled in millisecond `moment` is over after at
most `limit` calls of the work. -/
structure EndsWithin (w : Worker C) (moment t limit : Nat) : Prop where
  /-- Whatever a loop does, it has made no more calls than that. -/
  calls : ∀ steps e t', w.Loops (some moment) t steps e t' →
    ∃ next shifts, e = .ok next ∧ w.Tour (some moment) t steps next t' shifts ∧ shifts.length ≤ limit
  /-- However it goes on, it is over with the segment after the last of these calls. -/
  bounded : w.OverWithin moment (limit + 1) w.start t
  /-- Running so many segments is enough for it to be over. -/
  alone : ∀ s : Shared C, s.clock = t → (w.runAlone (some moment) (limit + 1) s).isSome = true

/-- No more calls are made than the shortest waits fit into the time until the cancellation, and the loop is
then over. -/
theorem endsWithin (pos : 0 < w.schedule.leastNanos) (le : moment ≤ t + T) :
    w.EndsWithin moment t (T * nanosPerMilli / w.schedule.leastNanos) where
  calls steps e t' loops := by
    obtain ⟨next, shifts, ending, tour⟩ := loops.tour
    exact ⟨next, shifts, ending, tour, tour.length_le pos le⟩
  bounded := overWithin_start (.of_div pos le)
  alone s clock := isSome_runAlone pos (clock ▸ .of_div pos le)

end Worker

namespace Pool

/-- What a worker of a pool has done so far, since millisecond `t`, is the beginning of a loop with at most
`limit` calls, and all of a loop that is over if the worker has left. -/
def CallsWithin (p : Pool C) (events : List (Nat × Step C)) (n moment t limit : Nat) : Prop :=
  ∀ seat, p.crew[n]? = some seat → ∃ ahead next t' shifts,
    seat.worker.Tour (some moment) t (history n events ++ ahead) next t' shifts ∧ shifts.length ≤ limit ∧
      (seat.thread = .exited → ahead = [] ∧ next = none)

variable {p : Pool C} {plan : PoolPlan C} {events : List (Nat × Step C)}

/-- Every worker of a running pool keeps within the calls that a loop of its schedule can make. -/
theorem Underway.callsWithin (h : Underway plan p events t) (cancelled : p.shared.cancelledSince = some moment)
    (pos : 0 < plan.schedule.leastNanos) (le : moment ≤ t + T) (n : Nat) :
    p.CallsWithin events n moment t (T * nanosPerMilli / plan.schedule.leastNanos) := by
  intro seat at_n
  have : Nonempty C.State := ⟨p.shared.state⟩
  obtain ⟨ahead, next, t', loops, left⟩ := (h.at_history n seat at_n).exists_loops
  rw [cancelled] at loops
  obtain ⟨_, shifts, ending, tour⟩ := loops.tour
  cases ending
  have schedule : seat.worker.schedule = plan.schedule := by rw [h.worker_eq at_n]; rfl
  have few := tour.length_le (schedule ▸ pos) le
  rw [schedule] at few
  exact ⟨ahead, next, t', shifts, tour, few, left⟩

end Pool

/-- A number of milliseconds that is replaced by a default if it is zero, as a duration. -/
theorem Duration.toNanos_nonZeroOr_of_whole {d : Duration} {ms : Nat} (whole : d.toNanos = ms * nanosPerMilli)
    (default : UInt64) :
    (d.nonZeroOr default).toNanos = (if ms = 0 then default.toNat else ms) * nanosPerMilli := by
  unfold nonZeroOr
  by_cases none : ms = 0
  · subst none
    have zero : d.isZero = true := isZero_iff.mpr (toNanos_injective (by rw [whole, Nat.zero_mul, toNanos_zero]))
    rw [if_pos zero, if_pos rfl, toNanos_ofMillis]
  · have some : ¬d.isZero = true := by
      intro zero
      rw [isZero_iff.mp zero, toNanos_zero, nanosPerMilli] at whole
      omega
    rw [if_neg some, if_neg none, whole]

/-- The shortest wait of a plan from whole milliseconds, which is not zero whatever they are. -/
theorem PoolBuilder.leastNanos_plan (b : PoolBuilder C) {poll idle : Nat}
    (active : b.pollInterval.toNanos = poll * nanosPerMilli) (rest : b.idleInterval.toNanos = idle * nanosPerMilli) :
    b.plan.schedule.leastNanos =
        min (min (if poll = 0 then 100 else poll) (if idle = 0 then 5000 else idle)) longestWait * nanosPerMilli ∧
      0 < min (min (if poll = 0 then 100 else poll) (if idle = 0 then 5000 else idle)) longestWait := by
  constructor
  · rw [← Nat.mul_min_mul_right, ← Nat.mul_min_mul_right]
    exact congrArg₂ (fun first second => min (min first second) (longestWait * nanosPerMilli))
      (Duration.toNanos_nonZeroOr_of_whole active defaultPollMillis)
      (Duration.toNanos_nonZeroOr_of_whole rest defaultIdleMillis)
  · unfold longestWait
    split <;> split <;> omega

namespace Pool

/-- A worker both of whose intervals are a millisecond at least, and whose token is cancelled so many milliseconds after
its loop began or before that, makes no more calls of its work than the shortest wait fits into that time, and then its
loop is over. The same holds for each worker of a pool, whatever whole milliseconds its intervals were built from, and
with the default in the place of a zero; and then the run returns. -/
theorem runs_paced :
    (∀ (w : Worker C) (t T moment : Nat), nanosPerMilli ≤ w.schedule.active.toNanos →
      nanosPerMilli ≤ w.schedule.idle.toNanos → moment ≤ t + T →
      w.EndsWithin moment t (T * nanosPerMilli / w.schedule.leastNanos)) ∧
    ∀ (b : PoolBuilder C) (state : C.State) (poll idle : Nat), b.pollInterval.toNanos = poll * nanosPerMilli →
      b.idleInterval.toNanos = idle * nanosPerMilli →
      ∀ (limit T : Nat),
        limit = T / min (min (if poll = 0 then 100 else poll) (if idle = 0 then 5000 else idle)) longestWait →
        ∀ (events : List (Nat × Step C)) (p : Pool C) (t moment : Nat), (build b state).Runs events p →
          p.startedAt = some t → p.shared.cancelledSince = some moment → moment ≤ t + T →
          (∀ n, (b.plan.worker n).EndsWithin moment t limit ∧ p.CallsWithin events n moment t limit) ∧
          ∃ more q, p.Runs more q ∧ q.returned.isSome = true := by
  refine ⟨?_, ?_⟩
  · intro w t T moment active idle le
    have pos : 0 < w.schedule.leastNanos := by
      unfold PollSchedule.leastNanos longestWait nanosPerMilli at *
      omega
    exact w.endsWithin pos le
  · rintro b state poll idle active rest _ T rfl events p t moment runs started cancelled le
    -- The plan of a pool has no interval of zero, since those are replaced by defaults.
    obtain ⟨least, shortest⟩ := b.leastNanos_plan active rest
    have pos : 0 < b.plan.schedule.leastNanos := by
      rw [least]
      exact Nat.mul_pos shortest (by decide)
    have limit : T * nanosPerMilli / b.plan.schedule.leastNanos =
        T / min (min (if poll = 0 then 100 else poll) (if idle = 0 then 5000 else idle)) longestWait := by
      rw [least]
      exact Nat.mul_div_mul_right _ _ (by decide)
    have underway := runs_underway b state runs started
    have ended : p.shared.cancelled = true := Shared.cancelled_iff.mpr ⟨moment, cancelled⟩
    rw [← limit]
    refine ⟨fun n => ⟨?_, underway.callsWithin cancelled pos le n⟩, underway.runs_return ended⟩
    exact (b.plan.worker n).endsWithin pos le

/-- Finds a task whenever asked, and completes it without more ado. -/
def obliging : Processor .bare :=
  { hasty with complete := fun _ _ => .done (.ok ()) }

/-- A pool of one worker that is built with no time at all between two calls. -/
def breathless : PoolBuilder .bare :=
  { lonely with processor := obliging, pollInterval := .zero }

/-- A worker with intervals of 10 and 20 ms that is cancelled after 35 ms, and a worker with a poll interval of
zero whose pool is stopped after 250 ms. -/
theorem runs_paced_of_two :
    Worker.brief.EndsWithin 35 0 3 ∧
    ∃ events p, (build breathless ()).Runs events p ∧ p.shared.cancelledSince = some 250 ∧
      p.CallsWithin events 0 250 0 2 ∧ ∃ more q, p.Runs more q ∧ q.returned.isSome = true := by
  obtain ⟨events, runs⟩ := runs_perform breathless () [.start, .advance 250, .stop]
  have started : ((build breathless ()).perform [.start, .advance 250, .stop]).startedAt = some 0 := by decide +kernel
  have cancelled : ((build breathless ()).perform [.start, .advance 250, .stop]).shared.cancelledSince = some 250 := by
    decide +kernel
  have alone := (runs_paced (C := .bare)).1 Worker.brief 0 35 35 (by decide) (by decide) (by decide)
  obtain ⟨each, returns⟩ := runs_paced.2 breathless () 0 5000 (by decide) (by decide) 2 250 (by decide) events _
    0 250 runs started cancelled (by decide)
  exact ⟨alone, events, _, runs, cancelled, (each 0).2, returns⟩

end Pool

namespace Worker

/-- A wait may end before its time. A worker both of whose intervals are `2 ^ 63` seconds makes a call within a
time into which not a single interval fits: its first call begins after thirty years, a millisecond before the
cancellation. -/
theorem called_before_interval :
    let interval : Duration := { secs := 9223372036854775808, nanos := 0 }
    let patient : Worker .bare := { brief with schedule := { active := interval, idle := interval } }
    ∃ steps shifts, patient.Loops (some 946080000001) 0 steps (.ok none) 946080000000 ∧
      patient.Tour (some 946080000001) 0 steps none 946080000000 shifts ∧
      946080000001 * nanosPerMilli / min interval.toNanos interval.toNanos < shifts.length := by
  intro interval patient
  have finished : ∃ steps, patient.Loops none 0 steps (.ok none) 946080000000 :=
    loops_of_runAlone none 3 Shared.fresh_pastCancel (by decide +kernel)
  obtain ⟨steps, uncancelled⟩ := finished
  have loops := uncancelled.cancel_later (show 946080000000 ≤ 946080000001 by decide)
  obtain ⟨next, shifts, ending, tour⟩ := loops.tour
  cases ending
  refine ⟨steps, shifts, loops, tour, ?_⟩
  -- The loop was over before the cancellation, so it is over because of a call.
  have called : 0 < shifts.length := by
    rcases tour.finished rfl with ⟨last, last_eq, _⟩ | ⟨_, moment, _, mem, _, left⟩
    · exact List.length_pos_of_mem (List.mem_of_getLast? last_eq)
    · cases mem
      have late := Nat.le_max_right (since 0 shifts) 946080000001
      rw [← left] at late
      exact absurd late (by decide)
  have none : 946080000001 * nanosPerMilli / min interval.toNanos interval.toNanos = 0 := by decide
  rwa [none]

end Worker

end WorkerPool
