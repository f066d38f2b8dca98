import WorkerPool.Metrics.Reports

/-!
# When tickers go off

A ticker that was set off at millisecond `start` goes off at the end of each of its periods, in the first
whole millisecond that is not before that. By a later millisecond it has done so as often as periods have
gone by (`Ticker.periods`), whatever happened in between, and `Ticker.IsOn` is this invariant, which going
off keeps (`Ticker.IsOn.passed`). `Ticker.ticks` are the milliseconds at which it goes off in a stretch
of time; the ticks of two stretches, one after the other, are those of the whole (`Ticker.ticks_append`).
-/

namespace WorkerPool

namespace Ticker

variable {nanos start now due later : Nat}

/-- The period of a ticker that was asked for with this duration. -/
def nanosOf (d : Duration) : Nat :=
  min d.toNanos (longestWait * nanosPerMilli)

theorem nanosOf_pos {d : Duration} (long : d ≠ .zero) : 0 < nanosOf d := by
  have : d.toNanos ≠ 0 := fun none_long => long (Duration.toNanos_injective none_long)
  simp only [nanosOf, longestWait, nanosPerMilli]
  omega

/-- How many periods have gone by from millisecond `start` to millisecond `now`. -/
def periods (nanos start now : Nat) : Nat :=
  (now - start) * nanosPerMilli / nanos

/-- The first whole millisecond that is not before the end of the `k`-th period. -/
def tickAt (nanos start k : Nat) : Nat :=
  start + (k * nanos + (nanosPerMilli - 1)) / nanosPerMilli

/-- The milliseconds after `now`, and up to `later`, at which a ticker goes off that was set off at
`start`. -/
def ticks (nanos start now later : Nat) : List Nat :=
  (List.range' (periods nanos start now + 1) (periods nanos start later - periods nanos start now)).map
    (tickAt nanos start)

@[simp] theorem periods_self (nanos start : Nat) : periods nanos start start = 0 := by
  simp [periods]

theorem periods_mono (nanos start : Nat) (le : now ≤ later) :
    periods nanos start now ≤ periods nanos start later :=
  Nat.div_le_div_right (Nat.mul_le_mul_right _ (Nat.sub_le_sub_right le start))

/-- A period is over when the time of one has passed. -/
theorem periods_lt (pos : 0 < nanos) (le : start ≤ now) {ms : Nat} (long : nanos ≤ ms * nanosPerMilli) :
    periods nanos start now < periods nanos start (now + ms) := by
  have passed : (now + ms - start) * nanosPerMilli = (now - start) * nanosPerMilli + ms * nanosPerMilli := by
    rw [Nat.sub_add_comm le, Nat.add_mul]
  rw [periods, periods, passed, ← Nat.succ_le_iff, Nat.succ_eq_add_one, ← Nat.add_div_right _ pos]
  exact Nat.div_le_div_right (Nat.add_le_add_left long _)

/-- The `k`-th period is over by a millisecond if that many have gone by. -/
theorem tickAt_le_iff (pos : 0 < nanos) (le : start ≤ now) {k : Nat} :
    tickAt nanos start k ≤ now ↔ k ≤ periods nanos start now := by
  have gone_by : tickAt nanos start k ≤ now ↔ k * nanos ≤ (now - start) * nanosPerMilli := by
    simp only [tickAt, nanosPerMilli]
    omega
  rw [gone_by, periods, Nat.le_div_iff_mul_le pos]

theorem tickAt_mono {j k : Nat} (le : j ≤ k) : tickAt nanos start j ≤ tickAt nanos start k := by
  have := Nat.mul_le_mul_right nanos le
  exact Nat.add_le_add_left (Nat.div_le_div_right (Nat.add_le_add_right this (nanosPerMilli - 1))) start

/-- The ticks of one stretch of time and then of the next are those of both. -/
theorem ticks_append (nanos start : Nat) (le : now ≤ due) (le' : due ≤ later) :
    ticks nanos start now due ++ ticks nanos start due later = ticks nanos start now later := by
  have first := periods_mono nanos start le
  have second := periods_mono nanos start le'
  have start_eq : periods nanos start due + 1 =
      periods nanos start now + 1 + (periods nanos start due - periods nanos start now) := by omega
  have length_eq : periods nanos start later - periods nanos start now =
      (periods nanos start due - periods nanos start now) +
        (periods nanos start later - periods nanos start due) := by omega
  rw [ticks, ticks, ticks, ← List.map_append, start_eq, List.range'_append_1, length_eq]

/-- No tick falls into a stretch in which no period ends. -/
theorem ticks_eq_nil (h : periods nanos start later = periods nanos start now) :
    ticks nanos start now later = [] := by
  simp [ticks, h]

/-- All ticks up to the first millisecond with any are in that millisecond. -/
theorem ticks_eq_replicate (pos : 0 < nanos) (le : start ≤ due)
    (first : due ≤ tickAt nanos start (periods nanos start now + 1)) :
    ticks nanos start now due =
      List.replicate (periods nanos start due - periods nanos start now) due := by
  refine List.eq_replicate_iff.mpr ⟨by simp [ticks], fun tick mem => ?_⟩
  obtain ⟨k, within, rfl⟩ := List.mem_map.mp mem
  obtain ⟨above, below⟩ := List.mem_range'_1.mp within
  have upper : tickAt nanos start k ≤ due := (tickAt_le_iff pos le).mpr (by omega)
  have lower : due ≤ tickAt nanos start k := Nat.le_trans first (tickAt_mono above)
  omega

/-- The ticks of a period of whole milliseconds are its multiples. -/
theorem ticks_of_millis {p : Nat} (start stop : Nat) :
    ticks (p * nanosPerMilli) start start stop =
      (List.range' 1 ((stop - start) / p)).map (start + · * p) := by
  have whole : periods (p * nanosPerMilli) start stop = (stop - start) / p :=
    Nat.mul_div_mul_right _ _ (by decide)
  rw [ticks, periods_self, whole]
  refine List.map_congr_left fun k _ => ?_
  simp only [tickAt, nanosPerMilli]
  have : k * (p * 1000000) = k * p * 1000000 := (Nat.mul_assoc ..).symm
  omega

/-- The ticker was set off at `start` and has gone off as often as it should up to `now`. -/
structure IsOn (t : Ticker) (start now : Nat) : Prop where
  period_pos : 0 < t.period
  due_eq : t.due = start * nanosPerMilli + (periods t.period start now + 1) * t.period

namespace IsOn

variable {t : Ticker}

/-- A ticker is due at the end of the period that it is in. -/
theorem dueMillis_eq (on : t.IsOn start now) :
    t.dueMillis = tickAt t.period start (periods t.period start now + 1) := by
  simp only [dueMillis, tickAt, on.due_eq, nanosPerMilli]
  omega

theorem lt_dueMillis (on : t.IsOn start now) (le : start ≤ now) : now < t.dueMillis := by
  rw [on.dueMillis_eq, ← Nat.not_le, tickAt_le_iff on.period_pos le]
  omega

/-- How often the ticker goes off is the number of periods that end meanwhile. -/
theorem countAt_eq (on : t.IsOn start now) (le : start ≤ now) (le' : now ≤ later) :
    t.countAt later = periods t.period start later - periods t.period start now := by
  have pos := on.period_pos
  have gone_by : t.due ≤ later * nanosPerMilli ↔
      (periods t.period start now + 1) * t.period ≤ (later - start) * nanosPerMilli := by
    rw [on.due_eq, Nat.sub_mul]
    have := Nat.mul_le_mul_right nanosPerMilli (Nat.le_trans le le')
    omega
  have some_over : t.due ≤ later * nanosPerMilli ↔
      periods t.period start now + 1 ≤ periods t.period start later :=
    gone_by.trans (Nat.le_div_iff_mul_le pos).symm
  have rest : later * nanosPerMilli - t.due =
      (later - start) * nanosPerMilli - t.period * (periods t.period start now + 1) := by
    rw [on.due_eq, Nat.sub_mul, Nat.sub_add_eq, Nat.mul_comm t.period]
  unfold countAt
  split
  · next due =>
    have enough := some_over.mp due.1
    rw [rest, Nat.sub_mul_div, ← periods]
    omega
  · next not_due =>
    have := mt some_over.mpr fun h => not_due ⟨h, pos⟩
    omega

/-- No period ends before the ticker is due. -/
theorem periods_eq (on : t.IsOn start now) (le : start ≤ now) (le' : now ≤ later)
    (early : later < t.dueMillis) : periods t.period start later = periods t.period start now := by
  have mono := periods_mono t.period start le'
  have few : ¬ periods t.period start now + 1 ≤ periods t.period start later := by
    rw [← tickAt_le_iff on.period_pos (Nat.le_trans le le'), ← on.dueMillis_eq]
    omega
  omega

/-- A ticker that is not due goes on as it is. -/
theorem still (on : t.IsOn start now) (le : start ≤ now) (le' : now ≤ later)
    (early : later < t.dueMillis) : t.IsOn start later :=
  ⟨on.period_pos, by rw [on.periods_eq le le' early, on.due_eq]⟩

/-- A ticker that goes off is set to the period after the one in which that happens, however late it is. -/
theorem passed (on : t.IsOn start now) (le : start ≤ now) (le' : now ≤ later) :
    (t.passed later).IsOn start later := by
  have more := periods_mono t.period start le'
  have gone : periods t.period start now + 1 + t.countAt later = periods t.period start later + 1 := by
    rw [on.countAt_eq le le']
    omega
  have due : t.due + t.countAt later * t.period =
      start * nanosPerMilli + (periods t.period start later + 1) * t.period := by
    rw [on.due_eq, Nat.add_assoc, ← Nat.add_mul, gone]
  exact ⟨on.period_pos, due⟩

end IsOn

/-- There is a ticker if one of some length was wanted, and it is on. -/
structure Keeps (wanted : Option Duration) (start now : Nat) (t? : Option Ticker) : Prop where
  period : t?.map (·.period) = (wanted.map nanosOf).filter (0 < ·)
  isOn : ∀ t ∈ t?, t.IsOn start now

/-- A ticker that is set off is due one period from now; without a period there is none. -/
theorem startAt?_eq (now : Nat) (d : Duration) :
    startAt? now d =
      if nanosOf d = 0 then none else some ⟨now * nanosPerMilli + nanosOf d, nanosOf d, now⟩ := by
  unfold startAt? nanosOf
  dsimp only

/-- A ticker that is set off now is on. -/
theorem keeps_startAt (wanted : Option Duration) (now : Nat) :
    Keeps wanted now now (wanted.bind (startAt? now)) := by
  cases wanted with
  | none => exact ⟨rfl, fun t mem => by cases mem⟩
  | some d =>
    rw [Option.bind_some, startAt?_eq]
    split
    · next none_long => exact ⟨by simp [Option.filter, none_long], fun t mem => by cases mem⟩
    · next long =>
      have pos := Nat.pos_of_ne_zero long
      refine ⟨by simp [Option.filter, pos], fun t mem => ?_⟩
      obtain rfl := Option.mem_some.mp mem
      exact ⟨pos, by simp⟩

namespace Keeps

variable {wanted : Option Duration} {t? : Option Ticker}

/-- A wanted ticker stays on when it goes off. -/
theorem passed (keeps : Keeps wanted start now t?) (le : start ≤ now) (le' : now ≤ later) :
    Keeps wanted start later (t?.map (·.passed later)) := by
  refine ⟨?_, fun t mem => ?_⟩
  · rw [← keeps.period, Option.map_map]
    rfl
  · obtain ⟨before, there, rfl⟩ := Option.map_eq_some_iff.mp mem
    exact (keeps.isOn before there).passed le le'

/-- A wanted ticker stays on as long as it is not due. -/
theorem still (keeps : Keeps wanted start now t?) (le : start ≤ now) (le' : now ≤ later)
    (early : ∀ t ∈ t?, later < t.dueMillis) : Keeps wanted start later t? :=
  ⟨keeps.period, fun t mem => (keeps.isOn t mem).still le le' (early t mem)⟩

/-- A ticker of a length that was wanted is there. -/
theorem exists_ticker {d : Duration} (keeps : Keeps (some d) start now t?) (long : d ≠ .zero) :
    ∃ t, t? = some t ∧ t.period = nanosOf d ∧ t.IsOn start now := by
  have period := keeps.period
  rw [Option.map_some, Option.filter_some, decide_eq_true (nanosOf_pos long), if_pos rfl] at period
  obtain ⟨t, rfl, same⟩ := Option.map_eq_some_iff.mp period
  exact ⟨t, rfl, same, keeps.isOn t rfl⟩

/-- There is no ticker where one without a period was wanted. -/
theorem eq_none (keeps : Keeps wanted start now t?) (short : ∀ d ∈ wanted, d = .zero) : t? = none := by
  have period := keeps.period
  cases wanted with
  | none => simpa using period
  | some d =>
    obtain rfl := short d rfl
    simpa [nanosOf, Option.filter] using period

end Keeps

end Ticker

end WorkerPool
