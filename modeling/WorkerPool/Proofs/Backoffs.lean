import Mathlib.Algebra.Order.Floor.Div
import Mathlib.Algebra.Ring.GeomSum
import WorkerPool.Proofs.Retrying

/-!
# How backoffs grow

The backoff before an attempt is the base delay times a power of two, held at the longest duration. The library takes
that product in numbers without bounds. `RetryPolicy.delayParts` takes it in machine words of 32 and 64 bits, with a
shift for the power and a carry from the nanoseconds to the seconds, and `delayParts_toNat` says that the same comes out
of it: no shift and no product leaves its word but that of the seconds, and that one just where there is no duration so
long. `RetryPolicy.Doubles` puts together what follows for the backoffs under one policy.

When the attempts of a run are made is the sum of the backoffs before them, if they fail at once
(`Course.begun_eq_sum`). A wait is made of whole milliseconds and does not outlast `longestWait`; where neither makes a
difference the sum is a geometric one (`sum_backoff_of_whole`).
-/

namespace WorkerPool

/-! ## Products in machine words -/

/-- The product of two words, `none` if it does not fit into one. -/
def mulWord? (a b : UInt64) : Option UInt64 :=
  if a.toNat * b.toNat < UInt64.size then some (a * b) else none

/-- The sum of two words, `none` if it does not fit into one. -/
def addWord? (a b : UInt64) : Option UInt64 :=
  if a.toNat + b.toNat < UInt64.size then some (a + b) else none

/-- A product and then a sum fit into words just if their value does. -/
theorem toNat_mulWord?_addWord? (a b c : UInt64) :
    ((mulWord? a b).bind (addWord? · c)).map UInt64.toNat =
      if a.toNat * b.toNat + c.toNat < UInt64.size then some (a.toNat * b.toNat + c.toNat) else none := by
  by_cases product : a.toNat * b.toNat < UInt64.size
  · have value : (a * b).toNat = a.toNat * b.toNat := by
      rw [UInt64.toNat_mul, Nat.mod_eq_of_lt product]
    rw [mulWord?, if_pos product, Option.bind_some, addWord?, value]
    split
    · next sum => rw [Option.map_some, UInt64.toNat_add, value, Nat.mod_eq_of_lt sum]
    · rfl
  · rw [mulWord?, if_neg product, if_neg (by omega)]
    rfl

namespace Duration

/-- The seconds and nanoseconds of a duration `k` times over, in machine words. The nanoseconds are multiplied in 64
bits, and whole seconds of theirs carry over; `none` if the seconds do not fit into 64 bits. -/
def timesWord? (d : Duration) (k : UInt32) : Option (UInt64 × UInt32) :=
  let total := d.nanos.toUInt64 * k.toUInt64
  let secs? := (mulWord? d.secs.toUInt64 k.toUInt64).bind (addWord? · (total / 1000000000))
  secs?.map (·, (total % 1000000000).toUInt32)

/-- Nanoseconds below a second times a word of 32 bits fit a word of 64 bits, so that this product never
overflows. -/
theorem nanos_mul_lt (d : Duration) (k : UInt32) : d.nanos * k.toNat < UInt64.size :=
  calc
    d.nanos * k.toNat ≤ nanosPerSecond * UInt32.size := Nat.mul_le_mul d.nanos_lt.le k.toNat_lt.le
    _ < UInt64.size := by decide

/-- The words hold what multiplying without bounds gives. -/
theorem timesWord?_toNat (d : Duration) (k : UInt32) :
    (d.timesWord? k).map (fun parts => (parts.1.toNat, parts.2.toNat)) =
      (ofParts? (d.secs * k.toNat) (d.nanos * k.toNat)).map fun d => (d.secs, d.nanos) := by
  have secs : d.secs.toUInt64.toNat = d.secs := Nat.mod_eq_of_lt d.secs_lt
  have nanos : d.nanos.toUInt64.toNat = d.nanos := Nat.mod_eq_of_lt (d.nanos_lt.trans (by decide))
  have total : (d.nanos.toUInt64 * k.toUInt64).toNat = d.nanos * k.toNat := by
    rw [UInt64.toNat_mul, UInt32.toNat_toUInt64, nanos, Nat.mod_eq_of_lt (d.nanos_mul_lt k)]
  have carry : (d.nanos.toUInt64 * k.toUInt64 / 1000000000).toNat = d.nanos * k.toNat / nanosPerSecond := by
    rw [UInt64.toNat_div, total]
    rfl
  have rest : (d.nanos.toUInt64 * k.toUInt64 % 1000000000).toUInt32.toNat =
      d.nanos * k.toNat % nanosPerSecond := by
    rw [UInt64.toNat_toUInt32, UInt64.toNat_mod, total]
    exact Nat.mod_eq_of_lt ((Nat.mod_lt _ (by decide)).trans (by decide))
  have pair (secs? : Option UInt64) (nanos : UInt32) :
      (secs?.map (·, nanos)).map (fun parts => (parts.1.toNat, parts.2.toNat)) =
        (secs?.map UInt64.toNat).map (·, nanos.toNat) := by
    cases secs? <;> rfl
  rw [timesWord?, pair, toNat_mulWord?_addWord?, carry, rest, secs, UInt32.toNat_toUInt64, ofParts?]
  split <;> rfl

/-- The seconds leave their word just where there is no duration so long. -/
theorem timesWord?_eq_none_iff {d : Duration} {k : UInt32} :
    d.timesWord? k = none ↔ longest.toNanos < d.toNanos * k.toNat := by
  have none_alike : (d.timesWord? k).isNone = (ofParts? (d.secs * k.toNat) (d.nanos * k.toNat)).isNone := by
    simpa only [Option.isNone_map] using congrArg Option.isNone (d.timesWord?_toNat k)
  have value : d.secs * k.toNat * nanosPerSecond + d.nanos * k.toNat = d.toNanos * k.toNat := by
    rw [toNanos, Nat.add_mul, Nat.mul_right_comm]
  rw [← Option.isNone_iff_eq_none, none_alike, Option.isNone_iff_eq_none, ofParts?_eq_none_iff, value]

end Duration

namespace RetryPolicy

/-- The factor of the base delay before an attempt from the second on, as a word: one, shifted for each attempt
since the second and by at most 31 bits. -/
def factor (attempt : UInt32) : UInt32 :=
  let since := attempt - 2
  1 <<< (if since < 31 then since else 31)

/-- The exponent of a backoff is always one that a shift of a 32-bit word allows. -/
theorem doublings_lt (attempt : Nat) : doublings attempt < 32 :=
  Nat.lt_succ_of_le (Nat.min_le_right ..)

/-- No bit is shifted out of the factor. -/
theorem toNat_factor {attempt : UInt32} (again : 2 ≤ attempt) :
    (factor attempt).toNat = 2 ^ doublings attempt.toNat := by
  have since : (attempt - 2).toNat = attempt.toNat - 2 := UInt32.toNat_sub_of_le _ _ again
  have shift : (if attempt - 2 < 31 then attempt - 2 else 31).toNat = doublings attempt.toNat := by
    unfold doublings
    split
    · next few =>
      have few' := UInt32.lt_iff_toNat_lt.mp few
      simp only [UInt32.reduceToNat] at few'
      omega
    · next many =>
      have many' := mt UInt32.lt_iff_toNat_lt.mpr many
      simp only [UInt32.reduceToNat] at many' ⊢
      omega
  have few := doublings_lt attempt.toNat
  have fits : 2 ^ doublings attempt.toNat < 2 ^ 32 := Nat.pow_lt_pow_right (by decide) few
  rw [factor, UInt32.toNat_shiftLeft, shift, Nat.mod_eq_of_lt few, Nat.shiftLeft_eq, UInt32.toNat_one,
    Nat.one_mul, Nat.mod_eq_of_lt fits]

/-- The seconds and nanoseconds of the backoff before an attempt, in machine words; those of the longest duration where
the seconds do not fit into their word. -/
def delayParts (policy : RetryPolicy) (attempt : UInt32) : UInt64 × UInt32 :=
  if attempt ≤ 1 then (0, 0)
  else (policy.baseDelay.timesWord? (factor attempt)).getD (18446744073709551615, 999999999)

/-- The words hold the backoff. -/
theorem delayParts_toNat (policy : RetryPolicy) (attempt : UInt32) :
    (policy.delayParts attempt).1.toNat = (policy.delayFor attempt.toNat).secs ∧
      (policy.delayParts attempt).2.toNat = (policy.delayFor attempt.toNat).nanos := by
  by_cases first : attempt ≤ 1
  · have first' : attempt.toNat ≤ 1 := UInt32.le_iff_toNat_le.mp first
    rw [delayParts, delayFor, if_pos first, if_pos first']
    exact ⟨rfl, rfl⟩
  · have later : ¬attempt.toNat ≤ 1 := fun le => first (UInt32.le_iff_toNat_le.mpr le)
    have again : 2 ≤ attempt := UInt32.le_iff_toNat_le.mpr (Nat.lt_of_not_le later)
    have parts := policy.baseDelay.timesWord?_toNat (factor attempt)
    rw [delayParts, delayFor, if_neg first, if_neg later, Nat.one_shiftLeft, ← toNat_factor again,
      Duration.saturatingMul, Duration.ofPartsSaturating]
    cases exact : Duration.ofParts? (policy.baseDelay.secs * (factor attempt).toNat)
        (policy.baseDelay.nanos * (factor attempt).toNat) with
    | none =>
      rw [exact, Option.map_none, Option.map_eq_none_iff] at parts
      rw [parts]
      exact ⟨rfl, rfl⟩
    | some d =>
      rw [exact, Option.map_some] at parts
      obtain ⟨words, words_eq, same⟩ := Option.map_eq_some_iff.mp parts
      rw [words_eq]
      exact Prod.mk.inj same

/-! ## The backoffs under one policy -/

/-- There is no delay before the first attempt. -/
theorem toNanos_delayFor_of_le_one (policy : RetryPolicy) {attempt : Nat} (first : attempt ≤ 1) :
    (policy.delayFor attempt).toNanos = 0 := by
  rw [delayFor, if_pos first, Duration.toNanos_zero]

/-- From the second attempt on, the delay is a power of two times the base delay, where the power stops growing
at the thirty-third attempt and the delay at the longest duration. -/
theorem toNanos_delayFor_of_two_le (policy : RetryPolicy) {attempt : Nat} (again : 2 ≤ attempt) :
    (policy.delayFor attempt).toNanos =
      min (policy.baseDelay.toNanos * 2 ^ min (attempt - 2) 31) Duration.longest.toNanos := by
  rw [toNanos_delayFor policy again, Nat.one_shiftLeft, doublings]

/-- Later attempts never wait for less. -/
theorem toNanos_delayFor_mono (policy : RetryPolicy) {earlier later : Nat} (le : earlier ≤ later) :
    (policy.delayFor earlier).toNanos ≤ (policy.delayFor later).toNanos := by
  by_cases first : earlier ≤ 1
  · rw [policy.toNanos_delayFor_of_le_one first]
    exact Nat.zero_le _
  · have fewer : min (earlier - 2) 31 ≤ min (later - 2) 31 := by omega
    have power : 2 ^ min (earlier - 2) 31 ≤ 2 ^ min (later - 2) 31 := Nat.pow_le_pow_right Nat.two_pos fewer
    have product := Nat.mul_le_mul_left policy.baseDelay.toNanos power
    rw [policy.toNanos_delayFor_of_two_le (by omega), policy.toNanos_delayFor_of_two_le (by omega)]
    exact min_le_min_right _ product

/-- Nor does a longer base delay ever make for a shorter wait. -/
theorem toNanos_delayFor_mono_base {policy other : RetryPolicy}
    (le : policy.baseDelay.toNanos ≤ other.baseDelay.toNanos) (attempt : Nat) :
    (policy.delayFor attempt).toNanos ≤ (other.delayFor attempt).toNanos := by
  by_cases first : attempt ≤ 1
  · rw [policy.toNanos_delayFor_of_le_one first]
    exact Nat.zero_le _
  · have product := Nat.mul_le_mul_right (2 ^ min (attempt - 2) 31) le
    rw [policy.toNanos_delayFor_of_two_le (by omega), other.toNanos_delayFor_of_two_le (by omega)]
    exact min_le_min_right _ product

/-- As long as the exponent still grows, each delay is twice the one before it, up to the longest duration. -/
theorem toNanos_delayFor_succ (policy : RetryPolicy) {attempt : Nat} (again : 2 ≤ attempt)
    (early : attempt < 33) :
    (policy.delayFor (attempt + 1)).toNanos =
      min (2 * (policy.delayFor attempt).toNanos) Duration.longest.toNanos := by
  have since : min (attempt + 1 - 2) 31 = min (attempt - 2) 31 + 1 := by omega
  rw [policy.toNanos_delayFor_of_two_le again, policy.toNanos_delayFor_of_two_le (by omega), since, Nat.pow_succ,
    ← Nat.mul_assoc]
  omega

/-- Everything that is to be said of the backoffs under a policy, in nanoseconds. -/
structure Doubles (policy : RetryPolicy) : Prop where
  /-- Nothing is waited for before the first attempt. -/
  first : ∀ attempt ≤ 1, (policy.delayFor attempt).toNanos = 0
  /-- Before any other the base delay is doubled for each attempt since the second, 31 times at most. -/
  later : ∀ attempt, 2 ≤ attempt → (policy.delayFor attempt).toNanos =
    min (policy.baseDelay.toNanos * 2 ^ min (attempt - 2) 31) Duration.longest.toNanos
  /-- The shift is one of fewer than 32 bits and loses none, and the product of the nanoseconds fits into its word. -/
  fits : ∀ attempt : UInt32, 2 ≤ attempt →
    doublings attempt.toNat < 32 ∧ (factor attempt).toNat = 2 ^ doublings attempt.toNat ∧
      policy.baseDelay.nanos * 2 ^ doublings attempt.toNat < UInt64.size
  /-- The seconds are found not to fit just where there is no duration so long. -/
  saturates : ∀ attempt : UInt32, 2 ≤ attempt → (policy.baseDelay.timesWord? (factor attempt) = none ↔
    Duration.longest.toNanos < policy.baseDelay.toNanos * 2 ^ doublings attempt.toNat)
  /-- So the words hold the backoff, with less than a second of nanoseconds. -/
  parts : ∀ attempt : UInt32,
    (policy.delayParts attempt).1.toNat = (policy.delayFor attempt.toNat).secs ∧
      (policy.delayParts attempt).2.toNat = (policy.delayFor attempt.toNat).nanos ∧
      (policy.delayParts attempt).2.toNat < nanosPerSecond
  mono : ∀ earlier later, earlier ≤ later →
    (policy.delayFor earlier).toNanos ≤ (policy.delayFor later).toNanos
  mono_base : ∀ other : RetryPolicy, policy.baseDelay.toNanos ≤ other.baseDelay.toNanos →
    ∀ attempt, (policy.delayFor attempt).toNanos ≤ (other.delayFor attempt).toNanos
  /-- Up to the thirty-third attempt each backoff is twice the one before, held at the longest duration. -/
  doubles : ∀ attempt, 2 ≤ attempt → attempt < 33 → (policy.delayFor (attempt + 1)).toNanos =
    min (2 * (policy.delayFor attempt).toNanos) Duration.longest.toNanos

/-- All of this together: the delays of a policy double. -/
theorem doubles (policy : RetryPolicy) : policy.Doubles where
  first _ one := policy.toNanos_delayFor_of_le_one one
  later _ again := policy.toNanos_delayFor_of_two_le again
  fits attempt again := by
    have product := policy.baseDelay.nanos_mul_lt (factor attempt)
    rw [toNat_factor again] at product
    exact ⟨doublings_lt _, toNat_factor again, product⟩
  saturates attempt again := by
    rw [Duration.timesWord?_eq_none_iff, toNat_factor again]
  parts attempt := by
    obtain ⟨secs, nanos⟩ := policy.delayParts_toNat attempt
    exact ⟨secs, nanos, nanos ▸ (policy.delayFor attempt.toNat).nanos_lt⟩
  mono _ _ le := policy.toNanos_delayFor_mono le
  mono_base _ le attempt := toNanos_delayFor_mono_base le attempt
  doubles _ again early := policy.toNanos_delayFor_succ again early

/-! ## When attempts are made that fail at once -/

/-- On the clock a backoff is rounded up to whole milliseconds, and no longer than any wait. -/
theorem backoff_add_two (policy : RetryPolicy) (i : Nat) :
    policy.backoff (i + 2) =
      min (policy.baseDelay.toNanos * 2 ^ min i 31 ⌈/⌉ nanosPerMilli) longestWait := by
  have nanos := policy.toNanos_delayFor_of_two_le (Nat.le_add_left 2 i)
  rw [Nat.add_sub_cancel] at nanos
  rw [backoff, Duration.ceilMillis, waited, nanos, Nat.ceilDiv_eq_add_pred_div]
  generalize policy.baseDelay.toNanos * 2 ^ min i 31 = product
  simp only [Duration.toNanos, Duration.longest, nanosPerSecond, nanosPerMilli, longestWait]
  omega

/-- A number of doublings adds up to the next power of two, less the base. -/
theorem sum_doubled (base count : Nat) : ∑ i ∈ Finset.range count, base * 2 ^ i = base * (2 ^ count - 1) := by
  rw [← Finset.mul_sum, Nat.geomSum_eq (by decide)]
  simp

/-- Where the base delay is one of whole milliseconds and no backoff is longer than any wait, the backoffs before an
attempt add up to the base delay times a power of two less one. -/
theorem sum_backoff_of_whole (policy : RetryPolicy) {count : Nat} (early : count < 33)
    (whole : nanosPerMilli ∣ policy.baseDelay.toNanos)
    (short : ∀ i < count, policy.baseDelay.toNanos * 2 ^ i ≤ longestWait * nanosPerMilli) :
    (∑ i ∈ Finset.range count, policy.backoff (i + 2)) * nanosPerMilli =
      policy.baseDelay.toNanos * (2 ^ count - 1) := by
  rw [← sum_doubled, Finset.sum_mul]
  refine Finset.sum_congr rfl fun i mem => ?_
  have lt : i < count := Finset.mem_range.mp mem
  have le := short i lt
  obtain ⟨product, product_eq⟩ : nanosPerMilli ∣ policy.baseDelay.toNanos * 2 ^ i := whole.mul_right _
  have all : min i 31 = i := by omega
  rw [backoff_add_two, all, product_eq, Nat.ceilDiv_eq_add_pred_div]
  rw [product_eq] at le
  simp only [nanosPerMilli] at le ⊢
  omega

variable {C : Client} {α : Type} {t t' : Nat} {policy : RetryPolicy} {operation : Nat → Code C (PoolResult α)}

/-- Whether so many of the attempts, from the first on, failed in the millisecond in which they were made. -/
def FailAtOnce (attempts : List (Stretch C α)) (count : Nat) : Prop :=
  ∀ i < count, ∀ a : Stretch C α, attempts[i]? = some a → a.ended = a.begun ∧ ∃ e, a.outcome = .error e

/-- If the token is never cancelled, an attempt that failed is followed by another one, as long as any are left. -/
theorem Course.exists_next {steps : List (Step C)} {result : Outcome α} {attempts : List (Stretch C α)}
    {last a : Stretch C α} (h : policy.Course operation none t steps result t' attempts last) {i : Nat}
    (at_i : attempts[i]? = some a) {e : PoolError} (failed : a.outcome = .error e)
    (left : i + 1 < policy.maxAttempts) : ∃ b, attempts[i + 1]? = some b := by
  rcases Nat.lt_or_ge (i + 1) attempts.length with more | none_left
  · exact ⟨_, List.getElem?_eq_getElem more⟩
  · -- It was the last one then, and only a cancellation keeps the next one from being made.
    exfalso
    have lt := (List.getElem?_eq_some_iff.mp at_i).1
    have all : attempts.length = i + 1 := by omega
    have last_at := h.last_eq
    rw [List.getLast?_eq_getElem?, all, Nat.add_sub_cancel, at_i] at last_at
    obtain rfl : a = last := Option.some.inj last_at
    have cancelled := h.cancelled_of_left failed (all ▸ left)
    obtain ⟨_, _, moment, mem, _⟩ := h.cancelled_iff.mp cancelled
    cases mem

/-- Attempts that fail at once are made after the sum of the backoffs before them. -/
theorem Course.begun_eq_sum {steps : List (Step C)} {result : Outcome α} {attempts : List (Stretch C α)}
    {last : Stretch C α} (h : policy.Course operation none t steps result t' attempts last) {count : Nat}
    (left : count < policy.maxAttempts) (at_once : FailAtOnce attempts count) :
    ∃ a, attempts[count]? = some a ∧ a.begun = t + ∑ i ∈ Finset.range count, policy.backoff (i + 2) := by
  induction count with
  | zero =>
    cases attempts with
    | nil => cases h.last_eq
    | cons a more => exact ⟨a, rfl, by simpa using h.first a rfl⟩
  | succ count ih =>
    obtain ⟨a, at_count, begun⟩ := ih (Nat.lt_of_succ_lt left) fun i lt => at_once i (Nat.lt_succ_of_lt lt)
    obtain ⟨ended, e, failed⟩ := at_once count (Nat.lt_succ_self count) a at_count
    obtain ⟨b, at_next⟩ := h.exists_next at_count failed left
    obtain ⟨_, due, _⟩ := h.between count a b at_count at_next
    refine ⟨b, at_next, ?_⟩
    rw [due, ended, begun, Finset.sum_range_succ, Nat.add_assoc]

/-- When the attempts of a run are made that began in millisecond `t`: as long as they fail at once, after the backoffs
before them, each rounded up to whole milliseconds and cut to the longest wait. Where there is nothing to round and to
cut, that is after the base delay times a power of two less one. -/
def StartsDoubling (policy : RetryPolicy) (t : Nat) (attempts : List (Stretch C α)) : Prop :=
  ∀ count < policy.maxAttempts, FailAtOnce attempts count →
    ∃ a, attempts[count]? = some a ∧
      a.begun = t + ∑ i ∈ Finset.range count,
        min (policy.baseDelay.toNanos * 2 ^ min i 31 ⌈/⌉ nanosPerMilli) longestWait ∧
      (count < 33 → nanosPerMilli ∣ policy.baseDelay.toNanos →
        (∀ i < count, policy.baseDelay.toNanos * 2 ^ i ≤ longestWait * nanosPerMilli) →
          a.begun * nanosPerMilli = t * nanosPerMilli + policy.baseDelay.toNanos * (2 ^ count - 1))

/-- Where nothing is cancelled, the attempts of a run begin at the sums of the delays before them. -/
theorem Course.startsDoubling {steps : List (Step C)} {result : Outcome α} {attempts : List (Stretch C α)}
    {last : Stretch C α} (h : policy.Course operation none t steps result t' attempts last) :
    policy.StartsDoubling t attempts := by
  intro count left at_once
  obtain ⟨a, at_count, begun⟩ := h.begun_eq_sum left at_once
  refine ⟨a, at_count, ?_, ?_⟩
  · simpa only [backoff_add_two] using begun
  · intro early whole short
    rw [begun, Nat.add_mul, policy.sum_backoff_of_whole early whole short]

/-- The backoffs under a policy double, with nothing lost to the words in which they are computed, and are as long as
they should be in every run in which the token is never cancelled. -/
theorem backoffs_double [Nonempty C.State] (policy : RetryPolicy) (operation : Nat → Code C (PoolResult α))
    (t : Nat) :
    policy.Doubles ∧
      (∃ steps e t', (policy.run operation).Runs none t steps e t') ∧
      ∀ steps e t', (policy.run operation).Runs none t steps e t' →
        ∃ (attempts : List (Stretch C α)) (last : Stretch C α) (result : Outcome α), e = result.ending ∧
          policy.Course operation none t steps result t' attempts last ∧
          policy.StartsDoubling t attempts := by
  refine ⟨policy.doubles, (policy.run operation).exists_runs none t, ?_⟩
  intro steps e t' run
  obtain ⟨attempts, last, result, same, course⟩ := exists_course run
  exact ⟨attempts, last, result, same, course, course.startsDoubling⟩

/-- Before the attempt that succeeds, all fail in the millisecond in which they begin. -/
theorem failAtOnce_succeedsAt {attempt : Nat} {steps : List (Step .bare)} {result : Outcome Unit}
    {attempts : List (Stretch .bare Unit)} {last : Stretch .bare Unit}
    (h : policy.Course (succeedsAt attempt) none t steps result t' attempts last) {count : Nat}
    (lt : count < attempt) : FailAtOnce attempts count := by
  intro i early a at_i
  have run := h.isOf i a at_i
  rw [succeedsAt, if_pos (by omega)] at run
  obtain ⟨-, outcome, ended⟩ := Program.runs_pure.mp run
  exact ⟨ended, .noWork, Outcome.ending_inj.mp outcome⟩

/-- Four attempts that fail at once: the fourth is made after ten, twenty and forty milliseconds. -/
theorem backoffs_double_of_four :
    let policy := RetryPolicy.new 4 (.ofMillis 10)
    Nonempty Client.bare.State ∧ policy.Doubles ∧ ∃ steps,
      (policy.run (succeedsAt 5)).Runs none 0 steps (.ok (.error (.retriesExhausted 4 .noWork))) 70 ∧
        ∃ (attempts : List (Stretch .bare Unit)) (a : Stretch .bare Unit), FailAtOnce attempts 3 ∧
          attempts[3]? = some a ∧ a.begun = 70 := by
  intro policy
  have state : Nonempty Client.bare.State := ⟨()⟩
  have run : ∃ steps, (policy.run (succeedsAt 5)).Runs none 0 steps
      (.ok (.error (.retriesExhausted 4 .noWork))) 70 :=
    Program.runs_of_playAlone none none Shared.fresh_pastCancel (by decide +kernel)
      (by decide +kernel) (by decide +kernel)
  obtain ⟨steps, run⟩ := run
  obtain ⟨doubles, _, runs⟩ := backoffs_double policy (succeedsAt 5) 0
  obtain ⟨attempts, last, result, _, course, starts⟩ := runs steps _ _ run
  have at_once : FailAtOnce attempts 3 := failAtOnce_succeedsAt course (by decide)
  obtain ⟨a, at_three, _, exact⟩ := starts 3 (by decide) at_once
  have begun := exact (by decide) (by decide) (by decide)
  refine ⟨state, doubles, steps, run, attempts, a, at_once, at_three, ?_⟩
  have total : policy.baseDelay.toNanos * (2 ^ 3 - 1) = 70 * nanosPerMilli := by decide
  rw [total] at begun
  simp only [nanosPerMilli] at begun
  omega

/-- Whether attempts that fail at once, in runs in which the token is never cancelled, are made after the base delay
times a power of two less one, whenever there is a duration so long. -/
def KeepsTime (policy : RetryPolicy) : Prop :=
  ∀ steps e t', (policy.run (succeedsAt (policy.maxAttempts + 1))).Runs none 0 steps e t' →
    ∀ (attempts : List (Stretch .bare Unit)) (last : Stretch .bare Unit) (result : Outcome Unit),
      policy.Course (succeedsAt (policy.maxAttempts + 1)) none 0 steps result t' attempts last →
        ∀ count < policy.maxAttempts, count < 33 → FailAtOnce attempts count →
          policy.baseDelay.toNanos * (2 ^ count - 1) ≤ Duration.longest.toNanos →
            ∃ a, attempts[count]? = some a ∧
              a.begun * nanosPerMilli = policy.baseDelay.toNanos * (2 ^ count - 1)

/-- A single backoff that is not a whole number of milliseconds is enough for a policy not to keep time. -/
theorem not_keepsTime {delay : Duration}
    (off : (RetryPolicy.new 2 delay).backoff 2 * nanosPerMilli ≠ delay.toNanos) :
    ¬(RetryPolicy.new 2 delay).KeepsTime := by
  intro keeps
  have state : Nonempty Client.bare.State := ⟨()⟩
  obtain ⟨steps, e, t', run⟩ := ((RetryPolicy.new 2 delay).run (succeedsAt 3)).exists_runs none 0
  obtain ⟨attempts, last, result, _, course⟩ := exists_course run
  have at_once : FailAtOnce attempts 1 := failAtOnce_succeedsAt course (by decide)
  obtain ⟨a, at_one, begun⟩ := course.begun_eq_sum Nat.one_lt_two at_once
  obtain ⟨b, at_one', kept⟩ := keeps steps e t' run attempts last result course 1 Nat.one_lt_two (by decide) at_once
    (by simpa [RetryPolicy.new] using delay.toNanos_le_longest)
  obtain rfl : a = b := Option.some.inj (at_one.symm.trans at_one')
  apply off
  simpa [begun, RetryPolicy.new] using kept

/-- A second attempt may be made before its delay is over, as after thirty years when the delay is a millisecond longer,
and after it is over, as after a millisecond when the delay is a nanosecond. -/
theorem starts_off_time :
    ¬(RetryPolicy.new 2 { secs := 946080000, nanos := 1000000 }).KeepsTime ∧
      ¬(RetryPolicy.new 2 { secs := 0, nanos := 1 }).KeepsTime :=
  ⟨not_keepsTime (by decide), not_keepsTime (by decide)⟩

end RetryPolicy

end WorkerPool
