import Mathlib.Algebra.Order.BigOperators.Group.List
import WorkerPool.Proofs.Counting

/-!
# What recorded durations come to

Of the durations it is told, a collector that counts keeps four figures: how many they are, their sum in
a word, the shortest and the longest. None of them depends on the order in which the durations came or on
who reported them (`Counters.recordAll_eq_of_perm`), and each is what its name says, the sum and the mean
as long as the sum fits the word (`Counters.recordAll_sumsUp`).

A sum that does not fit wraps around: what the counters then call the total is what is left of it
(`Counters.totalNanos_recordAll`).
-/

namespace WorkerPool

/-! ## Recordings that carry a duration -/

namespace Metric

/-- The duration a recording carries, if it tells of a task that has finished. -/
def duration? : Metric → Option Duration
  | taskCompleted _ d | taskFailed _ d => some d
  | _ => none

/-- What there is to a recording apart from who made it and which attempt it is about. -/
def gist (metric : Metric) : MetricKind × Option Duration :=
  (metric.kind, metric.duration?)

/-- It is the recordings with a duration that tell of a task that has finished. -/
theorem finishes_eq (metric : Metric) : metric.finishes = metric.duration?.isSome := by
  cases metric <;> rfl

end Metric

/-- The durations among recordings. -/
def durationsOf (metrics : List Metric) : List Duration :=
  metrics.filterMap Metric.duration?

/-- A recording carries one duration at most. -/
theorem durationsOf_cons (metric : Metric) (rest : List Metric) :
    durationsOf (metric :: rest) = metric.duration?.toList ++ durationsOf rest := by
  rw [durationsOf, List.filterMap_cons]
  cases metric.duration? <;> rfl

@[simp] theorem durationsOf_append (before after : List Metric) :
    durationsOf (before ++ after) = durationsOf before ++ durationsOf after :=
  List.filterMap_append

namespace Duration

/-- The nanoseconds of all durations together. -/
def sumNanos (durations : List Duration) : Nat :=
  (durations.map toNanos).sum

/-- The nanoseconds of a duration, cut to what fits a word. -/
def wordNanos (d : Duration) : Nat :=
  Min.min d.toNanos 18446744073709551615

@[simp] theorem sumNanos_append (first second : List Duration) :
    sumNanos (first ++ second) = sumNanos first + sumNanos second := by
  simp [sumNanos]

/-- The shorter of two durations has the fewer nanoseconds. -/
theorem toNanos_min (a b : Duration) : (a.min b).toNanos = Min.min a.toNanos b.toNanos := by
  unfold Duration.min
  split
  case isTrue le => rw [Nat.min_eq_left (le_iff_toNanos.mp le)]
  case isFalse lt => rw [Nat.min_eq_right (Nat.le_of_not_le (lt ∘ le_iff_toNanos.mpr))]

/-- The longer of two durations has the more nanoseconds. -/
theorem toNanos_max (a b : Duration) : (a.max b).toNanos = Max.max a.toNanos b.toNanos := by
  unfold Duration.max
  split
  case isTrue le => rw [Nat.max_eq_right (le_iff_toNanos.mp le)]
  case isFalse lt => rw [Nat.max_eq_left (Nat.le_of_not_le (lt ∘ le_iff_toNanos.mpr))]

/-- Of three durations the shortest is found in any order. -/
theorem min_right_comm (a b c : Duration) : (a.min b).min c = (a.min c).min b :=
  toNanos_injective (by simp only [toNanos_min]; omega)

/-- Of three durations the longest is found in any order. -/
theorem max_right_comm (a b c : Duration) : (a.max b).max c = (a.max c).max b :=
  toNanos_injective (by simp only [toNanos_max]; omega)

theorem min_comm (a b : Duration) : a.min b = b.min a :=
  toNanos_injective (by simp only [toNanos_min]; omega)

/-- No duration is cut whose nanoseconds fit. -/
theorem wordNanos_of_lt {d : Duration} (fits : d.toNanos < 2 ^ 64) : d.wordNanos = d.toNanos := by
  unfold wordNanos
  omega

/-- A duration cut to a word fits one. -/
theorem wordNanos_lt (d : Duration) : d.wordNanos < 2 ^ 64 := by
  unfold wordNanos
  omega

/-- No duration is longer than a sum in which it occurs. -/
theorem toNanos_le_sumNanos {d : Duration} {durations : List Duration} (mem : d ∈ durations) :
    d.toNanos ≤ sumNanos durations :=
  List.single_le_sum (fun _ _ => Nat.zero_le _) _ (List.mem_map_of_mem mem)

/-- Where the sum of durations fits, none of them is cut. -/
theorem sum_wordNanos {durations : List Duration} (fits : sumNanos durations < 2 ^ 64) :
    (durations.map wordNanos).sum = sumNanos durations := by
  refine congrArg List.sum (List.map_congr_left fun d mem => wordNanos_of_lt ?_)
  exact Nat.lt_of_le_of_lt (toNanos_le_sumNanos mem) fits

end Duration

/-! ## One recording after another -/

namespace Counters

/-- Counters are told apart by their counts and by the four figures that they keep. -/
theorem ext_of_count {c other : Counters} (count : ∀ kind, c.count kind = other.count kind)
    (total : c.totalNanos = other.totalNanos) (shortest : c.shortest = other.shortest)
    (longest : c.longest = other.longest) (since : c.since = other.since) : c = other := by
  obtain ⟨⟩ := c
  obtain ⟨⟩ := other
  obtain rfl := total
  obtain rfl := shortest
  obtain rfl := longest
  obtain rfl := since
  obtain rfl : _ = _ := count .workerStarted
  obtain rfl : _ = _ := count .workerStopped
  obtain rfl : _ = _ := count .workerPanicked
  obtain rfl : _ = _ := count .taskCheckedOut
  obtain rfl : _ = _ := count .taskCompleted
  obtain rfl : _ = _ := count .taskFailed
  obtain rfl : _ = _ := count .checkoutError
  obtain rfl : _ = _ := count .retryAttempt
  obtain rfl : _ = _ := count .retrySuccess
  obtain rfl : _ = _ := count .retryExhausted
  rfl

section

variable (c : Counters) (metric other : Metric)

/-- A recording adds its duration to the total, if it has one. -/
theorem totalNanos_record :
    (c.record metric).totalNanos = c.totalNanos + metric.duration?.elim 0 nanosWord := by
  cases metric <;> first | rfl | exact (UInt64.add_zero _).symm

/-- A recording makes the shortest duration no longer than its own. -/
theorem shortest_record :
    (c.record metric).shortest =
      metric.duration?.elim c.shortest fun d => some ((c.shortest.map (·.min d)).getD d) := by
  cases metric <;> rfl

/-- A recording makes the longest duration no shorter than its own. -/
theorem longest_record :
    (c.record metric).longest = metric.duration?.elim c.longest c.longest.max := by
  cases metric <;> rfl

/-- Recording does not change the time since which it is done. -/
theorem since_record : (c.record metric).since = c.since := by
  cases metric <;> rfl

/-- Of two recordings in a row, it does not matter which is the first. -/
theorem record_right_comm : (c.record metric).record other = (c.record other).record metric := by
  refine ext_of_count (fun kind => ?_) ?_ ?_ ?_ ?_
  · simp only [count_record, Nat.add_right_comm]
  · simp only [totalNanos_record, UInt64.add_assoc, UInt64.add_comm (metric.duration?.elim 0 nanosWord)]
  · rw [shortest_record, shortest_record, shortest_record, shortest_record]
    cases metric.duration? <;> cases other.duration? <;> cases c.shortest
    case some.some.none => exact congrArg some (Duration.min_comm ..)
    case some.some.some => exact congrArg some (Duration.min_right_comm ..)
    all_goals rfl
  · rw [longest_record, longest_record, longest_record, longest_record]
    cases metric.duration? <;> cases other.duration?
    case some.some => exact Duration.max_right_comm ..
    all_goals rfl
  · simp only [since_record]

/-- Nothing is kept of a recording but its gist. -/
theorem record_congr {metric other : Metric} (same : metric.gist = other.gist) :
    c.record metric = c.record other := by
  obtain ⟨kind, duration⟩ := Prod.mk.inj same
  refine ext_of_count (fun _ => ?_) ?_ ?_ ?_ ?_
  · rw [count_record, count_record, kind]
  · rw [totalNanos_record, totalNanos_record, duration]
  · rw [shortest_record, shortest_record, duration]
  · rw [longest_record, longest_record, duration]
  · rw [since_record, since_record]

end

/-- What recordings come to does not depend on their order, nor on anything but their gists. -/
theorem recordAll_eq_of_perm {metrics other : List Metric} (c : Counters)
    (same : (metrics.map Metric.gist).Perm (other.map Metric.gist)) :
    c.recordAll metrics = c.recordAll other := by
  induction metrics generalizing c other with
  | nil =>
    obtain rfl := List.map_eq_nil_iff.mp same.nil_eq.symm
    rfl
  | cons metric rest ih =>
    obtain ⟨twin, mem, alike⟩ := List.mem_map.mp (same.subset List.mem_cons_self)
    obtain ⟨before, after, rfl⟩ := List.append_of_mem mem
    have moved : (before ++ twin :: after).Perm (twin :: (before ++ after)) := List.perm_middle
    have left : (rest.map Metric.gist).Perm ((before ++ after).map Metric.gist) := by
      have whole := same.trans (moved.map Metric.gist)
      rw [List.map_cons, List.map_cons, alike] at whole
      exact whole.cons_inv
    have in_order : c.recordAll (before ++ twin :: after) = c.recordAll (twin :: (before ++ after)) :=
      moved.foldl_eq' (fun x _ y _ z => record_right_comm z x y) c
    rw [in_order, recordAll, recordAll, List.foldl_cons, List.foldl_cons, record_congr c alike]
    exact ih (c.record metric) left

/-! ## What is kept of the durations -/

/-- As a number, the word for a duration is the duration cut to what a word holds. -/
theorem toNat_nanosWord (d : Duration) : (nanosWord d).toNat = d.wordNanos :=
  UInt64.toNat_ofNat_of_lt' d.wordNanos_lt

/-- The total is the sum of the durations, each cut to a word, as far as a word holds it. -/
theorem totalNanos_recordAll (c : Counters) (metrics : List Metric) :
    (c.recordAll metrics).totalNanos.toNat =
      (c.totalNanos.toNat + ((durationsOf metrics).map Duration.wordNanos).sum) % 2 ^ 64 := by
  induction metrics generalizing c with
  | nil => exact (Nat.mod_eq_of_lt c.totalNanos.toNat_lt).symm
  | cons metric rest ih =>
    rw [recordAll, List.foldl_cons, ← recordAll, ih, totalNanos_record, UInt64.toNat_add, durationsOf_cons]
    cases metric.duration? with
    | none => simp
    | some d => simp [toNat_nanosWord, Nat.add_assoc]

/-- As many tasks have been processed as durations were recorded. -/
theorem tasksProcessed_recordAll (c : Counters) (metrics : List Metric) :
    (c.recordAll metrics).tasksProcessed = c.tasksProcessed + (durationsOf metrics).length := by
  induction metrics generalizing c with
  | nil => rfl
  | cons metric rest ih =>
    rw [recordAll, List.foldl_cons, ← recordAll, ih, tasksProcessed_record, Metric.finishes_eq,
      durationsOf_cons, List.length_append, Nat.add_assoc]
    cases metric.duration? <;> rfl

/-- The shortest of the durations, and of the one that was kept before. -/
theorem shortest_recordAll (c : Counters) (metrics : List Metric) :
    (c.recordAll metrics).shortest.map Duration.toNanos =
      ((c.shortest.toList ++ durationsOf metrics).map Duration.toNanos).min? := by
  induction metrics generalizing c with
  | nil => cases kept : c.shortest <;> simp [recordAll, durationsOf, kept]
  | cons metric rest ih =>
    rw [recordAll, List.foldl_cons, ← recordAll, ih, shortest_record, durationsOf_cons]
    cases metric.duration? with
    | none => rfl
    | some d =>
      cases c.shortest with
      | none => rfl
      | some s =>
        simp only [Option.elim_some, Option.map_some, Option.getD_some, Option.toList_some, List.cons_append,
          List.nil_append, List.map_cons, List.min?_cons', List.foldl_cons, Duration.toNanos_min]

/-- The longest of the durations, and of the one that was kept before. -/
theorem longest_recordAll (c : Counters) (metrics : List Metric) :
    some (c.recordAll metrics).longest.toNanos =
      ((c.longest :: durationsOf metrics).map Duration.toNanos).max? := by
  induction metrics generalizing c with
  | nil => rfl
  | cons metric rest ih =>
    rw [recordAll, List.foldl_cons, ← recordAll, ih, longest_record, durationsOf_cons]
    cases metric.duration? with
    | none => rfl
    | some d =>
      simp only [Option.elim_some, Option.toList_some, List.cons_append, List.nil_append, List.map_cons,
        List.max?_cons', List.foldl_cons, Duration.toNanos_max]

/-! ## What a snapshot shows of them -/

/-- The total that is shown is the word that is kept. -/
theorem toNanos_totalDuration (c : Counters) (now : Nat) :
    (c.snapshot now).totalDuration.toNanos = c.totalNanos.toNat := by
  have lt := c.totalNanos.toNat_lt
  have fits : c.totalNanos.toNat ≤ Duration.longest.toNanos := by
    simp only [Duration.toNanos, Duration.longest, nanosPerSecond]
    omega
  exact (Duration.toNanos_ofNanos _).trans (Nat.min_eq_left fits)

/-- The mean that is shown is the total that is shown, divided by the number of tasks and rounded down; it fits
a duration because the total does. -/
theorem toNanos_averageDuration (c : Counters) (now : Nat) :
    (c.snapshot now).averageDuration.toNanos =
      (c.snapshot now).totalDuration.toNanos / (c.snapshot now).tasksProcessed := by
  have lt := c.totalNanos.toNat_lt
  rw [toNanos_totalDuration]
  change c.averageDuration.toNanos = c.totalNanos.toNat / c.tasksProcessed
  unfold averageDuration
  split
  case isTrue no_task => rw [no_task, Nat.div_zero, Duration.toNanos_zero]
  case isFalse =>
    have le := Nat.div_le_self c.totalNanos.toNat c.tasksProcessed
    rw [Duration.toNanos_ofNanos]
    simp only [Duration.toNanos, Duration.longest, nanosPerSecond]
    omega

end Counters

/-- What a snapshot shows is what its names say, of the recordings that were made before it. -/
structure MetricsSnapshot.SumsUp (s : MetricsSnapshot) (metrics : List Metric) : Prop where
  completed : s.tasksCompleted = metrics.countP (·.kind = .taskCompleted)
  failed : s.tasksFailed = metrics.countP (·.kind = .taskFailed)
  processed : s.tasksProcessed = (durationsOf metrics).length
  /-- The counts fit a word of 64 bits for as long as the number of the recordings does. -/
  fits : metrics.length < UInt64.size →
    s.tasksCompleted < UInt64.size ∧ s.tasksFailed < UInt64.size ∧ s.tasksProcessed < UInt64.size
  unset : durationsOf metrics = [] → s.minDuration = .zero ∧ s.maxDuration = .zero
  min_mem : durationsOf metrics ≠ [] → s.minDuration ∈ durationsOf metrics
  min_le : ∀ d ∈ durationsOf metrics, s.minDuration.toNanos ≤ d.toNanos
  max_mem : durationsOf metrics ≠ [] → s.maxDuration ∈ durationsOf metrics
  le_max : ∀ d ∈ durationsOf metrics, d.toNanos ≤ s.maxDuration.toNanos
  /-- As long as the durations fit a word together, the total is their sum. -/
  total : Duration.sumNanos (durationsOf metrics) < 2 ^ 64 →
    s.totalDuration.toNanos = Duration.sumNanos (durationsOf metrics)
  /-- The mean in whole nanoseconds, rounded down; zero where there is no task. -/
  average : s.averageDuration.toNanos = s.totalDuration.toNanos / s.tasksProcessed
  ordered : Duration.sumNanos (durationsOf metrics) < 2 ^ 64 →
    s.minDuration.toNanos ≤ s.averageDuration.toNanos ∧
      s.averageDuration.toNanos ≤ s.maxDuration.toNanos ∧
      s.maxDuration.toNanos ≤ s.totalDuration.toNanos

namespace Duration

variable {durations : List Duration}

/-- A sum is no less than its least part as often as there are parts. -/
theorem le_sumNanos {least : Nat} (least_le : ∀ d ∈ durations, least ≤ d.toNanos) :
    durations.length * least ≤ sumNanos durations := by
  simpa [sumNanos] using List.card_nsmul_le_sum (durations.map toNanos) least (by simpa using least_le)

/-- A sum is no more than its greatest part as often as there are parts. -/
theorem sumNanos_le {greatest : Nat} (le_greatest : ∀ d ∈ durations, d.toNanos ≤ greatest) :
    sumNanos durations ≤ durations.length * greatest := by
  simpa [sumNanos] using List.sum_le_card_nsmul (durations.map toNanos) greatest (by simpa using le_greatest)

/-- The mean of durations lies between the shortest and the longest of them. -/
theorem mean_between {least greatest : Nat} (some_there : durations ≠ [])
    (least_le : ∀ d ∈ durations, least ≤ d.toNanos) (le_greatest : ∀ d ∈ durations, d.toNanos ≤ greatest) :
    least ≤ sumNanos durations / durations.length ∧ sumNanos durations / durations.length ≤ greatest := by
  have pos := List.length_pos_iff.mpr some_there
  constructor
  · rw [Nat.le_div_iff_mul_le pos, Nat.mul_comm]
    exact le_sumNanos least_le
  · exact Nat.div_le_of_le_mul (sumNanos_le le_greatest)

end Duration

namespace Counters

/-- Durations come to no more together than the longest would as often. -/
theorem sumNanos_le_recordAll (c : Counters) (metrics : List Metric) :
    Duration.sumNanos (durationsOf metrics) ≤
      (c.recordAll metrics).tasksProcessed * (c.recordAll metrics).longest.toNanos := by
  obtain ⟨_, le⟩ := List.max?_eq_some_iff.mp (longest_recordAll c metrics).symm
  have each : ∀ d ∈ durationsOf metrics, d.toNanos ≤ (c.recordAll metrics).longest.toNanos :=
    fun d mem => le _ (List.mem_map_of_mem (List.mem_cons_of_mem _ mem))
  refine Nat.le_trans (Duration.sumNanos_le each) (Nat.mul_le_mul_right _ ?_)
  rw [tasksProcessed_recordAll]
  exact Nat.le_add_left ..

section

variable (since : Nat) (metrics : List Metric) (now : Nat)

/-- What counters keep of recordings that were the first ones. -/
def ofRecordings : Counters :=
  ({ since } : Counters).recordAll metrics

/-- Without durations there is no shortest one. -/
theorem ofRecordings_shortest_of_nil (nothing : durationsOf metrics = []) :
    (ofRecordings since metrics).shortest = none := by
  have least := shortest_recordAll { since } metrics
  rw [nothing] at least
  exact Option.map_eq_none_iff.mp least

/-- With durations, the shortest one is one of them, and none is shorter. -/
theorem ofRecordings_shortest_of_ne_nil (some_there : durationsOf metrics ≠ []) :
    ∃ d ∈ durationsOf metrics, (ofRecordings since metrics).shortest = some d ∧
      ∀ other ∈ durationsOf metrics, d.toNanos ≤ other.toNanos := by
  have least : (ofRecordings since metrics).shortest.map Duration.toNanos =
      ((durationsOf metrics).map Duration.toNanos).min? := shortest_recordAll { since } metrics
  cases kept : (ofRecordings since metrics).shortest with
  | none =>
    rw [kept] at least
    exact absurd (List.map_eq_nil_iff.mp (List.min?_eq_none_iff.mp least.symm)) some_there
  | some d =>
    rw [kept] at least
    obtain ⟨shown, le⟩ := List.min?_eq_some_iff.mp least.symm
    obtain ⟨twin, mem, same⟩ := List.mem_map.mp shown
    obtain rfl := Duration.toNanos_injective same
    exact ⟨twin, mem, rfl, fun other mem => le _ (List.mem_map_of_mem mem)⟩

/-- Without durations the longest one is shown as no time at all. -/
theorem ofRecordings_longest_of_nil (nothing : durationsOf metrics = []) :
    (ofRecordings since metrics).longest = .zero := by
  have greatest := longest_recordAll { since } metrics
  rw [nothing, List.map_singleton, List.max?_singleton, Option.some.injEq] at greatest
  exact Duration.toNanos_injective greatest

/-- With durations, the longest one is one of them, though counting began at no time at all. -/
theorem ofRecordings_longest_of_ne_nil (some_there : durationsOf metrics ≠ []) :
    (ofRecordings since metrics).longest ∈ durationsOf metrics := by
  obtain ⟨mem, le⟩ := List.max?_eq_some_iff.mp (longest_recordAll { since } metrics).symm
  obtain ⟨twin, mem, same⟩ := List.mem_map.mp mem
  obtain rfl := Duration.toNanos_injective same
  rcases List.mem_cons.mp mem with zero | mem
  · -- The longest is no time at all, and so is each of them.
    obtain ⟨d, mem⟩ := List.exists_mem_of_ne_nil _ some_there
    have d_le := le _ (List.mem_map_of_mem (List.mem_cons_of_mem _ mem))
    have none_long : (ofRecordings since metrics).longest.toNanos = 0 :=
      (congrArg Duration.toNanos zero).trans Duration.toNanos_zero
    have same : d.toNanos = (ofRecordings since metrics).longest.toNanos :=
      Nat.le_antisymm d_le (none_long.trans_le (Nat.zero_le _))
    exact Duration.toNanos_injective same ▸ mem
  · exact mem

/-- None of the durations is longer than the longest one. -/
theorem ofRecordings_le_longest :
    ∀ d ∈ durationsOf metrics, d.toNanos ≤ (ofRecordings since metrics).longest.toNanos := by
  obtain ⟨_, le⟩ := List.max?_eq_some_iff.mp (longest_recordAll { since } metrics).symm
  exact fun d mem => le _ (List.mem_map_of_mem (List.mem_cons_of_mem _ mem))

/-- As long as the durations fit a word together, none of them is cut and the total does not wrap around. -/
theorem ofRecordings_total (fits : Duration.sumNanos (durationsOf metrics) < 2 ^ 64) :
    ((ofRecordings since metrics).snapshot now).totalDuration.toNanos =
      Duration.sumNanos (durationsOf metrics) := by
  rw [toNanos_totalDuration, ofRecordings, totalNanos_recordAll, Duration.sum_wordNanos fits,
    UInt64.toNat_zero, Nat.zero_add, Nat.mod_eq_of_lt fits]

/-- A snapshot shows as many processed tasks as durations were recorded. -/
theorem ofRecordings_processed :
    ((ofRecordings since metrics).snapshot now).tasksProcessed = (durationsOf metrics).length :=
  (tasksProcessed_recordAll { since } metrics).trans (Nat.zero_add _)

/-- There are no more tasks that have finished than recordings. -/
theorem ofRecordings_fits (few : metrics.length < UInt64.size) :
    let s := (ofRecordings since metrics).snapshot now
    s.tasksCompleted < UInt64.size ∧ s.tasksFailed < UInt64.size ∧ s.tasksProcessed < UInt64.size := by
  intro s
  have processed : s.tasksProcessed < UInt64.size := by
    rw [ofRecordings_processed]
    exact Nat.lt_of_le_of_lt (List.length_filterMap_le ..) few
  exact ⟨Nat.lt_of_le_of_lt (Nat.le_add_right ..) processed,
    Nat.lt_of_le_of_lt (Nat.le_add_left ..) processed, processed⟩

/-- Without durations the shortest one is shown as no time at all. -/
theorem ofRecordings_minDuration_of_nil (nothing : durationsOf metrics = []) :
    ((ofRecordings since metrics).snapshot now).minDuration = .zero :=
  congrArg (·.getD .zero) (ofRecordings_shortest_of_nil since metrics nothing)

/-- With durations, the shortest one that is shown is one of them, and none is shorter. -/
theorem ofRecordings_minDuration_of_ne_nil (some_there : durationsOf metrics ≠ []) :
    ((ofRecordings since metrics).snapshot now).minDuration ∈ durationsOf metrics ∧
      ∀ d ∈ durationsOf metrics, ((ofRecordings since metrics).snapshot now).minDuration.toNanos ≤ d.toNanos := by
  obtain ⟨d, mem, kept, le⟩ := ofRecordings_shortest_of_ne_nil since metrics some_there
  have least : ((ofRecordings since metrics).snapshot now).minDuration = d := congrArg (·.getD .zero) kept
  rw [least]
  exact ⟨mem, le⟩

/-- Shortest, mean, longest and total are in this order, as long as the total does not wrap around. -/
theorem ofRecordings_ordered (fits : Duration.sumNanos (durationsOf metrics) < 2 ^ 64) :
    let s := (ofRecordings since metrics).snapshot now
    s.minDuration.toNanos ≤ s.averageDuration.toNanos ∧ s.averageDuration.toNanos ≤ s.maxDuration.toNanos ∧
      s.maxDuration.toNanos ≤ s.totalDuration.toNanos := by
  intro s
  have total : s.totalDuration.toNanos = _ := ofRecordings_total since metrics now fits
  have average : s.averageDuration.toNanos =
      Duration.sumNanos (durationsOf metrics) / (durationsOf metrics).length := by
    rw [toNanos_averageDuration, ofRecordings_total since metrics now fits, ofRecordings_processed]
  by_cases some_there : durationsOf metrics = []
  · have least : s.minDuration = .zero := ofRecordings_minDuration_of_nil since metrics now some_there
    have greatest : s.maxDuration = .zero := ofRecordings_longest_of_nil since metrics some_there
    rw [average, least, greatest, some_there]
    simp [Duration.sumNanos]
  · have greatest : s.maxDuration ∈ durationsOf metrics :=
      ofRecordings_longest_of_ne_nil since metrics some_there
    have between := Duration.mean_between some_there
      (ofRecordings_minDuration_of_ne_nil since metrics now some_there).2 (ofRecordings_le_longest since metrics)
    rw [average, total]
    exact ⟨between.1, between.2, Duration.toNanos_le_sumNanos greatest⟩

/-- All that a snapshot shows of recordings, put together. -/
theorem ofRecordings_sumsUp : ((ofRecordings since metrics).snapshot now).SumsUp metrics where
  completed := (count_recordAll { since } metrics .taskCompleted).trans (Nat.zero_add _)
  failed := (count_recordAll { since } metrics .taskFailed).trans (Nat.zero_add _)
  processed := ofRecordings_processed since metrics now
  fits few := ofRecordings_fits since metrics now few
  unset nothing :=
    ⟨ofRecordings_minDuration_of_nil since metrics now nothing,
      ofRecordings_longest_of_nil since metrics nothing⟩
  min_mem some_there := (ofRecordings_minDuration_of_ne_nil since metrics now some_there).1
  min_le d mem := (ofRecordings_minDuration_of_ne_nil since metrics now (List.ne_nil_of_mem mem)).2 d mem
  max_mem := ofRecordings_longest_of_ne_nil since metrics
  le_max := ofRecordings_le_longest since metrics
  total := ofRecordings_total since metrics now
  average := toNanos_averageDuration _ now
  ordered := ofRecordings_ordered since metrics now

end

/-- What a collector shows after recordings depends on nothing but the kinds and the durations among them,
in whatever order and by whichever worker they were made, and is what its names say. -/
theorem snapshot_of_recordings (since now : Nat) {metrics other : List Metric}
    (same : (metrics.map Metric.gist).Perm (other.map Metric.gist)) :
    (ofRecordings since metrics).snapshot now = (ofRecordings since other).snapshot now ∧
      ((ofRecordings since metrics).snapshot now).SumsUp metrics :=
  ⟨congrArg (snapshot · now) (recordAll_eq_of_perm _ same), ofRecordings_sumsUp since metrics now⟩

/-- A task that failed after eight milliseconds and one that was completed after three took five and a half
on average, whichever of them finished first. -/
theorem snapshot_of_recordings_of_two :
    ((ofRecordings 0 [.taskFailed "b" (.ofMillis 8), .retryAttempt 2,
      .taskCompleted "a" (.ofMillis 3)]).snapshot 9).averageDuration.toNanos = 5500000 := by
  obtain ⟨same, sums⟩ := @snapshot_of_recordings 0 9
    [.taskCompleted "a" (.ofMillis 3), .taskFailed "a" (.ofMillis 8), .retryAttempt 2]
    [.taskFailed "b" (.ofMillis 8), .retryAttempt 2, .taskCompleted "a" (.ofMillis 3)] (by decide)
  rw [← same, sums.average, sums.total (by decide), sums.processed]
  decide

/-! ## The total from one snapshot to a later one -/

/-- From one snapshot to a later one the total grows by the durations in between, up to multiples of the size of
a word. -/
theorem totalDuration_recordAll (c : Counters) (metrics : List Metric) (now later : Nat) :
    ((c.recordAll metrics).snapshot later).totalDuration.toNanos =
      ((c.snapshot now).totalDuration.toNanos + ((durationsOf metrics).map Duration.wordNanos).sum) % 2 ^ 64 := by
  rw [toNanos_totalDuration, toNanos_totalDuration, totalNanos_recordAll]

/-- A total that is shown fits a word. -/
theorem totalDuration_lt (c : Counters) (now : Nat) : (c.snapshot now).totalDuration.toNanos < 2 ^ 64 := by
  rw [toNanos_totalDuration]
  exact c.totalNanos.toNat_lt

/-- One recording adds less than a word holds. -/
theorem sum_wordNanos_single (metric : Metric) :
    ((durationsOf [metric]).map Duration.wordNanos).sum < 2 ^ 64 := by
  have alone : durationsOf [metric] = metric.duration?.toList :=
    (durationsOf_cons metric []).trans (List.append_nil _)
  rw [alone]
  cases metric.duration? with
  | none => exact Nat.two_pow_pos 64
  | some d =>
    rw [Option.toList_some, List.map_singleton, List.sum_singleton]
    exact d.wordNanos_lt

/-- From one snapshot to a later one, the total grows by the durations that were recorded in between, each
cut to a word, and wraps around at the limit of a word: it loses nothing as long as the sum stays below that
limit, and a recording makes it smaller exactly if it takes the sum to the limit or beyond. -/
theorem totalDuration_wraps (c : Counters) (metrics : List Metric) (now later : Nat) :
    let shown := (c.snapshot now).totalDuration.toNanos
    let shownLater := ((c.recordAll metrics).snapshot later).totalDuration.toNanos
    let added := ((durationsOf metrics).map Duration.wordNanos).sum
    shownLater = (shown + added) % 2 ^ 64 ∧
      (shown + added < 2 ^ 64 → shown ≤ shownLater) ∧
      (metrics.length = 1 → (shownLater < shown ↔ 2 ^ 64 ≤ shown + added)) := by
  intro shown shownLater added
  have wraps : shownLater = (shown + added) % 2 ^ 64 := totalDuration_recordAll c metrics now later
  have lt : shown < 2 ^ 64 := totalDuration_lt c now
  refine ⟨wraps, fun fits => ?_, fun single => ?_⟩
  · rw [wraps, Nat.mod_eq_of_lt fits]
    exact Nat.le_add_right ..
  · obtain ⟨metric, rfl⟩ := List.length_eq_one_iff.mp single
    have cut : added < 2 ^ 64 := sum_wordNanos_single metric
    clear_value shown shownLater added
    omega

/-- After as much time as a word holds, one nanosecond more leaves nothing of the total. -/
theorem totalDuration_wraps_of_full :
    (((ofRecordings 0 [.taskCompleted "a" (.ofNanos 18446744073709551615)]).recordAll
        [.taskFailed "a" (.ofNanos 1)]).snapshot 2).totalDuration.toNanos <
      ((ofRecordings 0 [.taskCompleted "a" (.ofNanos 18446744073709551615)]).snapshot 1).totalDuration.toNanos := by
  refine ((totalDuration_wraps _ [.taskFailed "a" (.ofNanos 1)] 1 2).2.2 rfl).mpr ?_
  rw [ofRecordings_total 0 _ 1 (by decide)]
  decide

end Counters

end WorkerPool
