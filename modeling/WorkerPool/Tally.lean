/-!
# Counts of consecutive errors

A `Tally` keeps a count for each name of an error limit and each worker. What was never set is zero. The
counts are natural numbers, which an error limit never lets go more than one above its threshold; a word of
32 bits holds them all unless the threshold is the greatest such word.
-/

namespace WorkerPool

/-- Counts by error limit and worker. -/
structure Tally where
  entries : List ((String × String) × Nat) := []

namespace Tally

/-- The count of a worker under a limit. -/
def count (t : Tally) (limit worker : String) : Nat :=
  (t.entries.lookup (limit, worker)).getD 0

/-- Set the count of a worker under a limit. -/
def set (t : Tally) (limit worker : String) (n : Nat) : Tally where
  entries := ((limit, worker), n) :: t.entries.filter fun entry => !(entry.1 == (limit, worker))

/-- A count that was set is what it was set to. -/
theorem count_set_self (t : Tally) (limit worker : String) (n : Nat) :
    (t.set limit worker n).count limit worker = n := by
  simp [count, set]

/-- Dropping the entry of one key loses the entry of no other. -/
theorem lookup_filter_ne {key other : String × String} (h : other ≠ key)
    (entries : List ((String × String) × Nat)) :
    (entries.filter fun entry => !(entry.1 == key)).lookup other = entries.lookup other := by
  induction entries with
  | nil => rfl
  | cons entry rest ih =>
    obtain ⟨name, n⟩ := entry
    by_cases same : name = key
    · subst same
      simp [List.lookup_cons, ih, beq_eq_false_iff_ne.mpr h]
    · simp [List.lookup_cons, same, ih]

/-- Setting one count leaves every other as it was. -/
theorem count_set_of_ne (t : Tally) {limit worker otherLimit otherWorker : String} (n : Nat)
    (h : (otherLimit, otherWorker) ≠ (limit, worker)) :
    (t.set limit worker n).count otherLimit otherWorker = t.count otherLimit otherWorker := by
  simp only [count, set, List.lookup_cons, beq_eq_false_iff_ne.mpr h]
  rw [lookup_filter_ne h]

end Tally

end WorkerPool
