import WorkerPool.Metrics.Station

/-!
# The reports of a history

What the owner of a collector did with it is a list of commands, and the reports that were written
meanwhile are read off the log: each is a `Bulletin`, which says when and why it was written and how many
tasks had finished by then. `Station.bulletins` are the bulletins of a history.

`Bulletin.Spaced n` says of bulletins that none was written for the threshold before `n` tasks had finished
since the one before it. That threshold bulletins are few (`Spaced.count_le`) follows from this alone.
-/

namespace WorkerPool

/-- Why a report was written, as its line in the log says; none for a line that is no report. -/
def LogLine.reason? (line : LogLine) : Option String :=
  match line.fields.lookup "reason" with
  | some (.text reason) => some reason
  | _ => none

/-- A report in the log. -/
structure Bulletin where
  time : Nat
  reason : String
  /-- How many tasks had finished when it was written. -/
  finished : Nat
deriving DecidableEq, Repr

namespace Bulletin

/-- The reports among lines, each with its millisecond, that were written when so many tasks had
finished. -/
def ofLines (finished : Nat) (lines : List (Nat × LogLine)) : List Bulletin :=
  lines.filterMap fun line => line.2.reason?.map fun reason => ⟨line.1, reason, finished⟩

/-- When reports were written for a reason. -/
def timesOf (reason : String) (bulletins : List Bulletin) : List Nat :=
  (bulletins.filter (·.reason = reason)).map (·.time)

/-- Whether it was a ticker that gave rise to the report. -/
def Ticked (b : Bulletin) : Prop :=
  b.reason = ReportReason.interval.label ∨ b.reason = ReportReason.taskThreshold.label

/-- How many tasks had finished at the last of the bulletins, or `mark` if there is none. -/
def markAfter (mark : Nat) (bulletins : List Bulletin) : Nat :=
  (bulletins.getLast?.map (·.finished)).getD mark

/-- Tasks do not become fewer, and for each threshold bulletin `n` of them have finished since the one
before it, or since `mark`. -/
def Spaced (n : Nat) : Nat → List Bulletin → Prop
  | _, [] => True
  | mark, b :: rest =>
    (mark ≤ b.finished ∧ (b.reason = ReportReason.taskThreshold.label → mark + n ≤ b.finished)) ∧
      Spaced n b.finished rest

variable {n mark : Nat} {b : Bulletin} {bulletins more : List Bulletin}

@[simp] theorem ofLines_append (finished : Nat) (first second : List (Nat × LogLine)) :
    ofLines finished (first ++ second) = ofLines finished first ++ ofLines finished second :=
  List.filterMap_append ..

@[simp] theorem timesOf_append (reason : String) (bulletins more : List Bulletin) :
    timesOf reason (bulletins ++ more) = timesOf reason bulletins ++ timesOf reason more := by
  simp [timesOf]

@[simp] theorem markAfter_nil (mark : Nat) : markAfter mark [] = mark := rfl

/-- With each report, the mark moves to the number of tasks that it shows. -/
theorem markAfter_cons (mark : Nat) (b : Bulletin) (rest : List Bulletin) :
    markAfter mark (b :: rest) = markAfter b.finished rest := by
  simp only [markAfter, List.getLast?_cons]
  cases rest.getLast? <;> rfl

/-- The mark after two runs of reports is that of the second one, begun where the first left off. -/
theorem markAfter_append (mark : Nat) (bulletins more : List Bulletin) :
    markAfter mark (bulletins ++ more) = markAfter (markAfter mark bulletins) more := by
  induction bulletins generalizing mark with
  | nil => rfl
  | cons b rest ih => rw [List.cons_append, markAfter_cons, markAfter_cons, ih]

namespace Spaced

/-- Two spaced runs of reports are spaced together if the second begins at the mark that the first one leaves. -/
theorem append (first : Spaced n mark bulletins) (second : Spaced n (markAfter mark bulletins) more) :
    Spaced n mark (bulletins ++ more) := by
  induction bulletins generalizing mark with
  | nil => exact second
  | cons b rest ih =>
    rw [markAfter_cons] at second
    exact ⟨first.1, ih first.2 second⟩

/-- Spaced reports never set the mark back. -/
theorem le_markAfter (spaced : Spaced n mark bulletins) : mark ≤ markAfter mark bulletins := by
  induction bulletins generalizing mark with
  | nil => exact Nat.le_refl mark
  | cons b rest ih =>
    rw [markAfter_cons]
    exact Nat.le_trans spaced.1.1 (ih spaced.2)

/-- For a threshold bulletin, `n` tasks have finished since the one before it. -/
theorem apart (spaced : Spaced n mark (bulletins ++ b :: more))
    (threshold : b.reason = ReportReason.taskThreshold.label) :
    markAfter mark bulletins + n ≤ b.finished := by
  induction bulletins generalizing mark with
  | nil => exact spaced.1.2 threshold
  | cons first rest ih =>
    rw [markAfter_cons]
    exact ih spaced.2

/-- Tasks do not become fewer from one bulletin to the next. -/
theorem pairwise (spaced : Spaced n mark bulletins) : (mark :: bulletins.map (·.finished)).Pairwise (· ≤ ·) := by
  induction bulletins generalizing mark with
  | nil => exact List.pairwise_singleton ..
  | cons b rest ih =>
    have later := ih spaced.2
    refine List.pairwise_cons.mpr ⟨fun finished mem => ?_, later⟩
    rcases List.mem_cons.mp mem with rfl | mem
    · exact spaced.1.1
    · exact Nat.le_trans spaced.1.1 (List.rel_of_pairwise_cons later mem)

/-- No task counts towards two threshold bulletins. -/
theorem count_le (spaced : Spaced n mark bulletins) :
    mark + n * bulletins.countP (·.reason = ReportReason.taskThreshold.label) ≤
      markAfter mark bulletins := by
  induction bulletins generalizing mark with
  | nil => simp
  | cons b rest ih =>
    have later := ih spaced.2
    rw [markAfter_cons, List.countP_cons]
    by_cases threshold : b.reason = ReportReason.taskThreshold.label
    · have first := spaced.1.2 threshold
      simp only [threshold, decide_true, if_true, Nat.mul_add]
      omega
    · have first := spaced.1.1
      simp only [threshold, decide_false, Bool.false_eq_true, if_false, Nat.add_zero]
      omega

end Spaced

end Bulletin

/-! ## Histories -/

/-- Whether a recording tells of a task that has finished. -/
def Metric.finishes : Metric → Bool
  | .taskCompleted .. | .taskFailed .. => true
  | _ => false

/-- A recording adds to the tasks that finished only if it tells of one. -/
theorem Counters.tasksProcessed_record (c : Counters) (metric : Metric) :
    (c.record metric).tasksProcessed = c.tasksProcessed + metric.finishes.toNat := by
  cases metric <;>
    simp only [record, addDuration, tasksProcessed, Metric.finishes, Bool.toNat_true, Bool.toNat_false] <;>
    omega

namespace Station

/-- Whether a command tells of a task that has finished. -/
def Command.finishes : Command → Bool
  | record metric => metric.finishes
  | _ => false

/-- How many tasks finished in a history. -/
def finishedIn (commands : List Command) : Nat :=
  commands.countP Command.finishes

/-- How much time passed in a history. -/
def millisIn : List Command → Nat
  | [] => 0
  | first :: rest => first.millis + millisIn rest

/-- The reports that are written while commands are performed, where so many tasks have finished
before. -/
def bulletins (s : Station) (finished : Nat) : List Command → List Bulletin
  | [] => []
  | first :: rest =>
    Bulletin.ofLines finished (s.command first).2 ++
      (s.command first).1.bulletins (finished + first.finishes.toNat) rest

theorem finishedIn_cons (first : Command) (rest : List Command) :
    finishedIn (first :: rest) = first.finishes.toNat + finishedIn rest := by
  rw [finishedIn, List.countP_cons, Nat.add_comm, finishedIn]
  cases first.finishes <;> rfl

theorem millisIn_cons (first : Command) (rest : List Command) :
    millisIn (first :: rest) = first.millis + millisIn rest := rfl

/-- The reports of a history are those of its beginning, and then those of its rest, with the tasks that
finished before counted in. -/
theorem bulletins_append (s : Station) (finished : Nat) (before after : List Command) :
    s.bulletins finished (before ++ after) = s.bulletins finished before ++
      (s.perform before).1.bulletins (finished + finishedIn before) after := by
  induction before generalizing s finished with
  | nil => rfl
  | cons first rest ih =>
    simp only [List.cons_append, bulletins, perform, ih, List.append_assoc, finishedIn_cons, Nat.add_assoc]

end Station

end WorkerPool
