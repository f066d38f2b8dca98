import WorkerPool.Proofs.Transcript

/-!
# What is seen of a transcript

Two views of a transcript leave out what a statement is not about. `unlogged` leaves out the lines
written to the log. `marks` keeps what shows how the pool treats client code: the calls it made, how
they ended, and what the collector was told, each with its millisecond. Client code leaves no marks of
its own (`marks_of_act`), so between a call that was made and its ending there is nothing in this view.
-/

namespace WorkerPool

variable {C : Client} {α : Type} {T : Option Nat} {t t' : Nat}

/-- Whether a line was written to the log. -/
def Deed.isLog : Deed C → Bool
  | .asked (.log _) _ => true
  | _ => false

/-- What was done apart from writing to the log. -/
def unlogged (steps : List (Step C)) : List (Step C) :=
  steps.filter fun step => !step.deed.isLog

/-- What is seen of a deed of the pool that concerns client code or the collector. -/
inductive Mark (C : Client) where
  /-- A call of client code was made; a checkout, once it had returned. -/
  | made (call : Call C)
  /-- A call of client code ended. -/
  | ended (ending : Ending C)
  /-- The collector was told something. -/
  | told (metric : Metric)

/-- The mark that a deed leaves. -/
def Deed.mark? : Deed C → Option (Mark C)
  | .asked (.enter call) _ => some (.made call)
  | .asked (.ended ending) _ => some (.ended ending)
  | .asked (.record metric) _ => some (.told metric)
  | _ => none

/-- The marks that a transcript leaves, each with its millisecond. -/
def marks (steps : List (Step C)) : List (Nat × Mark C) :=
  steps.filterMap fun step => step.deed.mark?.map (step.time, ·)

/-- What the collector was told, if that is what the mark is. -/
def Mark.metric? : Mark C → Option Metric
  | .told metric => some metric
  | _ => none

/-- What the collector was told. -/
def recordings (steps : List (Step C)) : List Metric :=
  (marks steps).filterMap fun mark => mark.2.metric?

@[simp] theorem unlogged_nil : unlogged ([] : List (Step C)) = [] := rfl

@[simp] theorem unlogged_append (first second : List (Step C)) :
    unlogged (first ++ second) = unlogged first ++ unlogged second :=
  List.filter_append ..

@[simp] theorem unlogged_cons_log (t : Nat) (line : LogLine) (answer : Unit)
    (rest : List (Step C)) :
    unlogged (⟨t, .asked (.log line) answer⟩ :: rest) = unlogged rest := rfl

@[simp] theorem unlogged_cons_record (t : Nat) (metric : Metric) (answer : Unit)
    (rest : List (Step C)) :
    unlogged (⟨t, .asked (.record metric) answer⟩ :: rest) =
      ⟨t, .asked (.record metric) answer⟩ :: unlogged rest := rfl

@[simp] theorem unlogged_cons_escalate (t : Nat) (error : PoolError) (answer : Bool)
    (rest : List (Step C)) :
    unlogged (⟨t, .asked (.escalate error) answer⟩ :: rest) =
      ⟨t, .asked (.escalate error) answer⟩ :: unlogged rest := rfl

@[simp] theorem unlogged_cons_waited (t : Nat) (heeds : Bool) (wake : Wake)
    (rest : List (Step C)) :
    unlogged (⟨t, .waited heeds wake⟩ :: rest) = ⟨t, .waited heeds wake⟩ :: unlogged rest := rfl

@[simp] theorem marks_nil : marks ([] : List (Step C)) = [] := rfl

@[simp] theorem marks_append (first second : List (Step C)) :
    marks (first ++ second) = marks first ++ marks second :=
  List.filterMap_append

/-- A step enters its own mark, if it has one, with the time at which it is done. -/
@[simp] theorem marks_cons (step : Step C) (rest : List (Step C)) :
    marks (step :: rest) = (step.deed.mark?.map (step.time, ·)).toList ++ marks rest := by
  unfold marks
  cases h : step.deed.mark? <;> simp [h]

@[simp] theorem recordings_nil : recordings ([] : List (Step C)) = [] := rfl

@[simp] theorem recordings_append (first second : List (Step C)) :
    recordings (first ++ second) = recordings first ++ recordings second := by
  simp [recordings]

@[simp] theorem recordings_cons_record (t : Nat) (metric : Metric) (answer : Unit)
    (rest : List (Step C)) :
    recordings (⟨t, .asked (.record metric) answer⟩ :: rest) = metric :: recordings rest := rfl

@[simp] theorem recordings_cons_waited (t : Nat) (heeds : Bool) (wake : Wake)
    (rest : List (Step C)) :
    recordings (⟨t, .waited heeds wake⟩ :: rest) = recordings rest := rfl

/-- A line of the log leaves no mark. -/
theorem marks_unlogged (steps : List (Step C)) : marks (unlogged steps) = marks steps := by
  induction steps with
  | nil => rfl
  | cons step rest ih =>
    obtain ⟨time, deed⟩ := step
    unfold unlogged at ih ⊢
    by_cases log : deed.isLog = true
    · have unmarked : deed.mark? = none := by
        cases deed with
        | waited => rfl
        | asked request => cases request <;> first | rfl | cases log
      simp [log, unmarked, ih]
    · simp [log, ih]

theorem recordings_unlogged (steps : List (Step C)) :
    recordings (unlogged steps) = recordings steps := by
  rw [recordings, marks_unlogged, recordings]

/-- Client code leaves no marks. -/
theorem marks_of_act {code : Act C α} {steps : List (Step C)} {e : Except Panic (PoolResult α)}
    (h : (Code.act code).Runs T t steps e t') : marks steps = [] := by
  unfold Code.act at h
  induction code generalizing t steps with
  | done => cases h; rfl
  | panic => cases h; rfl
  | ask request next ih =>
    obtain ⟨answer, rest, _, rfl, run⟩ := (Program.runs_ask _).mp h
    simp [Deed.mark?, ih answer run]
  | wait ms heeds next ih =>
    cases h with
    | wait ends rest => simp [Deed.mark?, ih _ rest]

end WorkerPool
