import WorkerPool.Proofs.Chronicles
import WorkerPool.Proofs.Reporting
import WorkerPool.Proofs.Standing

/-!
# Who says that a pool is being stopped

The line that says so is written where a pool is asked to stop and its token is not cancelled yet, and by
nobody else: workers write many lines, but never this one (`Worker.discreet_segment`). So their threads are
discreet at all times (`Thread.Discreet.acts`).
-/

namespace WorkerPool

variable {C : Client} {α β : Type}

/-- Whether a deed writes the line that says that the pool is being stopped. -/
def Deed.announcesStop : Deed C → Bool
  | .asked (.log line) _ => line.text = stoppingText
  | _ => false

/-- The rule of those who never say that the pool is being stopped. -/
def discretion : Rule C Unit := fun _ deed => if deed.announcesStop then none else some ()

/-- Whether code never says that the pool is being stopped. -/
def Program.Discreet (code : Code C α) : Prop :=
  code.Keeps discretion (fun _ _ => True) ()

/-- Who keeps to the books of the work never says that the pool is being stopped, for the books reserve that
line. -/
theorem discretion_of_bookkeeping {owed owed' : Option MetricKind} {deed : Deed C}
    (h : bookkeeping owed deed = some owed') : discretion () deed = some () := by
  refine if_neg fun announces => ?_
  cases deed with
  | waited => cases announces
  | asked request answer =>
    cases request with
    | log line =>
      have reserved : (Request.log line : Request C).isReserved = true := announces
      simp [bookkeeping, reserved] at h
    | _ => cases announces

/-- The work of a worker is discreet. -/
theorem Program.Settles.discreet {code : Code C α} (h : code.Settles) : code.Discreet :=
  Program.Keeps.relax (f := fun _ => ()) h (fun _ _ _ => trivial) fun _ _ _ => discretion_of_bookkeeping

/-- What the loop of a worker does beside its work is not to say that the pool is being stopped. -/
theorem Deed.announcesStop_of_isChore {deed : Deed C} (chore : deed.isChore = true) : deed.announcesStop = false := by
  cases deed with
  | waited => rfl
  | asked request answer =>
    cases request with
    | log line => exact decide_eq_false (of_decide_eq_true chore)
    | _ => rfl

namespace Worker

variable {w : Worker C}

/-- A segment of a loop is discreet if the work in it is. -/
theorem discreet_segment (work : (w.work w.id).Discreet) (state : WorkerState) : (w.segment state).Discreet :=
  shuns_segment (fun deed : Deed C => deed.announcesStop_of_isChore) (fun _ _ => rfl) work state

/-- So is the start of a loop. -/
theorem discreet_start (work : (w.work w.id).Discreet) : w.start.Discreet :=
  shuns_start (fun deed : Deed C => deed.announcesStop_of_isChore) (fun _ _ => rfl) work

end Worker

/-! ## Threads -/

/-- Whether what is left of a thread never says that the pool is being stopped. -/
def Thread.Discreet : Thread C → Prop
  | .ready code => code.Discreet
  | .waiting _ _ next => ∀ wake, (next wake).Discreet
  | .exited => True

namespace Worker

variable {w : Worker C} {T : Option Nat} {t now : Nat}

/-- A thread that has got somewhere in a discreet loop is discreet from there on. -/
theorem At.discreet (work : (w.work w.id).Discreet) {history : List (Step C)} {thread : Thread C}
    (h : w.At T t now history thread) : thread.Discreet := by
  have kept : ∃ s, discretion.follow () history = some s ∧ thread.Keeps discretion (fun _ => True) s :=
    h.keeps (discreet_start work) fun state _ _ => discreet_segment work state
  obtain ⟨_, _, left⟩ := kept
  cases thread with
  | ready code => exact left
  | waiting due heeds next => exact fun wake => (left wake).choose_spec.2
  | exited => trivial

end Worker

/-- A step of a discreet thread is discreet. -/
theorem Thread.Discreet.acts {w : Worker C} {thread thread' : Thread C} {s s' : Shared C}
    {steps : List (Step C)} (h : thread.Discreet) (acts : thread.Acts w s steps thread' s') :
    ∀ step ∈ steps, step.deed.announcesStop = false := by
  cases acts with
  | ask request next =>
    obtain ⟨_, allowed, _⟩ := h (s.answer (some w.id) request).1
    intro step mem
    obtain rfl := List.mem_singleton.mp mem
    unfold discretion at allowed
    split at allowed
    · cases allowed
    · next silent => simpa using silent
  | skip | notice | elapse | wake =>
    intro step mem
    obtain rfl := List.mem_singleton.mp mem
    rfl
  | sleep | proceed | leave | crash => exact List.forall_mem_nil _

/-! ## The lines of a collector -/

/-- The text of a report. -/
def reportText : String := "🔨 Pool metrics"

namespace Reporter

variable {line : LogLine}

/-- The lines that a reporter writes are reports. -/
theorem text_of_writes {r r' : Reporter} {now : Nat} {reasons : List ReportReason} {lines : List LogLine}
    (writes : r.Writes now reasons lines r') (mem : line ∈ lines) : line.text = reportText := by
  rw [writes.lines_eq] at mem
  obtain ⟨_, _, rfl⟩ := List.mem_map.mp mem
  rfl

/-- So are those that it writes when a period is over. -/
theorem text_of_fire {r : Reporter} {now : Nat} (mem : line ∈ (r.fire now).2) : line.text = reportText := by
  obtain ⟨_, _, writes, _⟩ := r.fire_writes now
  exact text_of_writes writes mem

/-- So is the one that it may write on stopping. -/
theorem text_of_stop {r : Reporter} {now : Nat} (mem : line ∈ (r.stop now).2) : line.text = reportText :=
  text_of_writes (r.stop_writes now).1 mem

/-- Starting a reporter writes nothing. -/
theorem lines_start (r : Reporter) (now : Nat) : (r.start true now).2 = [] := by
  unfold start
  dsimp only
  split
  · rfl
  · rfl
  · next off => cases off

end Reporter

namespace Collector

variable (c : Collector) (now : Nat)

/-- Nor does starting any other collector. -/
theorem lines_start : (c.start true now).2 = [] := by
  cases c with
  | discarding | counting => rfl
  | reporting r => exact r.lines_start now

/-- On stopping, a collector writes nothing but a report. -/
theorem text_of_stop {line : LogLine} (mem : line ∈ (c.stop now).2) : line.text = reportText := by
  cases c with
  | discarding | counting => cases mem
  | reporting r => exact Reporter.text_of_stop mem

/-- What a collector writes as time passes are reports. -/
theorem text_of_fire {line : LogLine} (mem : line ∈ (c.fire now).2) : line.text = reportText := by
  cases c with
  | discarding | counting => cases mem
  | reporting r => exact Reporter.text_of_fire mem

end Collector

/-! ## Announcements -/

/-- Whether an entry is the line that says that the pool is being stopped. -/
def Entry.announcesStop (entry : Entry C) : Bool :=
  match entry.event with
  | .log line => line.text = stoppingText
  | _ => false

namespace Shared

variable {s s' : Shared C}

/-- How often the journal says that the pool is being stopped. -/
def announcements (s : Shared C) : Nat :=
  s.journal.toList.countP Entry.announcesStop

/-- Announcements are counted in the journal, so that entries add those among them. -/
theorem announcements_withEntries (s : Shared C) (entries : List (Entry C)) :
    (s.withEntries entries).announcements = s.announcements + entries.countP Entry.announcesStop := by
  simp [announcements, withEntries]

/-- An entry adds to the announcements only if it is one. -/
theorem announcements_enter (s : Shared C) (worker : Option String) (event : Event C) :
    (s.enter worker event).announcements = s.announcements +
      if ({ time := s.clock, worker, event } : Entry C).announcesStop then 1 else 0 := by
  rw [enter_eq, announcements_withEntries, List.countP_singleton]

/-- Reports do not say that the pool is being stopped. -/
theorem announcements_entries (s : Shared C) (worker : Option String) {lines : List LogLine}
    (others : ∀ line ∈ lines, line.text ≠ stoppingText) :
    (s.entries worker (lines.map .log)).countP Entry.announcesStop = 0 := by
  rw [List.countP_eq_zero]
  intro entry mem
  obtain ⟨event, mem_events, rfl⟩ := List.mem_map.mp mem
  obtain ⟨line, mem_lines, rfl⟩ := List.mem_map.mp mem_events
  simpa [Entry.announcesStop] using others line mem_lines

/-- Whether it is not said in between that the pool is being stopped, or once, by whoever cancelled the
token. -/
def Announces (s s' : Shared C) : Prop :=
  s'.announcements = s.announcements ∨
    s.cancelled = false ∧ s'.cancelled = true ∧ s'.announcements = s.announcements + 1

/-- Whoever stops a running pool cancels its token and says so once; anyone else who asks for that changes
nothing. -/
theorem announces_stop (s : Shared C) (worker : Option String) : s.Announces (s.stop worker) := by
  unfold stop
  split
  · next stops =>
    have uncancelled : s.cancelled = false := by simpa using ((Bool.and_eq_true ..).mp stops).2
    refine .inr ⟨uncancelled, ?_, announcements_enter ..⟩
    simp [cancelled, cancel]
  · exact .inl rfl

/-- Answering a request announces that the pool is being stopped only if the request is to stop it, for the line
itself is not asked for. -/
theorem announces_answer (s : Shared C) (worker : Option String) (request : Request C) {answer : request.Answer}
    (silent : (Deed.asked request answer).announcesStop = false) : s.Announces (s.answer worker request).2 := by
  cases request with
  | client request =>
    cases request with
    | stop => exact s.announces_stop worker
    | cancel token => cases token <;> exact .inl rfl
    | note => exact .inl (announcements_enter ..)
    | update => exact .inl rfl
  | log line =>
    refine .inl ((announcements_enter ..).trans ?_)
    have other : ({ time := s.clock, worker, event := .log line } : Entry C).announcesStop = false := silent
    rw [other]
    rfl
  | enter | record => exact .inl (announcements_enter ..)
  | now | ended | registered | register | tally | escalate => exact .inl rfl

end Shared

namespace Pool

variable {p q : Pool C} {occurrence : Occurrence C}

/-- Nobody says that the pool is being stopped but those who stop it. -/
theorem Occurs.announces (occurs : p.Occurs occurrence q) (discreet : ∀ seat ∈ p.crew, seat.thread.Discreet) :
    p.shared.Announces q.shared := by
  cases occurs with
  | start started =>
    obtain rfl := start_eq started
    refine .inl ?_
    rw [opened_eq, Collector.lines_start]
    -- What opens a run are spans and the line with which it starts.
    have spans_silent : (spans p.plan p.shared).countP Entry.announcesStop = 0 := by
      rw [List.countP_eq_zero]
      intro entry mem
      obtain ⟨w, _, rfl⟩ := List.mem_map.mp mem
      exact Bool.false_ne_true
    refine (Shared.announcements_withEntries ..).trans ?_
    rw [List.countP_append, spans_silent]
    rfl
  | stop => exact p.shared.announces_stop none
  | report =>
    rw [fireReports_eq]
    refine .inl ((Shared.announcements_withEntries ..).trans ?_)
    have others : ∀ line ∈ (p.shared.collector.fire p.shared.clock).2, line.text ≠ stoppingText := by
      intro line mem
      rw [Collector.text_of_fire _ _ mem]
      decide
    rw [Shared.announcements_entries _ _ others]
    rfl
  | conclude finished =>
    rw [Pool.conclude, if_pos finished, closed_eq]
    refine .inl ((Shared.announcements_withEntries ..).trans ?_)
    -- What ends a run are the last reports and the line that it has stopped.
    have others : ∀ line ∈ (p.shared.collector.stop p.shared.clock).2 ++ [p.stoppedLine],
        line.text ≠ stoppingText := by
      intro line mem
      rcases List.mem_append.mp mem with report | last
      · rw [Collector.text_of_stop _ _ report]
        decide
      · obtain rfl := List.mem_singleton.mp last
        show "🔨 Worker pool stopped" ≠ stoppingText
        decide
    exact congrArg (p.shared.announcements + ·) (Shared.announcements_entries p.shared none others)
  | @work n seat _ _ _ at_n acts =>
    have silent := (discreet seat (List.mem_of_getElem? at_n)).acts acts
    obtain ⟨w, thread⟩ := seat
    cases acts with
    | ask request next => exact p.shared.announces_answer _ request (silent _ (List.mem_singleton_self _))
    | skip | notice | elapse | wake | sleep | proceed | leave | crash => exact .inl rfl
  | refuse | cancelParent | addHooks | update | takeErrors | dropErrors | readErrors | tick => exact .inl rfl
  | receiveError =>
    unfold Pool.receiveError
    split <;> exact .inl rfl

end Pool

end WorkerPool
