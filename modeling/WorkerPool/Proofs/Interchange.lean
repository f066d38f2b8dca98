import WorkerPool.Proofs.Discretion

/-!
# Collectors are interchangeable

A collector is told of everything that a pool does and has clocks of its own, but nothing in the pool
hangs on it. `Pool.unmetered` is a pool as it would be with a collector that keeps nothing: what was
collected is forgotten, and the reports are struck from the journal. Everything that may happen to a pool
may happen to the unmetered one as well and comes to the same there (`Occurs.unmetered`), and what may
happen to the unmetered pool may happen to the metered one, although that has to let its collector's clocks
go off on the way (`Occurs.exists_metered`). Letting time pass as the pool does by itself comes to the same
as well: a millisecond in which only the collector has something to do is not noticed by anybody
(`unmetered_advanceFrom`, `unmetered_joinFrom`).

So two pools that differ in nothing but their collectors live the same lives (`collectors_interchangeable`).
-/

namespace WorkerPool

variable {C : Client} {α : Type}

/-! ## What is shared -/

/-- Whether an entry is a report of the collector. -/
def Entry.isReport (entry : Entry C) : Bool :=
  match entry.worker, entry.event with
  | none, .log line => line.text = reportText
  | _, _ => false

/-- Entries without the reports among them. -/
def unreported (entries : List (Entry C)) : List (Entry C) :=
  entries.filter fun entry => !entry.isReport

@[simp] theorem unreported_append (first second : List (Entry C)) :
    unreported (first ++ second) = unreported first ++ unreported second :=
  List.filter_append ..

/-- Where there are no reports, none is struck out. -/
theorem unreported_eq_self {entries : List (Entry C)} (others : ∀ entry ∈ entries, entry.isReport = false) :
    unreported entries = entries :=
  List.filter_eq_self.mpr fun entry mem => by rw [others entry mem]; rfl

/-- What running code enters is no report. -/
theorem Entry.isReport_of_worker (time : Nat) (worker : String) (event : Event C) :
    ({ time, worker := some worker, event } : Entry C).isReport = false :=
  rfl

namespace Shared

/-- What is shared, with nothing collected and nothing reported. -/
def unmetered (s : Shared C) : Shared C :=
  { s with
    collector := .discarding
    journal := (unreported s.journal.toList).toArray }

/-- Entries lose the reports among them with the collector. -/
theorem unmetered_withEntries (s : Shared C) (entries : List (Entry C)) :
    (s.withEntries entries).unmetered = s.unmetered.withEntries (unreported entries) := by
  simp [unmetered, withEntries]

/-- Any entry but a report stays. -/
theorem unmetered_enter (s : Shared C) {worker : Option String} {event : Event C}
    (other : ({ time := s.clock, worker, event } : Entry C).isReport = false) :
    (s.enter worker event).unmetered = s.unmetered.enter worker event := by
  rw [enter_eq, enter_eq, unmetered_withEntries, unreported_eq_self (List.forall_mem_singleton.mpr other)]
  rfl

/-- Cancelling a token has nothing to do with the collector. -/
theorem unmetered_cancel (s : Shared C) (token : Token) :
    (s.cancel token).unmetered = s.unmetered.cancel token := by
  cases token <;> rfl

theorem unmetered_stop (s : Shared C) (worker : Option String) :
    (s.stop worker).unmetered = s.unmetered.stop worker := by
  have other : ({
      time := s.clock
      worker
      event := .log ⟨.info, "🔨 Stopping worker pool", [("pool", .text s.pool)]⟩ } : Entry C).isReport = false := by
    cases worker <;> rfl
  unfold stop
  by_cases stops : (s.running && !s.cancelled) = true
  · have stops' : (s.unmetered.running && !s.unmetered.cancelled) = true := stops
    rw [if_pos stops, if_pos stops', unmetered_cancel]
    exact congrArg (·.cancel .own) (s.unmetered_enter other)
  · have stops' : ¬ (s.unmetered.running && !s.unmetered.cancelled) = true := stops
    rw [if_neg stops, if_neg stops']

/-- A worker is answered the same whatever was collected. -/
theorem unmetered_answer (s : Shared C) (worker : String) (request : Request C) :
    s.unmetered.answer (some worker) request =
      ((s.answer (some worker) request).1, (s.answer (some worker) request).2.unmetered) := by
  have entered (event : Event C) :
      s.unmetered.enter (some worker) event = (s.enter (some worker) event).unmetered :=
    (s.unmetered_enter (Entry.isReport_of_worker s.clock worker event)).symm
  cases request with
  | client request =>
    cases request with
    | update => rfl
    | note n => exact congrArg (((), ·)) (entered (.note n))
    | cancel token => exact congrArg (((), ·)) (s.unmetered_cancel token).symm
    | stop => exact congrArg (((), ·)) (s.unmetered_stop (some worker)).symm
  | enter call => exact congrArg (((), ·)) (entered (.call call))
  | log line => exact congrArg (((), ·)) (entered (.log line))
  | record metric =>
    have recorded := unmetered_enter { s with collector := s.collector.record metric }
      (Entry.isReport_of_worker s.clock worker (.metric metric))
    exact congrArg (((), ·)) recorded.symm
  | now | ended | registered | register | tally | escalate => rfl

end Shared

/-! ## What workers do -/

/-- Code does the same up to its next wait. -/
theorem Program.unmetered_resume (worker : String) (code : Code C α) (s : Shared C) :
    code.resume (some worker) s.unmetered =
      ((code.resume (some worker) s).1, (code.resume (some worker) s).2.unmetered) := by
  induction code generalizing s with
  | done | panic => rfl
  | ask request next ih =>
    have continued := congrArg
      (fun result : Request.Answer (C := C) request × Shared C => (next result.1).resume (some worker) result.2)
      (s.unmetered_answer worker request)
    exact continued.trans (ih ..)
  | wait ms heeds next ih =>
    rw [resume, resume]
    by_cases noticed : (heeds && s.cancelled) = true
    · have noticed' : (heeds && s.unmetered.cancelled) = true := noticed
      rw [if_pos noticed, if_pos noticed']
      exact ih ..
    · have noticed' : ¬ (heeds && s.unmetered.cancelled) = true := noticed
      rw [if_neg noticed, if_neg noticed']
      by_cases none : ms = 0
      · rw [if_pos none, if_pos none]
        exact ih ..
      · rw [if_neg none, if_neg none]
        rfl

namespace Thread

variable {w : Worker C} {thread thread' : Thread C} {s s' : Shared C} {steps : List (Step C)}

/-- Code runs alike whatever the collector is, for it is never told anything by it. -/
theorem unmetered_run (w : Worker C) (code : Code C (Option WorkerState)) (s : Shared C) :
    run w code s.unmetered = ((run w code s).1, (run w code s).2.unmetered) := by
  rw [run_eq, run_eq, Program.unmetered_resume]

/-- A thread wakes up at the same time whatever the collector is. -/
theorem wake?_unmetered (thread : Thread C) (s : Shared C) : thread.wake? s.unmetered = thread.wake? s := by
  cases thread <;> rfl

/-- A turn of a thread is the same whatever the collector is. -/
theorem unmetered_turn (w : Worker C) (thread : Thread C) (s : Shared C) :
    turn w thread s.unmetered = ((turn w thread s).1, (turn w thread s).2.unmetered) := by
  unfold turn
  rw [wake?_unmetered]
  cases thread.wake? s with
  | none => rfl
  | some code =>
    dsimp only
    rw [unmetered_run]
    generalize run w code s = result
    obtain ⟨thread', s'⟩ := result
    match thread' with
    | .ready code' => exact unmetered_run w code' s'
    | .waiting .. | .exited => rfl

/-- A step of a thread leaves the same behind. -/
theorem Acts.unmetered (acts : thread.Acts w s steps thread' s') :
    thread.Acts w s.unmetered steps thread' s'.unmetered := by
  cases acts with
  | ask request next =>
    have asked := Acts.ask (w := w) (s := s.unmetered) request next
    rw [s.unmetered_answer] at asked
    exact asked
  | skip free => exact .skip free
  | notice cancelled => exact .notice cancelled
  | sleep free some => exact .sleep free some
  | elapse free le => exact .elapse free le
  | wake cancelled => exact .wake cancelled
  | proceed state => exact .proceed state
  | leave => exact .leave
  | crash x => exact .crash x

/-- Whatever a thread may do unmetered, it may do. -/
theorem Acts.exists_metered (acts : thread.Acts w s.unmetered steps thread' s') :
    ∃ s'', thread.Acts w s steps thread' s'' ∧ s''.unmetered = s' := by
  cases acts with
  | ask request next =>
    have answered := s.unmetered_answer w.id request
    refine ⟨_, ?_, congrArg Prod.snd answered.symm⟩
    rw [answered]
    exact .ask request next
  | skip free => exact ⟨s, .skip free, rfl⟩
  | notice cancelled => exact ⟨s, .notice cancelled, rfl⟩
  | sleep free some => exact ⟨s, .sleep free some, rfl⟩
  | elapse free le => exact ⟨s, .elapse free le, rfl⟩
  | wake cancelled => exact ⟨s, .wake cancelled, rfl⟩
  | proceed state => exact ⟨s, .proceed state, rfl⟩
  | leave => exact ⟨s, .leave, rfl⟩
  | crash x => exact ⟨s, .crash x, rfl⟩

end Thread

/-- A pass over a crew is the same whatever the collector is. -/
theorem Seat.unmetered_pass (crew : List (Seat C)) (s : Shared C) :
    pass crew s.unmetered = ((pass crew s).1, (pass crew s).2.unmetered) := by
  induction crew generalizing s with
  | nil => rfl
  | cons seat rest ih => rw [pass_cons, pass_cons, Thread.unmetered_turn, ih]

/-! ## Beginning and end -/

namespace Pool

variable {p q : Pool C}

/-- The pool with nothing collected and nothing reported. -/
def unmetered (p : Pool C) : Pool C :=
  { p with shared := p.shared.unmetered }

theorem unreported_reports (s : Shared C) {lines : List LogLine}
    (reports : ∀ line ∈ lines, line.text = reportText) : unreported (s.entries none (lines.map .log)) = [] := by
  refine List.filter_eq_nil_iff.mpr fun entry mem => ?_
  obtain ⟨event, mem_events, rfl⟩ := List.mem_map.mp mem
  obtain ⟨line, mem_lines, rfl⟩ := List.mem_map.mp mem_events
  have report : ({ time := s.clock, worker := none, event := .log line } : Entry C).isReport = true :=
    decide_eq_true (reports line mem_lines)
  rw [report]
  exact Bool.false_ne_true

theorem unreported_spans (plan : PoolPlan C) (s : Shared C) : unreported (spans plan s) = spans plan s := by
  refine unreported_eq_self fun entry mem => ?_
  obtain ⟨w, _, rfl⟩ := List.mem_map.mp mem
  rfl

/-- Opening a pool starts the collector, which shows in nothing else. -/
theorem unmetered_opened (p : Pool C) : p.opened.unmetered = p.unmetered.opened := by
  simp only [opened_eq, Collector.lines_start, Shared.unmetered_withEntries, unreported_append, unreported_spans]
  rfl

/-- The last report of a collector is struck as well. -/
theorem unmetered_closed (p : Pool C) : p.closed.unmetered = p.unmetered.closed := by
  have reports := unreported_reports p.shared fun line => Collector.text_of_stop p.shared.collector p.shared.clock
  have struck (lines : List LogLine) :
      p.shared.entries none (.collectorStopped :: (lines ++ [p.stoppedLine]).map .log) =
        p.shared.entries none [.collectorStopped] ++ p.shared.entries none (lines.map .log) ++
          p.shared.entries none [.log p.stoppedLine] := by
    simp [Shared.entries]
  rw [closed_eq, closed_eq, struck, Shared.unmetered_withEntries, unreported_append, unreported_append, reports]
  rfl

/-- Nothing but the collector and its reports changes when reports are due. -/
theorem unmetered_fireReports (p : Pool C) : p.fireReports.unmetered = p.unmetered := by
  have reports := unreported_reports p.shared fun line => Collector.text_of_fire p.shared.collector p.shared.clock
  simp only [fireReports_eq, unmetered, Shared.unmetered_withEntries, reports, Shared.withEntries_nil]
  rfl

/-- A pool can be started whatever its collector is. -/
theorem unmetered_start (p : Pool C) : p.unmetered.start = p.start.map unmetered := by
  have same : p.unmetered.startedAt = p.startedAt := rfl
  unfold Pool.start
  rw [same]
  cases p.startedAt with
  | some => rfl
  | none =>
    dsimp only
    rw [← unmetered_opened]
    rfl

theorem unmetered_stop (p : Pool C) : p.stop.unmetered = p.unmetered.stop := by
  simp only [Pool.stop, unmetered, Shared.unmetered_stop]

/-- What is read from the escalation channel hangs on no collector. -/
theorem unmetered_receiveError (p : Pool C) :
    p.unmetered.receiveError = (p.receiveError.1, p.receiveError.2.unmetered) := by
  have same : p.unmetered.shared.channel = p.shared.channel := rfl
  unfold Pool.receiveError
  rw [same]
  split <;> rfl

/-- A pass over a pool hangs on no collector. -/
theorem unmetered_pass (p : Pool C) : p.pass.unmetered = p.unmetered.pass := by
  have passed := Seat.unmetered_pass p.crew p.shared
  unfold pass
  simp only [unmetered, passed]

/-- The conclusion of a run stops the collector, which shows in nothing else. -/
theorem unmetered_conclude (p : Pool C) : p.conclude.unmetered = p.unmetered.conclude := by
  by_cases finished : p.isOver = true
  · have finished' : p.unmetered.isOver = true := finished
    rw [conclude, conclude, if_pos finished, if_pos finished', unmetered, unmetered_closed]
    rfl
  · have finished' : ¬ p.unmetered.isOver = true := finished
    rw [conclude, conclude, if_neg finished, if_neg finished']

/-- Whatever is due in a millisecond comes to the same. -/
theorem unmetered_settle (p : Pool C) : p.settle.unmetered = p.unmetered.settle := by
  rw [settle, unmetered_conclude, unmetered_pass, unmetered_pass, unmetered_fireReports]
  rfl

/-- Whether a pool is quiet hangs on its threads and its token alone. -/
theorem quiet_unmetered : p.unmetered.Quiet ↔ p.Quiet := by
  refine and_congr (forall_congr' fun seat => ?_) Iff.rfl
  rw [show p.unmetered.shared = p.shared.unmetered from rfl, Thread.wake?_unmetered]
  exact Iff.rfl

/-- In a quiet millisecond nothing happens to the pool. -/
theorem settle_of_quiet (quiet : p.Quiet) : p.unmetered.settle = p.unmetered := by
  obtain ⟨asleep, going⟩ := quiet_unmetered.mpr quiet
  have passed : p.unmetered.pass = p.unmetered := by
    rw [pass, Seat.pass_of_asleep asleep]
  have unfired : p.unmetered.fireReports = p.unmetered := rfl
  rw [settle, unfired, passed, passed, conclude, if_neg (by simp [going])]

/-! ## Time passes -/

/-- Only its workers keep an unmetered pool waiting. -/
theorem mem_dues_of_unmetered {due : Nat} (mem : due ∈ p.unmetered.dues) : due ∈ p.dues := by
  rcases List.mem_append.mp mem with crew | collector
  · exact List.mem_append_left _ crew
  · cases collector

section

variable {now due target : Nat} {rest : Nat → Pool C → Pool C}

/-- What becomes of a pool from millisecond `now` to `target`, where `rest` says what becomes of it from the first
millisecond on at which something is due. -/
def goOn (rest : Nat → Pool C → Pool C) (now target : Nat) (p : Pool C) : Pool C :=
  match p.nextDue? now with
  | none => p.withClock target
  | some due => if due ≤ target then rest due (p.withClock due).settle else p.withClock target

/-- To let time pass is to go on from one due millisecond to the next; here the next one is a parameter. -/
theorem advanceFrom_eq (p : Pool C) (now target : Nat) :
    p.advanceFrom now target = p.goOn (fun due p => p.advanceFrom due target) now target := by
  rw [advanceFrom, goOn]
  split
  · next none_due => simp only [none_due]
  · next next => simp only [next]

/-- So is to wait for a run that has not returned. -/
theorem joinFrom_eq (pending : p.isPending = true) :
    p.joinFrom now target = p.goOn (fun due p => p.joinFrom due target) now target := by
  rw [joinFrom, goOn, if_pos pending]
  split
  · next none_due => simp only [none_due]
  · next next => simp only [next]

/-- There is no waiting for a run that has returned. -/
theorem joinFrom_of_settled (settled : p.isPending = false) : p.joinFrom now target = p := by
  rw [joinFrom, if_neg (by simp [settled])]

/-- Up to the first millisecond at which something is due, time may pass in two steps. -/
theorem nextDue?_pause (lt : now < due) (before : ∀ other ∈ p.dues, now < other → due ≤ other) :
    p.nextDue? now = some due ∨
      p.nextDue? due = p.nextDue? now ∧ ∀ other ∈ p.dues, now < other → due < other := by
  by_cases mem : due ∈ p.dues
  · refine .inl (List.min?_eq_some_iff.mpr ⟨List.mem_filter.mpr ⟨mem, decide_eq_true lt⟩, ?_⟩)
    intro other later
    obtain ⟨mem', lt'⟩ := List.mem_filter.mp later
    exact before other mem' (of_decide_eq_true lt')
  · have later (other : Nat) (mem' : other ∈ p.dues) (lt' : now < other) : due < other := by
      refine Nat.lt_of_le_of_ne (before other mem' lt') ?_
      rintro rfl
      exact mem mem'
    refine .inr ⟨congrArg List.min? (List.filter_congr fun other mem' => ?_), later⟩
    exact decide_eq_decide.mpr ⟨fun h => Nat.lt_trans lt h, later other mem'⟩

/-- A millisecond in which only the collector has something to do makes no difference to the workers. -/
theorem unmetered_pause (quiet : p.Quiet) (clock : p.shared.clock = now)
    (later : ∀ other ∈ p.unmetered.dues, now < other → due < other) :
    (p.unmetered.withClock due).settle = p.unmetered.withClock due := by
  subst clock
  have still : (p.withClock due).Quiet :=
    quiet_withClock quiet fun seat mem other waits =>
      later other (mem_dues (p := p.unmetered) mem waits) (lt_due_of_quiet quiet mem waits)
  exact settle_of_quiet still

/-- Nor does it make any to what becomes of them later. -/
theorem goOn_pause (rest : Nat → Pool C → Pool C) (quiet : p.Quiet) (clock : p.shared.clock = now) (lt : now < due)
    (le : due ≤ target) (before : ∀ other ∈ p.unmetered.dues, now < other → due ≤ other)
    (unrolled : rest due (p.unmetered.withClock due) = (p.unmetered.withClock due).goOn rest due target) :
    rest due (p.unmetered.withClock due).settle = p.unmetered.goOn rest now target := by
  rcases nextDue?_pause lt before with first | ⟨same, later⟩
  · rw [goOn, first]
    exact (if_pos le).symm
  · have same' : (p.unmetered.withClock due).nextDue? due = p.unmetered.nextDue? now := same
    rw [unmetered_pause quiet clock later, unrolled, goOn, goOn, same']
    rfl

/-- To set the clock and do what is due then goes along with leaving the collector out. -/
theorem unmetered_withClock_settle (p : Pool C) (now : Nat) :
    (p.withClock now).settle.unmetered = (p.unmetered.withClock now).settle :=
  unmetered_settle (p.withClock now)

/-- Nothing that keeps the workers waiting is due before the pool has something to do. -/
theorem le_of_nextDue?_unmetered (h : p.nextDue? now = some due) :
    ∀ other ∈ p.unmetered.dues, now < other → due ≤ other :=
  fun other mem => le_of_nextDue? h other (mem_dues_of_unmetered mem)

/-- Where the pool has nothing to do up to `target`, the workers have not either. -/
theorem goOn_beyond (beyond : ∀ due, p.nextDue? now = some due → target < due) :
    p.unmetered.goOn rest now target = p.unmetered.withClock target := by
  unfold goOn
  cases next : p.unmetered.nextDue? now with
  | none => rfl
  | some other =>
    have mem := mem_dues_of_unmetered (List.mem_filter.mp (List.min?_mem next)).1
    have later := lt_of_nextDue? next
    cases first : p.nextDue? now with
    | none => exact absurd later (not_lt_of_nextDue?_eq_none first other mem)
    | some due =>
      have le := le_of_nextDue? first other mem later
      have lt := beyond due first
      exact if_neg (by omega)

/-- With a collector more milliseconds may be due, in which nothing but reports is written; so time passes alike
in steps of different lengths. -/
theorem unmetered_advanceFrom (quiet : p.Quiet) (paced : p.Paced) (clock : p.shared.clock = now) :
    (p.advanceFrom now target).unmetered = p.unmetered.advanceFrom now target := by
  fun_induction advanceFrom now target p with
  | case1 now p none_due =>
    rw [advanceFrom_eq, goOn_beyond (by simp [none_due])]
    rfl
  | case2 now p due next lt le ih =>
    subst clock
    obtain ⟨⟨_, quiet', paced'⟩, clock'⟩ := leads_settle quiet paced next
    rw [ih quiet' paced' clock', unmetered_withClock_settle, advanceFrom_eq p.unmetered]
    exact goOn_pause (fun due p => p.advanceFrom due target) quiet rfl lt le
      (le_of_nextDue?_unmetered next) (advanceFrom_eq ..)
  | case3 now p due next lt beyond =>
    rw [advanceFrom_eq, goOn_beyond (by simpa [next] using beyond)]
    rfl

/-- The same goes for waiting until a run has returned. -/
theorem unmetered_joinFrom (quiet : p.Quiet) (paced : p.Paced) (clock : p.shared.clock = now) :
    (p.joinFrom now target).unmetered = p.unmetered.joinFrom now target := by
  fun_induction joinFrom now target p with
  | case1 now p pending none_due =>
    rw [joinFrom_eq (p := p.unmetered) pending, goOn_beyond (by simp [none_due])]
    rfl
  | case2 now p pending due next lt le ih =>
    subst clock
    obtain ⟨⟨_, quiet', paced'⟩, clock'⟩ := leads_settle quiet paced next
    rw [ih quiet' paced' clock', unmetered_withClock_settle, joinFrom_eq (p := p.unmetered) pending]
    exact goOn_pause (fun due p => p.joinFrom due target) quiet rfl lt le
      (le_of_nextDue?_unmetered next) (joinFrom_eq pending)
  | case3 now p pending due next lt beyond =>
    rw [joinFrom_eq (p := p.unmetered) pending, goOn_beyond (by simpa [next] using beyond)]
    rfl
  | case4 now p settled =>
    have settled' : p.unmetered.isPending = false := Bool.eq_false_iff.mpr settled
    exact (joinFrom_of_settled settled').symm

end

/-! ## What the owner makes of a pool -/

/-- Each command of the owner goes along with leaving the collector out, if the pool is quiet before it. -/
theorem unmetered_command (quiet : p.Quiet) (paced : p.Paced) (command : Command C) :
    (p.command command).unmetered = p.unmetered.command command := by
  cases command with
  | start =>
    rw [Pool.command, Pool.command, unmetered_start]
    cases p.start <;> rfl
  | stop => exact unmetered_stop p
  | advance ms => exact unmetered_advanceFrom quiet paced rfl
  | join ms => exact unmetered_joinFrom quiet paced rfl
  | cancelParent | addHooks | update | takeErrors | dropErrors | readErrors => rfl

/-- So do commands one after another, since each leaves the pool quiet. -/
theorem unmetered_perform (quiet : p.Quiet) (paced : p.Paced) (commands : List (Command C)) :
    (p.perform commands).unmetered = p.unmetered.perform commands := by
  induction commands generalizing p with
  | nil => rfl
  | cons command rest ih =>
    obtain ⟨_, paced'⟩ := runs_command quiet paced command
    have commanded : (p.command command).settle.unmetered = (p.unmetered.command command).settle := by
      rw [unmetered_settle, unmetered_command quiet paced]
    exact (ih (quiet_settle paced') (paced_settle paced')).trans (congrArg (perform · rest) commanded)

/-! ## What may happen to a pool -/

variable {occurrence : Occurrence C} {story : List (Occurrence C)}

/-- Whatever may happen to a pool may happen to it unmetered. -/
theorem Occurs.unmetered (h : p.Occurs occurrence q) : p.unmetered.Occurs occurrence q.unmetered := by
  cases h with
  | start started =>
    have started' := p.unmetered_start
    rw [started] at started'
    exact .start started'
  | refuse refused =>
    have refused' := p.unmetered_start
    rw [refused] at refused'
    exact .refuse refused'
  | stop => exact p.unmetered_stop ▸ .stop
  | receiveError =>
    have received := Occurs.receiveError (p := p.unmetered)
    rw [unmetered_receiveError] at received
    exact received
  | work at_n acts => exact .work at_n acts.unmetered
  | report => exact p.unmetered_fireReports ▸ .report
  | conclude finished => exact p.unmetered_conclude ▸ .conclude finished
  | tick lt quiet le =>
    exact .tick lt (quiet_unmetered.mpr quiet) fun due mem => le due (mem_dues_of_unmetered mem)
  | cancelParent => exact .cancelParent
  | addHooks side hooks => exact .addHooks side hooks
  | update change => exact .update change
  | takeErrors => exact .takeErrors
  | dropErrors => exact .dropErrors
  | readErrors => exact .readErrors

/-- A story of a pool is a story of the pool without its collector. -/
theorem Chronicle.unmetered (h : p.Chronicle story q) : p.unmetered.Chronicle story q.unmetered := by
  induction h with
  | nil => exact .nil
  | snoc _ occurs ih => exact .snoc ih occurs.unmetered

end Pool

/-- The millisecond after something has happened in millisecond `clock`. -/
def Occurrence.clockAfter (clock : Nat) : Occurrence C → Nat
  | tick now => now
  | _ => clock

/-- What happens in a story from millisecond `clock` on, each thing with its millisecond. That time passes, and
that the collector does something by itself, is not told. -/
def timeline (clock : Nat) : List (Occurrence C) → List (Nat × Occurrence C)
  | [] => []
  | .tick now :: rest => timeline now rest
  | .report :: rest => timeline clock rest
  | occurrence :: rest => (clock, occurrence) :: timeline clock rest

namespace Pool

variable {p q : Pool C} {occurrence : Occurrence C} {story more : List (Occurrence C)}

/-- Only time that passes moves the clock. -/
theorem Occurs.clock_eq (h : p.Occurs occurrence q) :
    q.shared.clock = occurrence.clockAfter p.shared.clock := by
  cases h with
  | start started =>
    obtain rfl := start_eq started
    exact p.opened_same.1
  | stop => exact Shared.clock_stop ..
  | receiveError => exact p.spares_receiveError.clock_eq
  | work _ acts => exact acts.evolves.2.1
  | report => exact p.fireReports_same.1
  | conclude finished =>
    rw [Pool.conclude, if_pos finished]
    exact p.closed_same.1
  | refuse | cancelParent | addHooks | update | takeErrors | dropErrors | readErrors | tick => rfl

/-- The clock after a story is what the ticks in it have set it to. -/
theorem Chronicle.clock_eq (h : p.Chronicle story q) :
    q.shared.clock = story.foldl Occurrence.clockAfter p.shared.clock := by
  induction h with
  | nil => rfl
  | snoc _ occurs ih => rw [List.foldl_append, ← ih, occurs.clock_eq]; rfl

end Pool

/-- The timeline of a story that is continued goes on with the clock where the first part left it. -/
theorem timeline_append (clock : Nat) (first second : List (Occurrence C)) :
    timeline clock (first ++ second) =
      timeline clock first ++ timeline (first.foldl Occurrence.clockAfter clock) second := by
  induction first generalizing clock with
  | nil => rfl
  | cons occurrence rest ih =>
    cases occurrence with
    | tick now => exact ih now
    | report => exact ih clock
    | _ => exact congrArg (_ :: ·) (ih clock)

namespace Pool

variable {p q r : Pool C} {occurrence : Occurrence C} {story more : List (Occurrence C)}

/-- A story goes on where it has got to. -/
theorem Chronicle.timeline_append (h : p.Chronicle story q) (more : List (Occurrence C)) :
    timeline p.shared.clock (story ++ more) = timeline p.shared.clock story ++ timeline q.shared.clock more := by
  rw [WorkerPool.timeline_append, h.clock_eq]

/-- Time may pass millisecond by millisecond. -/
theorem exists_ticks (quiet : p.Quiet) {now : Nat} (le : p.shared.clock ≤ now)
    (before : ∀ due ∈ p.unmetered.dues, p.shared.clock < due → now ≤ due) :
    ∃ story, p.Chronicle story (p.withClock now) ∧ timeline p.shared.clock story = [] := by
  induction now, le using Nat.le_induction with
  | base => exact ⟨[], .nil, rfl⟩
  | succ now le ih =>
    have before' : ∀ due ∈ p.unmetered.dues, p.shared.clock < due → now < due := before
    obtain ⟨story, chronicle, silent⟩ := ih fun due mem later => Nat.le_of_lt (before' due mem later)
    have still : (p.withClock now).Quiet := quiet_withClock quiet fun seat mem due waits =>
      before' due (mem_dues (p := p.unmetered) mem waits) (lt_due_of_quiet quiet mem waits)
    have ticks : (p.withClock now).Occurs (.tick (now + 1)) (p.withClock (now + 1)) :=
      .tick (Nat.lt_succ_self now) still fun _ _ later => later
    refine ⟨_, chronicle.snoc ticks, ?_⟩
    rw [chronicle.timeline_append, silent]
    rfl

/-- Whatever may happen to an unmetered pool may happen to the pool, at the same time. -/
theorem Occurs.exists_metered {v : Pool C} (h : p.unmetered.Occurs occurrence v) :
    ∃ story q, p.Chronicle story q ∧ q.unmetered = v ∧
      timeline p.shared.clock story = timeline p.shared.clock [occurrence] := by
  have one {q : Pool C} (occurs : p.Occurs occurrence q) (same : q.unmetered = v) :
      ∃ story q, p.Chronicle story q ∧ q.unmetered = v ∧
        timeline p.shared.clock story = timeline p.shared.clock [occurrence] :=
    ⟨[occurrence], q, .snoc .nil occurs, same, rfl⟩
  cases h with
  | start started =>
    rw [unmetered_start] at started
    cases begun : p.start with
    | error => rw [begun] at started; cases started
    | ok q =>
      rw [begun] at started
      cases started
      exact one (.start begun) rfl
  | refuse refused =>
    rw [unmetered_start] at refused
    cases begun : p.start with
    | error =>
      rw [begun] at refused
      cases refused
      exact one (.refuse begun) rfl
    | ok => rw [begun] at refused; cases refused
  | stop => exact one .stop p.unmetered_stop
  | cancelParent => exact one .cancelParent rfl
  | addHooks side hooks => exact one (.addHooks side hooks) rfl
  | update change => exact one (.update change) rfl
  | takeErrors => exact one .takeErrors rfl
  | dropErrors => exact one .dropErrors rfl
  | readErrors => exact one .readErrors rfl
  | receiveError =>
    rw [unmetered_receiveError] at one ⊢
    exact one .receiveError rfl
  | @work n seat thread s steps at_n acts =>
    obtain ⟨s', acts', rfl⟩ := acts.exists_metered
    exact one (.work at_n acts') rfl
  -- Where reports are thrown away the pool stays as it is, and so it may here.
  | report => exact ⟨[], p, .nil, rfl, rfl⟩
  | conclude finished => exact one (.conclude finished) p.unmetered_conclude
  -- With its collector the pool may have reports due in between, and time passes in smaller steps.
  | tick lt quiet le =>
    obtain ⟨story, chronicle, silent⟩ := exists_ticks (quiet_unmetered.mp quiet) (Nat.le_of_lt lt) le
    exact ⟨story, _, chronicle, rfl, silent⟩

/-- Every story of a pool without its collector comes from one of the pool, in which the clock stops at further
milliseconds on its way. -/
theorem Chronicle.exists_metered {v : Pool C} (h : p.unmetered.Chronicle story v) :
    ∃ story' q, p.Chronicle story' q ∧ q.unmetered = v ∧
      timeline p.shared.clock story' = timeline p.shared.clock story := by
  induction h with
  | nil => exact ⟨[], p, .nil, rfl, rfl⟩
  | @snoc story occurrence _ r before occurs ih =>
    obtain ⟨first, q, chronicle, rfl, same⟩ := ih
    obtain ⟨second, r', next, rfl, same'⟩ := occurs.exists_metered
    refine ⟨first ++ second, r', chronicle.trans next, rfl, ?_⟩
    rw [chronicle.timeline_append, same, same']
    exact (before.timeline_append [occurrence]).symm

/-! ## Two collectors -/

/-- Two pools that are built alike but for their collectors live the same lives. Whatever their owner asks of
them in the same order, they come to the same, what was collected and reported aside: the same calls, hooks,
notes and lines at the same times, the same threads, the same escalations, the same result at the same time.
And however the steps of one fall out, those of the other may fall out so as well: then the owner is answered the
same, and every worker does the same, at the same times. -/
theorem collectors_interchangeable (b : PoolBuilder C) (state : C.State) (first second : Collector) :
    (∀ commands : List (Command C),
      ((build { b with collector := first } state).perform commands).unmetered =
        ((build { b with collector := second } state).perform commands).unmetered) ∧
    ∀ (story : List (Occurrence C)) (p : Pool C),
      (build { b with collector := first } state).Chronicle story p →
      ∃ story' q, (build { b with collector := second } state).Chronicle story' q ∧
        timeline 0 story' = timeline 0 story ∧ q.unmetered = p.unmetered := by
  have same : (build { b with collector := first } state).unmetered =
      (build { b with collector := second } state).unmetered := rfl
  constructor
  · intro commands
    have performed (collector : Collector) :
        ((build { b with collector } state).perform commands).unmetered =
          (build { b with collector } state).unmetered.perform commands :=
      unmetered_perform (p := build { b with collector } state) ⟨List.forall_mem_nil _, rfl⟩
        (List.forall_mem_nil _) commands
    rw [performed, performed, same]
  · intro story p chronicle
    have plain := chronicle.unmetered
    rw [same] at plain
    obtain ⟨story', q, chronicle', alike, told⟩ := plain.exists_metered
    exact ⟨story', q, chronicle', told, alike⟩

/-- A collector that reports every three milliseconds. -/
def talkative : Collector :=
  .reporting (.new "lonely" (.every (.ofMillis 3)) 0)

/-- A run during which four reports were written goes like one without a collector. -/
theorem collectors_interchangeable_of_talkative :
    ∃ story p, (build { lonely with collector := talkative } ()).Chronicle story p ∧ p.returned.isSome = true ∧
      p.shared.journal.toList.countP Entry.isReport = 4 ∧
      ∃ story' q, (build { lonely with collector := .discarding } ()).Chronicle story' q ∧
        timeline 0 story' = timeline 0 story ∧ q.unmetered = p.unmetered := by
  obtain ⟨events, runs⟩ := runs_perform { lonely with collector := talkative } () [.start, .advance 10]
  obtain ⟨story, _, chronicle⟩ := runs.exists_chronicle
  exact ⟨story, _, chronicle, by decide +kernel, by decide +kernel,
    (collectors_interchangeable lonely () talkative .discarding).2 story _ chronicle⟩

end Pool

end WorkerPool
