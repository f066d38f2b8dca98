import WorkerPool.Proofs.Discretion
import WorkerPool.Proofs.Escalating

/-!
# The life of a pool

Whatever its owner does in whatever order, and whatever its workers do meanwhile, a pool is run once at
most. The first call of `start` begins the run and every other call is refused; the pool is running from
then until the run is concluded; to stop it has an effect once, and only while it is running; and its
collector is started before any worker does anything and stopped after all of them have left
(`chronicle_lifecycle`).
-/

namespace WorkerPool

variable {C : Client}

/-! ## What the owner is told -/

/-- The answer to a call of `start`. -/
def Occurrence.start? : Occurrence C → Option (PoolResult Unit)
  | start result => some result
  | _ => none

/-- Whether the reading end of the escalation channel was there when it was asked for. -/
def Occurrence.takeErrors? : Occurrence C → Option Bool
  | takeErrors there => some there
  | _ => none

/-! ## What the journal tells of the collector -/

/-- Whether an entry is anything but a call by which the collector is started or stopped. -/
def Entry.isOrdinary (entry : Entry C) : Bool :=
  match entry.event with
  | .collectorStarted | .collectorStopped => false
  | _ => true

/-- Whether an entry is a line that no worker wrote. -/
def Entry.isOutside (entry : Entry C) : Bool :=
  match entry.worker, entry.event with
  | none, .log _ => true
  | _, _ => false

/-- What a journal tells of the collector: before the run there are lines that no worker wrote, then the
collector is started, then there is what the workers do, then the collector is stopped, and after that
there are again only lines that no worker wrote. -/
inductive Told : (started returned : Bool) → List (Entry C) → Prop
  | fresh {before : List (Entry C)} (outside : ∀ entry ∈ before, entry.isOutside = true) :
      Told false false before
  | going {before during : List (Entry C)} {time : Nat} (outside : ∀ entry ∈ before, entry.isOutside = true)
      (between : ∀ entry ∈ during, entry.isOrdinary = true) :
      Told true false (before ++ { time, worker := none, event := .collectorStarted } :: during)
  | ended {before during after : List (Entry C)} {time time' : Nat}
      (outside : ∀ entry ∈ before, entry.isOutside = true)
      (between : ∀ entry ∈ during, entry.isOrdinary = true)
      (outside' : ∀ entry ∈ after, entry.isOutside = true) :
      Told true true ((before ++ { time, worker := none, event := .collectorStarted } :: during) ++
        { time := time', worker := none, event := .collectorStopped } :: after)

namespace Told

variable {started returned : Bool} {journal added : List (Entry C)}

/-- What happens outside of any worker is ordinary but for the two calls that bracket a run. -/
theorem isOrdinary_of_isOutside {entry : Entry C} (outside : entry.isOutside = true) :
    entry.isOrdinary = true := by
  obtain ⟨time, worker, event⟩ := entry
  cases worker with
  | some => cases outside
  | none => cases event <;> first | rfl | cases outside

/-- Lines that no worker wrote may come at any time. -/
theorem append_outside (h : Told started returned journal) (outside : ∀ entry ∈ added, entry.isOutside = true) :
    Told started returned (journal ++ added) := by
  cases h with
  | fresh before => exact .fresh (List.forall_mem_append.mpr ⟨before, outside⟩)
  | going before between =>
    rw [List.append_assoc, List.cons_append]
    refine .going before (List.forall_mem_append.mpr ⟨between, fun entry mem => ?_⟩)
    exact isOrdinary_of_isOutside (outside entry mem)
  | ended before between after =>
    rw [List.append_assoc, List.cons_append]
    exact .ended before between (List.forall_mem_append.mpr ⟨after, outside⟩)

/-- While the run is going on, more may come of everything but calls of the collector. -/
theorem append_during (h : Told true false journal) (between : ∀ entry ∈ added, entry.isOrdinary = true) :
    Told true false (journal ++ added) := by
  generalize started_eq : true = started, returned_eq : false = returned at h
  cases h with
  | fresh => cases started_eq
  | ended => cases returned_eq
  | going before earlier =>
    rw [List.append_assoc, List.cons_append]
    exact .going before (List.forall_mem_append.mpr ⟨earlier, between⟩)

end Told

namespace Shared

variable {s s' : Shared C} {sort : Entry C → Bool}

/-- Stopping a pool that is not running does nothing. -/
theorem stop_of_idle (idle : s.running = false) (worker : Option String) : s.stop worker = s :=
  if_neg (by simp [idle])

/-- Stopping a pool that is being stopped does nothing. -/
theorem stop_of_cancelled (cancelled : s.cancelled = true) (worker : Option String) : s.stop worker = s :=
  if_neg (by simp [cancelled])

/-- Stopping a running pool cancels its token in that millisecond, and says so once. -/
theorem stop_of_running (running : s.running = true) (uncancelled : s.cancelled = false)
    (worker : Option String) :
    (s.stop worker).cancelledSince = some s.clock ∧ (s.stop worker).announcements = s.announcements + 1 := by
  have none : s.cancelledSince = none := by simpa [cancelled] using uncancelled
  have stops : s.stop worker = (s.log worker .info stoppingText [("pool", .text s.pool)]).cancel .own :=
    if_pos (by simp [running, uncancelled])
  rw [stops]
  exact ⟨congrArg (·.or (some s.clock)) none, announcements_enter ..⟩

/-- Whether only entries of one sort come into the journal. -/
def Adds (sort : Entry C → Bool) (s s' : Shared C) : Prop :=
  ∃ added, s'.journal.toList = s.journal.toList ++ added ∧ ∀ entry ∈ added, sort entry = true

/-- Who leaves the journal alone adds nothing of another sort. -/
theorem Adds.none (same : s'.journal = s.journal) : s.Adds sort s' :=
  ⟨[], by rw [same, List.append_nil], List.forall_mem_nil _⟩

/-- Who makes entries of one sort adds nothing of another. -/
theorem Adds.withEntries {entries : List (Entry C)} (each : ∀ entry ∈ entries, sort entry = true)
    (same : s'.journal = (s.withEntries entries).journal) : s.Adds sort s' :=
  ⟨entries, by rw [same]; exact List.toList_toArray, each⟩

/-- Who makes one entry of a sort adds nothing of another. -/
theorem Adds.enter {worker : Option String} {event : Event C}
    (one : sort { time := s.clock, worker, event } = true) (same : s'.journal = (s.enter worker event).journal) :
    s.Adds sort s' :=
  .withEntries (List.forall_mem_singleton.mpr one) (same.trans (congrArg _ (s.enter_eq worker event)))

/-- Stopping a pool adds at most the line that says so. -/
theorem adds_stop {worker : Option String}
    (one : ∀ line, sort { time := s.clock, worker, event := .log line } = true) :
    s.Adds sort (s.stop worker) := by
  unfold stop
  split
  · exact .enter (one _) rfl
  · exact .none rfl

/-- No request starts the collector or stops it. -/
theorem adds_answer (s : Shared C) (worker : Option String) (request : Request C) :
    s.Adds Entry.isOrdinary (s.answer worker request).2 := by
  cases request with
  | client request =>
    cases request with
    | stop => exact adds_stop fun _ => rfl
    | cancel token => cases token <;> exact .none rfl
    | note => exact .enter rfl rfl
    | update => exact .none rfl
  | enter | log => exact .enter rfl rfl
  | record metric =>
    have one : ({ time := s.clock, worker, event := .metric metric } : Entry C).isOrdinary = true := rfl
    exact .enter one rfl
  | now | ended | registered | register | tally | escalate => exact .none rfl

end Shared

namespace Pool

variable {plan : PoolPlan C} {p q : Pool C} {events : List (Nat × Step C)} {t : Nat}
  {story more : List (Occurrence C)} {occurrence : Occurrence C}

/-- What a step enters into the journal, unless it is the beginning or the end of the run: lines that no
worker wrote, or what a worker does. -/
theorem Occurs.adds (occurs : p.Occurs occurrence q) :
    occurrence = .start (.ok ()) ∨ occurrence = .conclude ∨
      (q.startedAt = p.startedAt ∧ q.returned = p.returned) ∧ (p.shared.Adds Entry.isOutside q.shared ∨
        ∃ n steps, occurrence = .work n steps ∧ p.shared.Adds Entry.isOrdinary q.shared) := by
  cases occurs with
  | start => exact .inl rfl
  | conclude => exact .inr (.inl rfl)
  | stop => exact .inr (.inr ⟨⟨rfl, rfl⟩, .inl (Shared.adds_stop fun _ => rfl)⟩)
  | report =>
    refine .inr (.inr ⟨⟨rfl, rfl⟩, .inl ?_⟩)
    rw [fireReports_eq]
    refine .withEntries ?_ rfl
    intro entry mem
    obtain ⟨event, mem_events, rfl⟩ := List.mem_map.mp mem
    obtain ⟨line, _, rfl⟩ := List.mem_map.mp mem_events
    rfl
  | @work n seat _ _ steps at_n acts =>
    refine .inr (.inr ⟨⟨rfl, rfl⟩, .inr ⟨n, steps, rfl, ?_⟩⟩)
    obtain ⟨w, thread⟩ := seat
    cases acts with
    | ask request next => exact p.shared.adds_answer _ request
    | skip | notice | elapse | wake | sleep | proceed | leave | crash => exact .none rfl
  | refuse | cancelParent | addHooks | update | takeErrors | dropErrors | readErrors | tick =>
    exact .inr (.inr ⟨⟨rfl, rfl⟩, .inl (.none rfl)⟩)
  | receiveError =>
    have spares := p.spares_receiveError
    refine .inr (.inr ⟨⟨spares.startedAt_eq, spares.returned_eq⟩, .inl ?_⟩)
    unfold Pool.receiveError
    split <;> exact .none rfl

/-! ## Beginning and end -/

/-- The answers to the calls of `start`, in that order. -/
def starts (story : List (Occurrence C)) : List (PoolResult Unit) :=
  story.filterMap Occurrence.start?

/-- Whether the reading end was there, each time it was asked for. -/
def takes (story : List (Occurrence C)) : List Bool :=
  story.filterMap Occurrence.takeErrors?

/-- Whether the first who asks gets one answer and everybody else another, somebody having asked or not. -/
def Once {α : Type} (first other : α) (asked : Prop) (answers : List α) : Prop :=
  answers = [] ∧ ¬ asked ∨ ∃ n, answers = first :: List.replicate n other ∧ asked

/-- What one more step has to be for that. -/
def Answers {α : Type} (first other : α) (before after : Prop) (answer? : Option α) : Prop :=
  answer? = none ∧ (after ↔ before) ∨ answer? = some first ∧ ¬ before ∧ after ∨
    answer? = some other ∧ before ∧ after

/-- With one more answer, the first one is still the only one of its sort. -/
theorem Once.append {α : Type} {first other : α} {before after : Prop} {answers : List α} {answer? : Option α}
    (h : Once first other before answers) (answer : Answers first other before after answer?) :
    Once first other after (answers ++ answer?.toList) := by
  rcases answer with ⟨rfl, iff⟩ | ⟨rfl, never, now⟩ | ⟨rfl, earlier, now⟩
  · simpa [Once, iff] using h
  · rcases h with ⟨rfl, _⟩ | ⟨_, _, asked⟩
    · exact .inr ⟨0, rfl, now⟩
    · exact absurd asked never
  · rcases h with ⟨_, never⟩ | ⟨n, rfl, _⟩
    · exact absurd earlier never
    · exact .inr ⟨n + 1, by simp [List.replicate_succ'], now⟩

/-- A run is begun by one step, which is possible once. -/
theorem Occurs.answers_start (occurs : p.Occurs occurrence q) :
    Answers (.ok ()) (.error .alreadyStarted) (p.startedAt.isSome = true) (q.startedAt.isSome = true)
      occurrence.start? := by
  cases occurs with
  | start started =>
    have unstarted : p.startedAt = none := by
      cases startedAt : p.startedAt with
      | none => rfl
      | some t => rw [not_start startedAt] at started; cases started
    obtain rfl := start_eq started
    exact .inr (.inl ⟨rfl, by simp [unstarted], rfl⟩)
  | refuse refused =>
    cases startedAt : p.startedAt with
    | none =>
      unfold Pool.start at refused
      rw [startedAt] at refused
      cases refused
    | some t =>
      rw [not_start startedAt] at refused
      cases refused
      exact .inr (.inr ⟨rfl, rfl, rfl⟩)
  | conclude finished =>
    rw [Pool.conclude, if_pos finished]
    exact .inl ⟨rfl, Iff.rfl⟩
  | receiveError => exact .inl ⟨rfl, p.spares_receiveError.startedAt_eq ▸ Iff.rfl⟩
  | stop | cancelParent | addHooks | update | takeErrors | dropErrors | readErrors | work | report | tick =>
    exact .inl ⟨rfl, Iff.rfl⟩

/-- The reading end of the escalation channel leaves the pool when it is asked for. -/
theorem Occurs.answers_takeErrors (occurs : p.Occurs occurrence q) :
    Answers true false (p.shared.channel.receiver ≠ .kept) (q.shared.channel.receiver ≠ .kept)
      occurrence.takeErrors? := by
  have still (none : occurrence.takeErrors? = none)
      (same : q.shared.channel.receiver = p.shared.channel.receiver) :
      Answers true false (p.shared.channel.receiver ≠ .kept) (q.shared.channel.receiver ≠ .kept)
        occurrence.takeErrors? :=
    .inl ⟨none, same ▸ Iff.rfl⟩
  cases occurs with
  | start started =>
    obtain rfl := start_eq started
    exact still rfl (by rw [opened_eq]; rfl)
  | stop => exact still rfl (congrArg _ (channel_stop p.shared none))
  | report => exact still rfl (by rw [fireReports_eq]; rfl)
  | conclude finished =>
    rw [Pool.conclude, if_pos finished] at still ⊢
    exact still rfl (by rw [closed_eq]; rfl)
  | takeErrors =>
    unfold Pool.takeErrors Channel.take
    cases receiver : p.shared.channel.receiver with
    -- The first to take the reading end gets it; whether it is read or dropped afterwards, it is gone.
    | kept => exact .inr (.inl ⟨rfl, by simp, by simp⟩)
    | taken | dropped => exact .inr (.inr ⟨rfl, by simp, by simp [receiver]⟩)
  | dropErrors =>
    refine .inl ⟨rfl, ?_⟩
    unfold Pool.dropErrors Channel.drop
    split
    · next taken => simp [taken]
    · exact Iff.rfl
  | receiveError =>
    refine still rfl ?_
    unfold Pool.receiveError Channel.receive
    cases p.shared.channel.queue <;> rfl
  | @work n seat _ _ _ at_n acts =>
    obtain ⟨w, thread⟩ := seat
    cases acts with
    | ask request next => exact still rfl (receiver_answer p.shared (some w.id) request)
    | skip | notice | elapse | wake | sleep | proceed | leave | crash => exact still rfl rfl
  | refuse | cancelParent | addHooks | update | readErrors | tick => exact still rfl rfl

/-- A run is ended by one step. -/
theorem Occurs.returned_eq (occurs : p.Occurs occurrence q) :
    occurrence ≠ .conclude ∧ q.returned = p.returned ∨ occurrence = .conclude ∧ q.returned.isSome = true := by
  cases occurs with
  | start started =>
    obtain rfl := start_eq started
    exact .inl ⟨by simp, rfl⟩
  | conclude finished =>
    rw [Pool.conclude, if_pos finished]
    exact .inr ⟨rfl, rfl⟩
  | receiveError => exact .inl ⟨by simp, p.spares_receiveError.returned_eq⟩
  | refuse | stop | cancelParent | addHooks | update | takeErrors | dropErrors | readErrors | work | report
  | tick => exact .inl ⟨by simp, rfl⟩

/-- What is picked from a list with one more item is what was picked, and perhaps that item. -/
theorem filterMap_snoc {α β : Type} (f : α → Option β) (items : List α) (last : α) :
    (items ++ [last]).filterMap f = items.filterMap f ++ (f last).toList := by
  rw [List.filterMap_append]
  cases h : f last <;> simp [h]

/-- Of all calls of `start` the first one is taken, and every other is refused. -/
theorem chronicle_starts (chronicle : p.Chronicle story q) (unstarted : p.startedAt = none) :
    Once (.ok ()) (.error .alreadyStarted) (q.startedAt.isSome = true) (starts story) := by
  induction chronicle with
  | nil => exact .inl ⟨rfl, by simp [unstarted]⟩
  | @snoc story occurrence _ _ _ occurs ih =>
    rw [starts, filterMap_snoc]
    exact ih.append occurs.answers_start

/-- Of all who ask for the reading end the first one gets it. -/
theorem chronicle_takes (chronicle : p.Chronicle story q) (kept : p.shared.channel.receiver = .kept) :
    Once true false (q.shared.channel.receiver ≠ .kept) (takes story) := by
  induction chronicle with
  | nil => exact .inl ⟨rfl, by simp [kept]⟩
  | @snoc story occurrence _ _ _ occurs ih =>
    rw [takes, filterMap_snoc]
    exact ih.append occurs.answers_takeErrors

/-- A run has returned just if it was concluded. -/
theorem chronicle_concluded (chronicle : p.Chronicle story q) (pending : p.returned = none) :
    .conclude ∈ story ↔ q.returned.isSome = true := by
  induction chronicle with
  | nil => simp [pending]
  | @snoc story occurrence _ _ _ occurs ih =>
    rw [List.mem_append, List.mem_singleton, ih]
    rcases occurs.returned_eq with ⟨other, same⟩ | ⟨rfl, returned⟩
    · rw [same, or_iff_left (Ne.symm other)]
    · simp [returned]

/-- The answers to calls of `start` are found in the story. -/
theorem mem_starts {result : PoolResult Unit} : .start result ∈ story ↔ result ∈ starts story := by
  unfold starts
  rw [List.mem_filterMap]
  constructor
  · exact fun mem => ⟨_, mem, rfl⟩
  · rintro ⟨occurrence, mem, answer⟩
    cases occurrence <;> cases answer
    exact mem

/-! ## What is told of a pool -/

/-- When a pool is opened, the start of the collector comes first. -/
theorem told_opened (h : Told false false p.shared.journal.toList) :
    Told true false p.opened.journal.toList := by
  have spans_ordinary : ∀ entry ∈ spans p.plan p.shared, entry.isOrdinary = true := by
    intro entry mem
    obtain ⟨w, _, rfl⟩ := List.mem_map.mp mem
    rfl
  have begun : p.opened.journal.toList = (p.shared.journal.toList ++
      p.shared.entries none [.log (startingLine p.plan)]) ++
      { time := p.shared.clock, worker := none, event := .collectorStarted } :: spans p.plan p.shared := by
    rw [opened_eq, Collector.lines_start]
    simp [Shared.withEntries, Shared.entries]
  rw [begun]
  generalize p.shared.journal.toList = journal at h
  cases h with
  | fresh outside =>
    exact .going (List.forall_mem_append.mpr ⟨outside, List.forall_mem_singleton.mpr rfl⟩) spans_ordinary

/-- When a pool is closed, the stop of the collector comes last. -/
theorem told_closed (h : Told true false p.shared.journal.toList) :
    Told true true p.closed.journal.toList := by
  have lines_outside (lines : List LogLine) :
      ∀ entry ∈ p.shared.entries none (lines.map .log), entry.isOutside = true := by
    intro entry mem
    obtain ⟨event, mem_events, rfl⟩ := List.mem_map.mp mem
    obtain ⟨line, _, rfl⟩ := List.mem_map.mp mem_events
    rfl
  have ended : p.closed.journal.toList = p.shared.journal.toList ++
      { time := p.shared.clock, worker := none, event := .collectorStopped } ::
        p.shared.entries none (((p.shared.collector.stop p.shared.clock).2 ++ [p.stoppedLine]).map .log) := by
    rw [closed_eq]
    exact List.toList_toArray
  rw [ended]
  generalize p.shared.journal.toList = journal at h
  cases h with
  | going outside between => exact .ended outside between (lines_outside _)

/-- Workers take steps in a run that is going on, and so it is when a run is concluded. -/
theorem Underway.going (h : Underway plan p events t) (occurs : p.Occurs occurrence q)
    (inside : occurrence = .conclude ∨ ∃ n steps, occurrence = .work n steps) : p.returned = none := by
  rcases inside with rfl | ⟨n, steps, rfl⟩
  · cases occurs with
    | conclude finished =>
      have running := ((Bool.and_eq_true ..).mp finished).1
      rwa [h.running_iff, Option.isNone_iff_eq_none] at running
  · cases occurs with
    | work at_n acts =>
      cases returned : p.returned with
      | none => rfl
      | some result =>
        rw [((h.returned_at result.1 result.2 returned).all n _ at_n).1] at acts
        cases acts

/-- Before the run, whatever occurs keeps the collector in its bracket, for the workers do nothing yet. -/
theorem Unstarted.told (h : Unstarted plan p events) (occurs : p.Occurs occurrence q)
    (told : Told false false p.shared.journal.toList) :
    Told q.startedAt.isSome q.returned.isSome q.shared.journal.toList := by
  rcases occurs.adds with rfl | rfl | ⟨⟨startedAt, returned⟩, ⟨added, same, outside⟩ | ⟨n, steps, rfl, _⟩⟩
  · cases occurs with
    | start started =>
      obtain rfl := start_eq started
      rw [h.returned_eq]
      exact told_opened told
  · cases occurs with
    | conclude finished =>
      rw [isOver, h.idle] at finished
      cases finished
  · rw [startedAt, returned, h.startedAt_eq, h.returned_eq, same]
    exact told.append_outside outside
  · cases occurs with
    | work at_n =>
      rw [h.crew_eq] at at_n
      cases at_n

/-- During the run and after it, whatever occurs keeps the collector in its bracket. -/
theorem Underway.told (h : Underway plan p events t) (occurs : p.Occurs occurrence q)
    (told : Told true p.returned.isSome p.shared.journal.toList) :
    Told q.startedAt.isSome q.returned.isSome q.shared.journal.toList := by
  have going := h.going occurs
  rcases occurs.adds with rfl | rfl | ⟨⟨startedAt, returned⟩, ⟨added, same, outside⟩ | ⟨n, steps, rfl, rest⟩⟩
  · cases occurs with
    | start started =>
      rw [not_start h.startedAt_eq] at started
      cases started
  · rw [going (.inl rfl)] at told
    cases occurs with
    | conclude finished =>
      rw [Pool.conclude, if_pos finished, h.startedAt_eq]
      exact told_closed told
  · rw [startedAt, returned, h.startedAt_eq, same]
    exact told.append_outside outside
  · obtain ⟨added, same, ordinary⟩ := rest
    have pending := going (.inr ⟨n, steps, rfl⟩)
    rw [pending] at told
    rw [startedAt, returned, h.startedAt_eq, pending, same]
    exact told.append_during ordinary

/-- In every story the collector is told to start before all that the workers do, and to stop after all of it. -/
theorem chronicle_told (b : PoolBuilder C) (state : C.State)
    (chronicle : (build b state).Chronicle story p) :
    Told p.startedAt.isSome p.returned.isSome p.shared.journal.toList := by
  induction chronicle with
  | nil => exact .fresh (List.forall_mem_nil _)
  | snoc before occurs ih =>
    rcases runs_follows b state before.runs with unstarted | ⟨t, underway⟩
    · rw [unstarted.startedAt_eq, unstarted.returned_eq] at ih
      exact unstarted.told occurs ih
    · rw [underway.startedAt_eq] at ih
      exact underway.told occurs ih

/-! ## Stopping -/

/-- The workers of a pool never say that it is being stopped. -/
theorem chronicle_discreet (b : PoolBuilder C) (state : C.State)
    (chronicle : (build b state).Chronicle story p) :
    ∀ seat ∈ p.crew, seat.thread.Discreet := by
  intro seat mem
  obtain ⟨n, at_n⟩ := List.mem_iff_getElem?.mp mem
  rcases runs_follows b state chronicle.runs with unstarted | ⟨t, underway⟩
  · rw [unstarted.crew_eq] at at_n
    cases at_n
  · refine (underway.at_history n seat at_n).discreet ?_
    rw [underway.work_eq at_n]
    exact (settles_compose _).discreet

/-- Once the token of a pool is cancelled, nobody says any more that the pool is being stopped. -/
theorem chronicle_halted (b : PoolBuilder C) (state : C.State) (before : (build b state).Chronicle story p)
    (cancelled : p.shared.cancelled = true) (chronicle : p.Chronicle more q) :
    q.shared.announcements = p.shared.announcements := by
  induction chronicle with
  | nil => rfl
  | snoc earlier occurs ih =>
    rcases occurs.announces (chronicle_discreet b state (before.trans earlier)) with same | ⟨uncancelled, _⟩
    · exact same.trans ih
    · rw [earlier.runs.evolves.cancelled cancelled] at uncancelled
      cases uncancelled

/-- It is said at most once that the pool is being stopped, and never as long as nobody has stopped it. -/
theorem chronicle_announced (b : PoolBuilder C) (state : C.State)
    (chronicle : (build b state).Chronicle story p) :
    p.shared.announcements ≤ p.shared.cancelled.toNat := by
  induction chronicle with
  | nil => exact Nat.le_refl 0
  | @snoc _ _ p q before occurs ih =>
    rcases occurs.announces (chronicle_discreet b state before) with same | ⟨uncancelled, cancelled, more⟩
    · rw [same]
      cases cancelled : p.shared.cancelled with
      | false =>
        rw [cancelled] at ih
        exact Nat.le_trans ih (Nat.zero_le _)
      | true => rwa [cancelled, ← occurs.runs.evolves.cancelled cancelled] at ih
    · rw [uncancelled] at ih
      rw [more, cancelled]
      exact Nat.succ_le_succ ih

/-! ## The life of a pool -/

/-- What holds of a pool after a story, at all times. -/
structure Lifecycle (story : List (Occurrence C)) (p : Pool C) : Prop where
  /-- The first call of `start` begins the run, and every other one is refused. -/
  starts : Once (.ok ()) (.error .alreadyStarted) (p.startedAt.isSome = true) (starts story)
  /-- A call of `start` that is refused changes nothing. -/
  refuses : p.startedAt.isSome = true → ∀ (result : PoolResult Unit) (q : Pool C), p.Occurs (.start result) q →
    result = .error .alreadyStarted ∧ q = p
  /-- The pool is running from the call that began the run until the run is concluded. -/
  running_iff : p.isRunning = true ↔ .start (.ok ()) ∈ story ∧ .conclude ∉ story
  /-- To stop a pool that is not running changes nothing, whoever asks for it. -/
  idle : p.isRunning = false → p.stop = p ∧ ∀ worker, p.shared.stop worker = p.shared
  /-- The first who stops a running pool cancels its token and says so, be it the owner or client code. -/
  stops : p.isRunning = true → p.shared.cancelled = false →
    (p.stop.shared.cancelledSince = some p.shared.clock ∧ p.stop.shared.announcements = 1) ∧ ∀ worker,
      (p.shared.stop worker).cancelledSince = some p.shared.clock ∧ (p.shared.stop worker).announcements = 1
  /-- Once the token is cancelled, it stays so since then, nobody says any more that the pool is being stopped,
  and to stop the pool changes nothing, whoever asks for it. -/
  halts : p.shared.cancelled = true → ∀ (more : List (Occurrence C)) (q : Pool C), p.Chronicle more q →
    q.shared.cancelledSince = p.shared.cancelledSince ∧ q.shared.announcements = p.shared.announcements ∧
      q.stop = q ∧ ∀ worker, q.shared.stop worker = q.shared
  /-- To cancel the parent token cancels the token, and nobody says so. -/
  parent : p.cancelParent.shared.cancelled = true ∧
    p.cancelParent.shared.announcements = p.shared.announcements
  /-- It is said at most once that the pool is being stopped, and not before its token is cancelled. -/
  announced : p.shared.announcements ≤ 1 ∧ (p.shared.cancelled = false → p.shared.announcements = 0)
  /-- The reading end of the escalation channel is there for the first who asks for it. -/
  takes : Once true false (p.shared.channel.receiver ≠ .kept) (takes story)
  /-- The collector is started once, before any worker does anything, and stopped once, after all have left. -/
  told : Told p.startedAt.isSome p.returned.isSome p.shared.journal.toList

/-- A pool is left alone by a stop that leaves alone what its workers share. -/
theorem stop_eq_self (same : p.shared.stop none = p.shared) : p.stop = p := by
  unfold Pool.stop
  rw [same]

/-- A second start is refused, and changes nothing. -/
theorem Occurs.refused (started : p.startedAt.isSome = true) {result : PoolResult Unit}
    (occurs : p.Occurs (.start result) q) : result = .error .alreadyStarted ∧ q = p := by
  obtain ⟨t, startedAt⟩ := Option.isSome_iff_exists.mp started
  cases occurs with
  | start accepted =>
    rw [not_start startedAt] at accepted
    cases accepted
  | refuse refused =>
    rw [not_start startedAt] at refused
    cases refused
    exact ⟨rfl, rfl⟩

/-- The first answer is among the answers just if somebody has asked. -/
theorem mem_of_once {answers : List (PoolResult Unit)} {asked : Prop}
    (once : Once (.ok ()) (.error .alreadyStarted) asked answers) : .ok () ∈ answers ↔ asked := by
  rcases once with ⟨rfl, never⟩ | ⟨n, rfl, asked⟩
  · simp [never]
  · simp [asked]

/-- A pool is running from the start that is taken to the conclusion of the run. -/
theorem chronicle_running (b : PoolBuilder C) (state : C.State)
    (chronicle : (build b state).Chronicle story p) :
    p.isRunning = true ↔ .start (.ok ()) ∈ story ∧ .conclude ∉ story := by
  rw [mem_starts, mem_of_once (chronicle_starts chronicle rfl), chronicle_concluded chronicle rfl]
  rcases runs_follows b state chronicle.runs with unstarted | ⟨t, underway⟩
  · rw [isRunning, unstarted.idle, unstarted.startedAt_eq]
    simp
  · rw [isRunning, underway.running_iff, underway.startedAt_eq]
    simp

/-- Whatever happens to a pool in whatever order: it is run once at most, it is running just as long as that
run goes on, to stop it has an effect once at most and only then, and its collector is started and stopped
once each, around all that its workers do. -/
theorem chronicle_lifecycle (b : PoolBuilder C) (state : C.State)
    (chronicle : (build b state).Chronicle story p) : Lifecycle story p := by
  have few := chronicle_announced b state chronicle
  constructor
  case starts => exact chronicle_starts chronicle rfl
  case refuses => exact fun started _ _ occurs => occurs.refused started
  case running_iff => exact chronicle_running b state chronicle
  case idle =>
    intro idle
    exact ⟨stop_eq_self (Shared.stop_of_idle idle none), Shared.stop_of_idle idle⟩
  case stops =>
    intro running uncancelled
    -- A stop that finds the pool running cancels the token and says so, for whoever asks for it.
    have first (worker : Option String) : (p.shared.stop worker).cancelledSince = some p.shared.clock ∧
        (p.shared.stop worker).announcements = 1 := by
      obtain ⟨since, more⟩ := Shared.stop_of_running running uncancelled worker
      rw [uncancelled] at few
      rw [more, Nat.le_zero.mp few]
      exact ⟨since, rfl⟩
    exact ⟨first none, first⟩
  case halts =>
    intro cancelled more q later
    have still := later.runs.evolves.cancelled cancelled
    refine ⟨?_, chronicle_halted b state chronicle cancelled later, ?_, Shared.stop_of_cancelled still⟩
    · obtain ⟨moment, mem⟩ := Shared.cancelled_iff.mp cancelled
      exact (later.runs.evolves.mem mem).trans mem.symm
    · exact stop_eq_self (Shared.stop_of_cancelled still none)
  case parent => exact ⟨by simp [cancelParent, Shared.cancel, Shared.cancelled], rfl⟩
  case announced =>
    refine ⟨Nat.le_trans few p.shared.cancelled.toNat_le, fun uncancelled => ?_⟩
    rw [uncancelled] at few
    exact Nat.le_zero.mp few
  case takes => exact chronicle_takes chronicle rfl
  case told => exact chronicle_told b state chronicle

/-- A run that its only worker has stopped, with a request to stop before it and a second start after it. -/
theorem chronicle_lifecycle_of_one :
    ∃ story p, (build lonely ()).Chronicle story p ∧ p.returned.isSome = true ∧
      .start (.error .alreadyStarted) ∈ story ∧ p.shared.announcements = 1 ∧ Lifecycle story p := by
  obtain ⟨_, runs⟩ := runs_perform lonely () [.stop, .start, .advance 10]
  obtain ⟨story, _, chronicle⟩ := runs.exists_chronicle
  have again := not_start (p := (build lonely ()).perform [.stop, .start, .advance 10]) (t := 0) (by decide +kernel)
  have whole := chronicle.snoc (.refuse again)
  refine ⟨_, _, whole, by decide +kernel, by simp, by decide +kernel, chronicle_lifecycle lonely () whole⟩

end Pool

end WorkerPool
