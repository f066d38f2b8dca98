import WorkerPool.Layer
import WorkerPool.Proofs.Alone

/-!
# How a call crosses layers

Layers of four kinds stand around the work of a worker: some leave notes, some make something else of a result,
some may answer a call themselves, and some are error limits. All of them call what they surround at most once, so
that a call of a layer has a way in, something inside unless the layer answers by itself, and a way out
(`Stratum.wrap_layer`).

A `Crossing` tells of one call of a whole stack, layer by layer from the outermost to the innermost that was
entered, and then of the work itself if the call got there. Whatever a stack does, it does in a crossing
(`exists_crosses`), and everything else follows from what one layer more adds to a crossing. Without a panic every
layer is left as it was entered (`Crosses.notedAfter`). A panic skips the way out of every layer that has not been
left yet, and of no other (`Crosses.notedInside`).
-/

namespace WorkerPool

variable {C : Client} {α : Type} {T : Option Nat} {worker : String} {t t' : Nat}

/-! ## Kinds of layers -/

namespace LayerAct

/-- What a layer does of its own. -/
def own (code : Program C.interface α) : Program C.layerInterface α :=
  code.interpret (J := C.layerInterface) fun request => .ask (.client request) .done

/-- Leave a note in the journal. -/
def note (n : C.Note) : Program C.layerInterface Unit :=
  .ask (I := C.layerInterface) (.client (.note n)) .done

/-- Call what the layer surrounds. -/
def inner : LayerAct C :=
  .ask (I := C.layerInterface) .inner .done

end LayerAct

/-- A layer of one of the usual kinds. -/
inductive Stratum (C : Client) where
  /-- Leaves a note before it calls what it surrounds, and another one after that has returned. -/
  | recording (before after : C.Note)
  /-- Makes something else of the result. -/
  | mapping (change : PoolResult Unit → Act C Unit)
  /-- Looks whether it can answer a call by itself, and passes it on if not. -/
  | shortCircuiting (answer : (worker : String) → Program C.interface (Option (PoolResult Unit)))
  | limiting (limit : ErrorLimit)

namespace Stratum

/-- The layer itself. -/
def layer : Stratum C → Layer C
  | recording before after => .client fun _ => do
    LayerAct.note before
    let result ← LayerAct.inner
    LayerAct.note after
    return result
  | mapping change => .client fun _ => do
    LayerAct.own (change (← LayerAct.inner))
  | shortCircuiting answer => .client fun worker => do
    match ← LayerAct.own (answer worker) with
    | some result => return result
    | none => LayerAct.inner
  | limiting limit => .errorLimit limit

/-- What a layer does on the way in; `none` if it passes the call on. -/
def inward (worker : String) : Stratum C → Code C (Option (PoolResult Unit))
  | recording before _ => .ask (I := C.poolInterface) (.client (.note before)) fun _ => pure none
  | shortCircuiting answer =>
    (answer worker).interpret (J := C.poolInterface) fun request => .ask (.client request) .done
  | mapping _ | limiting _ => pure none

/-- What a layer does on the way out, with the result from inside. -/
def outward (worker : String) : Stratum C → PoolResult Unit → Code C (PoolResult Unit)
  | recording _ after, result => .ask (I := C.poolInterface) (.client (.note after)) fun _ => pure result
  | mapping change, result => Code.act (change result)
  | shortCircuiting _, result => pure result
  | limiting limit, result => limit.observe worker result

end Stratum

/-- What a layer does of its own, it does in the pool. -/
theorem Layer.interpret_own (code : Program C.interface α) (inner : Code C (PoolResult Unit)) :
    (LayerAct.own code).interpret (J := C.poolInterface) (respond inner) =
      code.interpret (J := C.poolInterface) fun request => .ask (.client request) .done := by
  induction code with
  | done | panic => rfl
  | ask request next ih => exact congrArg (Program.ask (I := C.poolInterface) (.client request)) (funext ih)
  | wait ms heeds next ih => exact congrArg (Program.wait ms heeds) (funext ih)

namespace Stratum

/-- A layer has a way in and a way out. -/
theorem wrap_layer (stratum : Stratum C) (next : Work C) (worker : String) :
    stratum.layer.wrap next worker = stratum.inward worker >>= fun
      | some result => pure result
      | none => next worker >>= stratum.outward worker := by
  cases stratum with
  | recording before after => rfl
  | mapping change =>
    exact bind_congr (m := Program C.poolInterface) fun result => Layer.interpret_own (change result) _
  | shortCircuiting answer =>
    refine (Program.interpret_bind ..).trans ?_
    rw [Layer.interpret_own]
    refine bind_congr (m := Program C.poolInterface) fun result => ?_
    cases result <;> rfl
  | limiting limit => rfl

end Stratum

/-! ## One call -/

/-- A layer that a call has entered: what it did on the way in and on the way out, and how its call ended. -/
structure Entrance (C : Client) where
  stratum : Stratum C
  inward : List (Step C)
  outward : List (Step C)
  ending : Except Panic (PoolResult Unit)

/-- A call of a stack of layers: the layers that it entered, the outermost first, and the run of the work that they
surround, if it got there. -/
structure Crossing (C : Client) where
  entrances : List (Entrance C) := []
  work : Option (Stretch C Unit) := none

namespace Entrance

/-- Whether a layer that records left its note on the way in. -/
def NotedBefore (entrance : Entrance C) : Prop :=
  ∀ before after, entrance.stratum = .recording before after →
    ∃ time, entrance.inward = [⟨time, .asked (.client (.note before)) ()⟩]

/-- Whether a layer that records left its note on the way out. -/
def NotedAfter (entrance : Entrance C) : Prop :=
  ∀ before after, entrance.stratum = .recording before after →
    ∃ time, entrance.outward = [⟨time, .asked (.client (.note after)) ()⟩]

/-- Whether a layer that records left no note on the way out. -/
def Unnoted (entrance : Entrance C) : Prop :=
  ∀ before after, entrance.stratum = .recording before after → entrance.outward = []

end Entrance

namespace Crossing

/-- The crossing of a layer more, which is outside of all others. -/
def within (crossing : Crossing C) (entrance : Entrance C) : Crossing C :=
  { crossing with entrances := entrance :: crossing.entrances }

/-- Everything that was done: the layers' ways in, the work, and their ways out in the opposite order. -/
def steps (crossing : Crossing C) : List (Step C) :=
  crossing.entrances.flatMap (·.inward) ++ crossing.work.elim [] (·.steps) ++
    crossing.entrances.reverse.flatMap (·.outward)

/-- How the calls of the layers that were entered ended, and then the work. -/
def endings (crossing : Crossing C) : List (Except Panic (PoolResult Unit)) :=
  crossing.entrances.map (·.ending) ++ crossing.work.toList.map (·.outcome.ending)

/-- Whether nothing panicked. -/
def Returns (crossing : Crossing C) : Prop :=
  ∀ ending ∈ crossing.endings, ∃ result, ending = .ok result

/-- Whether `x` arose in the layer at place `k`, or in the work if that is the place behind all layers: from there on
outwards everything ended with it, and what is further inside had returned. -/
def PanicsAt (crossing : Crossing C) (k : Nat) (x : Panic) : Prop :=
  (∀ i ≤ k, crossing.endings[i]? = some (.error x)) ∧
    ∀ ending ∈ crossing.endings.drop (k + 1), ∃ result, ending = .ok result

/-- Whether the layers that record left their notes on the way out if they are further inside than place `k`, and no
others did. -/
def NotedInside (crossing : Crossing C) (k : Nat) : Prop :=
  ∀ i entrance, crossing.entrances[i]? = some entrance →
    (k < i → entrance.NotedAfter) ∧ (i ≤ k → entrance.Unnoted)

variable {crossing : Crossing C} {entrance : Entrance C} {x : Panic} {k : Nat}

/-- Through one more layer, the steps are those of the way in, those of the crossing within, and those of the
way out. -/
theorem steps_within (crossing : Crossing C) (entrance : Entrance C) :
    (crossing.within entrance).steps = entrance.inward ++ (crossing.steps ++ entrance.outward) := by
  simp [steps, within, List.flatMap_append]

/-- A panic that arises in a layer. -/
theorem Returns.panicsAt_within (returns : crossing.Returns) (panicked : entrance.ending = .error x) :
    (crossing.within entrance).PanicsAt 0 x := by
  refine ⟨fun i le => ?_, returns⟩
  obtain rfl := Nat.le_zero.mp le
  exact congrArg some panicked

/-- A panic that a layer lets pass. -/
theorem PanicsAt.within (panics : crossing.PanicsAt k x) (panicked : entrance.ending = .error x) :
    (crossing.within entrance).PanicsAt (k + 1) x := by
  refine ⟨fun i le => ?_, panics.2⟩
  cases i with
  | zero => exact congrArg some panicked
  | succ i => exact panics.1 i (Nat.le_of_succ_le_succ le)

/-- Where the layers within leave notes behind and this one leaves none, the base stays noted inside. -/
theorem notedInside_within (crossing : Crossing C) (noted : ∀ other ∈ crossing.entrances, other.NotedAfter)
    (unnoted : entrance.Unnoted) : (crossing.within entrance).NotedInside 0 := by
  intro i other found
  cases i with
  | zero =>
    cases found
    exact ⟨nofun, fun _ => unnoted⟩
  | succ i => exact ⟨fun _ => noted other (List.mem_of_getElem? found), nofun⟩

/-- One more layer that leaves a note on its way in and on its way out is noted around all the others. -/
theorem NotedInside.within (noted : crossing.NotedInside k) (unnoted : entrance.Unnoted) :
    (crossing.within entrance).NotedInside (k + 1) := by
  intro i other found
  cases i with
  | zero =>
    cases found
    exact ⟨nofun, fun _ => unnoted⟩
  | succ i =>
    obtain ⟨inside, outside⟩ := noted i other found
    exact ⟨fun lt => inside (Nat.lt_of_succ_lt_succ lt), fun le => outside (Nat.le_of_succ_le_succ le)⟩

end Crossing

/-- How a call crosses layers around work `base` from millisecond `t` to `t'`. -/
inductive Crosses (T : Option Nat) (base : Work C) (worker : String) :
    List (Stratum C) → Nat → Crossing C → Except Panic (PoolResult Unit) → Nat → Prop
  /-- Behind all layers there is the work. -/
  | worked (run : Stretch C Unit) (isOf : run.IsOf T (base worker)) :
      Crosses T base worker [] run.begun { work := some run } run.outcome.ending run.ended
  /-- A layer panics on the way in. -/
  | failed {stratum : Stratum C} {rest : List (Stratum C)} {t t' : Nat} {steps : List (Step C)} {x : Panic}
      (way_in : (stratum.inward worker).Runs T t steps (.error x) t') :
      Crosses T base worker (stratum :: rest) t { entrances := [⟨stratum, steps, [], .error x⟩] } (.error x) t'
  /-- A layer answers by itself. -/
  | answered {stratum : Stratum C} {rest : List (Stratum C)} {t t' : Nat} {steps : List (Step C)}
      {result : PoolResult Unit} (way_in : (stratum.inward worker).Runs T t steps (.ok (some result)) t') :
      Crosses T base worker (stratum :: rest) t { entrances := [⟨stratum, steps, [], .ok result⟩] } (.ok result) t'
  /-- A panic inside passes through a layer. -/
  | unwound {stratum : Stratum C} {rest : List (Stratum C)} {t t₁ t' : Nat} {steps : List (Step C)}
      {crossing : Crossing C} {x : Panic} (way_in : (stratum.inward worker).Runs T t steps (.ok none) t₁)
      (inside : Crosses T base worker rest t₁ crossing (.error x) t') :
      Crosses T base worker (stratum :: rest) t (crossing.within ⟨stratum, steps, [], .error x⟩) (.error x) t'
  /-- A layer is left with what it makes of a result. -/
  | returned {stratum : Stratum C} {rest : List (Stratum C)} {t t₁ t₂ t' : Nat} {steps last : List (Step C)}
      {crossing : Crossing C} {result : PoolResult Unit} {e : Except Panic (PoolResult Unit)}
      (way_in : (stratum.inward worker).Runs T t steps (.ok none) t₁)
      (inside : Crosses T base worker rest t₁ crossing (.ok result) t₂)
      (way_out : (stratum.outward worker result).Runs T t₂ last e t') :
      Crosses T base worker (stratum :: rest) t (crossing.within ⟨stratum, steps, last, e⟩) e t'

variable {base : Work C} {strata : List (Stratum C)} {crossing : Crossing C} {e : Except Panic (PoolResult Unit)}
  {steps : List (Step C)}

/-- Every call of a stack crosses it. -/
theorem exists_crosses (run : (Layer.compose (strata.map (·.layer)) base worker).Runs T t steps e t') :
    ∃ crossing, Crosses T base worker strata t crossing e t' ∧ crossing.steps = steps := by
  induction strata generalizing t steps e t' with
  | nil =>
    obtain ⟨outcome, rfl⟩ := exists_outcome e
    exact ⟨_, .worked ⟨t, t', steps, outcome⟩ run, by simp [Crossing.steps]⟩
  | cons stratum rest ih =>
    rw [List.map_cons, Layer.compose, List.foldr_cons, stratum.wrap_layer] at run
    rcases Program.runs_bind.mp run with ⟨x, rfl, way_in⟩ | ⟨answer, t₁, first, more, rfl, way_in, others⟩
    · exact ⟨_, .failed way_in, by simp [Crossing.steps]⟩
    -- The layer's answer decides whether the call goes further in.
    cases answer with
    | some result =>
      obtain ⟨rfl, rfl, rfl⟩ := Program.runs_pure.mp others
      exact ⟨_, .answered way_in, by simp [Crossing.steps]⟩
    | none =>
      rcases Program.runs_bind.mp others with ⟨x, rfl, inner⟩ | ⟨result, t₂, second, last, rfl, inner, way_out⟩
      · obtain ⟨crossing, inside, rfl⟩ := ih inner
        exact ⟨_, .unwound way_in inside, by simp [Crossing.steps_within]⟩
      · obtain ⟨crossing, inside, rfl⟩ := ih inner
        exact ⟨_, .returned way_in inside way_out, by simp [Crossing.steps_within]⟩

/-! ## What layers that record leave behind -/

namespace Stratum

variable {before after : C.Note}

/-- The way in through a recording layer is one note. -/
theorem runs_inward_recording {answer : Except Panic (Option (PoolResult Unit))}
    (run : ((recording before after).inward worker).Runs T t steps answer t') :
    answer = .ok none ∧ steps = [⟨t, .asked (.client (.note before)) ()⟩] := by
  obtain ⟨_, _, _, rfl, rest⟩ := (Program.runs_ask (.client (.note before))).mp run
  obtain ⟨rfl, rfl, rfl⟩ := Program.runs_pure.mp rest
  exact ⟨rfl, rfl⟩

/-- The way out through a recording layer is one note, and the result goes on as it is. -/
theorem runs_outward_recording {result : PoolResult Unit}
    (run : ((recording before after).outward worker result).Runs T t steps e t') :
    e = .ok result ∧ steps = [⟨t, .asked (.client (.note after)) ()⟩] := by
  obtain ⟨_, _, _, rfl, rest⟩ := (Program.runs_ask (.client (.note after))).mp run
  obtain ⟨rfl, rfl, rfl⟩ := Program.runs_pure.mp rest
  exact ⟨rfl, rfl⟩

/-- Only a short-circuiting layer may do anything else on the way in than pass the call on. -/
theorem eq_shortCircuiting {stratum : Stratum C} {answer : Except Panic (Option (PoolResult Unit))}
    (run : (stratum.inward worker).Runs T t steps answer t') (kept : answer ≠ .ok none) :
    ∃ answer, stratum = .shortCircuiting answer := by
  cases stratum with
  | recording => exact absurd (runs_inward_recording run).1 kept
  | mapping | limiting => exact absurd (Program.runs_pure.mp run).2.1 kept
  | shortCircuiting answer => exact ⟨answer, rfl⟩

end Stratum

namespace Crosses

/-- The crossing ends as the outermost layer does. -/
theorem head?_endings (h : Crosses T base worker strata t crossing e t') : crossing.endings.head? = some e := by
  cases h <;> rfl

/-- The layers that are entered are the first ones, up to some. -/
theorem entered (h : Crosses T base worker strata t crossing e t') :
    crossing.entrances.map (·.stratum) <+: strata := by
  induction h with
  | worked => exact List.nil_prefix
  | failed | answered => exact List.prefix_append [_] _
  | unwound _ _ ih | returned _ _ _ ih => exact List.cons_prefix_cons.mpr ⟨rfl, ih⟩

/-- The work runs once all layers were entered. -/
theorem work_eq_some {run : Stretch C Unit} (h : Crosses T base worker strata t crossing e t')
    (worked : crossing.work = some run) :
    run.IsOf T (base worker) ∧ crossing.entrances.map (·.stratum) = strata := by
  induction h with
  | worked _ isOf =>
    cases worked
    exact ⟨isOf, rfl⟩
  | failed | answered => cases worked
  | unwound _ _ ih | returned _ _ _ ih =>
    obtain ⟨isOf, all⟩ := ih worked
    exact ⟨isOf, congrArg (_ :: ·) all⟩

/-- It does not run only where a layer has kept the call to itself. -/
theorem work_eq_none (h : Crosses T base worker strata t crossing e t') (idle : crossing.work = none) :
    ∃ entrance answer, crossing.entrances.getLast? = some entrance ∧
      entrance.stratum = .shortCircuiting answer := by
  induction h with
  | worked => cases idle
  | @failed stratum _ _ _ _ x way_in =>
    obtain ⟨answer, rfl⟩ := Stratum.eq_shortCircuiting way_in nofun
    exact ⟨_, answer, rfl, rfl⟩
  | @answered stratum _ _ _ _ result way_in =>
    obtain ⟨answer, rfl⟩ := Stratum.eq_shortCircuiting way_in nofun
    exact ⟨_, answer, rfl, rfl⟩
  | unwound _ _ ih | returned _ _ _ ih =>
    obtain ⟨entrance, answer, last, same⟩ := ih idle
    exact ⟨entrance, answer, by simp [Crossing.within, List.getLast?_cons, last], same⟩

/-- Layers that record leave their first note as soon as they are entered. -/
theorem notedBefore (h : Crosses T base worker strata t crossing e t') :
    ∀ entrance ∈ crossing.entrances, entrance.NotedBefore := by
  have noted {stratum : Stratum C} {t t' : Nat} {steps last : List (Step C)} {e : Except Panic (PoolResult Unit)}
      {answer : Except Panic (Option (PoolResult Unit))} (way_in : (stratum.inward worker).Runs T t steps answer t') :
      (⟨stratum, steps, last, e⟩ : Entrance C).NotedBefore := by
    rintro before after rfl
    exact ⟨t, (Stratum.runs_inward_recording way_in).2⟩
  induction h with
  | worked => exact List.forall_mem_nil _
  | failed way_in | answered way_in => exact List.forall_mem_singleton.mpr (noted way_in)
  | unwound way_in _ ih | returned way_in _ _ ih => exact List.forall_mem_cons.mpr ⟨noted way_in, ih⟩

/-- Without a panic every layer is left as it was entered. -/
theorem notedAfter {result : PoolResult Unit} (h : Crosses T base worker strata t crossing e t')
    (ended : e = .ok result) : crossing.Returns ∧ ∀ entrance ∈ crossing.entrances, entrance.NotedAfter := by
  induction h generalizing result with
  | worked => exact ⟨List.forall_mem_singleton.mpr ⟨_, ended⟩, List.forall_mem_nil _⟩
  | failed => cases ended
  | unwound => cases ended
  | answered way_in =>
    refine ⟨List.forall_mem_singleton.mpr ⟨_, rfl⟩, List.forall_mem_singleton.mpr ?_⟩
    rintro before after rfl
    cases (Stratum.runs_inward_recording way_in).1
  | returned _ _ way_out ih =>
    obtain ⟨returns, noted⟩ := ih rfl
    refine ⟨List.forall_mem_cons.mpr ⟨⟨_, ended⟩, returns⟩, List.forall_mem_cons.mpr ⟨?_, noted⟩⟩
    rintro before after rfl
    exact ⟨_, (Stratum.runs_outward_recording way_out).2⟩

/-- A panic skips the way out of the layers that have not been left yet. -/
theorem notedInside {x : Panic} (h : Crosses T base worker strata t crossing e t') (ended : e = .error x) :
    ∃ k, crossing.PanicsAt k x ∧ crossing.NotedInside k := by
  induction h with
  | worked =>
    refine ⟨0, ⟨fun i le => ?_, List.forall_mem_nil _⟩, nofun⟩
    obtain rfl := Nat.le_zero.mp le
    exact congrArg some ended
  | answered => cases ended
  | failed =>
    have nothing : ({} : Crossing C).Returns := List.forall_mem_nil _
    exact ⟨0, nothing.panicsAt_within ended,
      Crossing.notedInside_within {} (List.forall_mem_nil _) fun _ _ _ => rfl⟩
  | unwound _ _ ih =>
    cases ended
    obtain ⟨k, panics, noted⟩ := ih rfl
    exact ⟨k + 1, panics.within rfl, noted.within fun _ _ _ => rfl⟩
  | returned _ inside way_out =>
    -- This layer panics on its way out, when everything inside has returned. One that records never does.
    obtain ⟨returns, noted⟩ := inside.notedAfter rfl
    refine ⟨0, returns.panicsAt_within ended, Crossing.notedInside_within _ noted ?_⟩
    rintro before after rfl
    rw [(Stratum.runs_outward_recording way_out).1] at ended
    cases ended

end Crosses

/-! ## Calls of a stack -/

/-- Whether a call of layers around work goes this way, from millisecond `t` to `t'`. -/
structure Crossing.IsOf (crossing : Crossing C) (T : Option Nat) (strata : List (Stratum C)) (base : Work C)
    (worker : String) (t : Nat) (steps : List (Step C)) (e : Except Panic (PoolResult Unit)) (t' : Nat) : Prop where
  /-- Every layer does as its kind does. -/
  crosses : Crosses T base worker strata t crossing e t'
  /-- The layers do on the way in what they do in their order, and in the opposite order on the way out. -/
  told : crossing.steps = steps
  entered : crossing.entrances.map (·.stratum) <+: strata
  worked : ∀ run, crossing.work = some run →
    run.IsOf T (base worker) ∧ crossing.entrances.map (·.stratum) = strata
  kept : crossing.work = none → ∃ entrance answer, crossing.entrances.getLast? = some entrance ∧
    entrance.stratum = .shortCircuiting answer
  ended : crossing.endings.head? = some e
  notedBefore : ∀ entrance ∈ crossing.entrances, entrance.NotedBefore
  returned : ∀ result, e = .ok result →
    crossing.Returns ∧ ∀ entrance ∈ crossing.entrances, entrance.NotedAfter
  panicked : ∀ x, e = .error x → ∃ k, crossing.PanicsAt k x ∧ crossing.NotedInside k

/-- Layers are composed by composing some of them around the others. And a call of any layers of the usual kinds
enters some of them from the outermost inwards, runs the work once if it has entered all of them and none has kept
the call to itself, and leaves them in the opposite order. Those that record leave a note before and a note after
everything that is inside, unless there is a panic: then those do that are further inside than where it arose. -/
theorem Layer.compose_crosses :
    (∀ (outer inner : List (Layer C)) (base : Work C),
      compose (outer ++ inner) base = compose outer (compose inner base)) ∧
    ∀ (strata : List (Stratum C)) (base : Work C) (worker : String) (T : Option Nat) (t t' : Nat)
      (steps : List (Step C)) (e : Except Panic (PoolResult Unit)),
      (compose (strata.map (·.layer)) base worker).Runs T t steps e t' →
      ∃ crossing : Crossing C, crossing.IsOf T strata base worker t steps e t' := by
  refine ⟨compose_append, fun strata base worker T t t' steps e run => ?_⟩
  obtain ⟨crossing, crosses, told⟩ := exists_crosses run
  exact ⟨crossing, {
    crosses
    told
    entered := crosses.entered
    worked := fun _ => crosses.work_eq_some
    kept := crosses.work_eq_none
    ended := crosses.head?_endings
    notedBefore := crosses.notedBefore
    returned := fun _ => crosses.notedAfter
    panicked := fun _ => crosses.notedInside }⟩

/-- The client whose notes are numbers. -/
def Client.numbering : Client :=
  { Client.bare with Note := Nat }

/-- Layers of each kind, the second of which panics on the way out. -/
def shaky : List (Stratum .numbering) := [
  .recording (1 : Nat) (2 : Nat),
  .mapping fun _ => .panic (.text "shaken"),
  .recording (3 : Nat) (4 : Nat),
  .shortCircuiting fun _ => .done none,
  .limiting ⟨"limit", 2⟩]

/-- What a call of them does whose work returns. -/
def shakySteps : List (Step .numbering) := [
  ⟨0, .asked (.client (.note (1 : Nat))) ()⟩,
  ⟨0, .asked (.client (.note (3 : Nat))) ()⟩,
  ⟨0, .asked (.tally "limit" "w" fun _ => 0) (0 : Nat)⟩,
  ⟨0, .asked (.client (.note (4 : Nat))) ()⟩]

/-- In this call, the inner one of the layers that record leaves both of its notes. -/
theorem Layer.compose_crosses_of_shaky :
    (compose (shaky.map (·.layer)) (fun _ => .done (.ok ())) "w").Runs none 0 shakySteps
        (.error (.text "shaken")) 0 ∧
      ∃ crossing : Crossing .numbering,
        crossing.IsOf none shaky (fun _ => .done (.ok ())) "w" 0 shakySteps (.error (.text "shaken")) 0 := by
  have run : (compose (shaky.map (·.layer)) (fun _ => .done (.ok ())) "w").Runs none 0 shakySteps
      (.error (.text "shaken")) 0 :=
    .ask trivial (.ask trivial (.ask trivial (.ask trivial (.panic (.text "shaken") 0))))
  exact ⟨run, compose_crosses.2 _ _ _ _ _ _ _ _ run⟩

end WorkerPool
