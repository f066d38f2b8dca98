import WorkerPool.Proofs.Documents

/-!
# Whole numbers in documents

A number among the settings is given by an integer, with as many digits as whoever writes it likes. `Gap` is a document
without the value of one setting, and `Gap.describes_iff` says what filling the gap comes to: the record that the
document means with any other value there, with that setting replaced by what the value means. A `Quantity` is a number
among the settings of a pool, by the keys that lead to it, of which there are two for the numbers of the metrics.

An integer that is written in its place means the number that the digits spell, if there is no minus sign and the type
of the quantity holds it, and else the document means nothing (`Quantity.Reads`).
-/

namespace WorkerPool

open Json

namespace Json

/-! ## Integers -/

namespace Numeral

/-- A number without fraction and exponent. -/
def IsInteger (n : Numeral) : Prop :=
  n.fraction = none ∧ n.exponent = none

/-- The integer that the sign and the digits before the point spell. -/
def integer (n : Numeral) : Int :=
  if n.negative then -(Decimal.ofDigits n.whole : Int) else Decimal.ofDigits n.whole

/-- Zero with a sign. -/
def IsMinusZero (n : Numeral) : Prop :=
  n.negative = true ∧ n.integer = 0

end Numeral

/-- An integer means the natural number that it is, if that is no zero with a sign. -/
theorem meansNatural_number_iff {n : Numeral} (whole : n.IsInteger) (v : Nat) :
    MeansNatural (.number n) v ↔ ¬n.IsMinusZero ∧ n.integer = v := by
  obtain ⟨negative, digits, fraction, exponent⟩ := n
  obtain ⟨noFraction, noExponent⟩ := whole
  subst noFraction noExponent
  cases negative with
  | false =>
    have unsigned : ¬({ negative := false, whole := digits } : Numeral).IsMinusZero := nofun
    rw [and_iff_right unsigned]
    constructor
    · rintro ⟨_, ⟨⟩, spelled⟩
      exact congrArg Int.ofNat spelled
    · intro spelled
      exact ⟨digits, rfl, Int.ofNat.inj spelled⟩
  | true =>
    refine iff_of_false nofun ?_
    rintro ⟨some, spelled⟩
    -- With a sign the digits spell no number above zero, so it would have to be zero.
    have spelled : -(Decimal.ofDigits digits : Int) = v := spelled
    have none : -(Decimal.ofDigits digits : Int) = 0 := by omega
    exact some ⟨rfl, none⟩

/-! ## Gaps -/

/-- A document without the value of a setting, which is that of a member with its key or the item in its turn. -/
inductive Gap {α : Type} (settings : List (Setting α)) (name : String) : (Json → Json) → Prop
  | member {before after : Members} {key : List Piece} (spells : Spells key name.toList) :
      Gap settings name fun value => .object (before ++ (key, value) :: after)
  | item {before after : List Json} (turn : (settings.map (·.name))[before.length]? = some name) :
      Gap settings name fun value => .array (before ++ value :: after)

section

variable {α : Type} {settings : List (Setting α)} {default record : α}

/-- It makes no difference where among the others a member stands. -/
theorem describes_middle {before after : Members} {member : List Piece × Json} :
    Describes settings default (.object (before ++ member :: after)) record ↔
      Describes settings default (.object (member :: (before ++ after))) record := by
  have once : Once settings (before ++ member :: after) ↔ Once settings (member :: (before ++ after)) :=
    List.pairwise_middle fun {_ _} apart s known both => apart s known both.symm
  have mem : ∀ m, m ∈ before ++ member :: after ↔ m ∈ member :: (before ++ after) := fun m =>
    List.perm_middle.mem_iff
  have givenIn : ∀ name value,
      GivenIn (before ++ member :: after) name value ↔ GivenIn (member :: (before ++ after)) name value :=
    fun name value => exists_congr fun key => and_congr_left' (mem (key, value))
  have given : ∀ s : Setting α,
      s.Given (before ++ member :: after) default record ↔ s.Given (member :: (before ++ after)) default record := by
    intro s
    simp only [Setting.Given, givenIn]
  constructor
  · rintro ⟨legible, unique, means⟩
    exact .object (fun m inside => legible m ((mem m).mpr inside)) (once.mp unique)
      fun s known => (given s).mp (means s known)
  · rintro ⟨legible, unique, means⟩
    exact .object (fun m inside => legible m ((mem m).mp inside)) (once.mpr unique)
      fun s known => (given s).mpr (means s known)

variable {s : Setting α} {other : Json} {doc : Json → Json}

/-- A member with the key of a setting means the setting, and with another value it means the record with that setting
replaced. -/
theorem Independent.describes_cons (independent : Independent settings) (known : s ∈ settings) {key : List Piece}
    {rest : Members} (spells : Spells key s.name.toList)
    (described : Describes settings default (.object ((key, other) :: rest)) record) :
    s.Means other (s.get record) ∧
      ∀ value part, s.Means value part →
        Describes settings default (.object ((key, value) :: rest)) (s.set record part) := by
  obtain ⟨legible, once, given⟩ := described
  have noMore := once.not_givenIn known spells
  obtain ⟨means, given⟩ := (independent.given_cons known spells noMore).mp given
  refine ⟨means, fun value part meant => .object ?_ ?_ ?_⟩
  · have inRest := (List.forall_mem_cons.mp legible).2
    exact List.forall_mem_cons.mpr ⟨⟨s.name, spells⟩, inRest⟩
  · exact List.pairwise_cons.mpr (List.pairwise_cons.mp once)
  · rw [independent.given_cons known spells noMore, independent.get_set s known]
    refine ⟨meant, fun t knownT => ?_⟩
    by_cases same : s.name = t.name
    · obtain rfl := independent.eq_of_name known knownT same
      exact .inr ⟨noMore, by rw [independent.get_set s known, independent.get_set s known]⟩
    · have unchanged := given t knownT
      rw [Setting.Given, independent.get_set_other s known t knownT same] at unchanged ⊢
      rwa [independent.get_set_other s known t knownT same]

/-- An item in the turn of a setting means the setting, and with another value it means the record with that setting
replaced. -/
theorem Independent.describes_item (independent : Independent settings) {done more : List (Setting α)}
    (split : settings = done ++ s :: more) {before after : List Json} (turn : done.length = before.length)
    (described : Describes settings default (.array (before ++ other :: after)) record) :
    s.Means other (s.get record) ∧
      ∀ value part, s.Means value part →
        Describes settings default (.array (before ++ value :: after)) (s.set record part) := by
  have paired : ∀ item, settings.zip (before ++ item :: after) = done.zip before ++ (s, item) :: more.zip after := by
    intro item
    rw [split, List.zip_append turn, List.zip_cons_cons]
  have length : ∀ item, (before ++ item :: after).length = done.length + (after.length + 1) := by
    intro item
    rw [List.length_append, List.length_cons, turn]
  have left : settings.drop (done.length + (after.length + 1)) = more.drop after.length := by
    rw [split, ← List.drop_drop, List.drop_left, List.drop_succ_cons]
  have known : s ∈ settings := by
    rw [split]
    exact List.mem_append_cons_self
  have kept := fun t (member : t ∈ done ++ more) => independent.get_set_of_mem_rest split member record
  cases described with
  | array short given others =>
    rw [length] at short
    rw [paired, List.forall_mem_append, List.forall_mem_cons] at given
    rw [length, left] at others
    obtain ⟨early, means, late⟩ := given
    refine ⟨means, fun value part meant => .array ?_ ?_ ?_⟩
    · rwa [length]
    · rw [paired, List.forall_mem_append, List.forall_mem_cons]
      refine ⟨fun entry inside => ?_, ?_, fun entry inside => ?_⟩
      · rw [kept entry.1 (List.mem_append_left _ (List.of_mem_zip inside).1)]
        exact early entry inside
      · show s.Means value (s.get (s.set record part))
        rwa [independent.get_set s known]
      · rw [kept entry.1 (List.mem_append_right _ (List.of_mem_zip inside).1)]
        exact late entry inside
    · rw [length, left]
      intro t inside
      rw [kept t (List.mem_append_right _ (List.mem_of_mem_drop inside))]
      exact others t inside

/-- A part of a record may be replaced in the text that describes it: the rest of the text describes the rest of
the record, whatever stands in the gap. -/
theorem Gap.describes_set (gap : Gap settings s.name doc) (independent : Independent settings) (known : s ∈ settings)
    (described : Describes settings default (doc other) record) :
    s.Means other (s.get record) ∧
      ∀ value part, s.Means value part → Describes settings default (doc value) (s.set record part) := by
  cases gap with
  | member spells =>
    simp only [describes_middle] at described ⊢
    exact independent.describes_cons known spells described
  | @item before after turn =>
    rw [List.getElem?_map, Option.map_eq_some_iff] at turn
    obtain ⟨t, found, same⟩ := turn
    obtain rfl := independent.eq_of_name (List.mem_of_getElem? found) known same
    obtain ⟨inside, found⟩ := List.getElem?_eq_some_iff.mp found
    have split : settings = settings.take before.length ++ t :: settings.drop (before.length + 1) := by
      rw [← found, ← List.drop_eq_getElem_cons inside, List.take_append_drop]
    have length : (settings.take before.length).length = before.length := by
      rw [List.length_take]
      omega
    exact independent.describes_item split length described

/-- If a document means a record with some value in a gap, then with another value it means the record with the setting
replaced by what that value means. -/
theorem Gap.describes_iff (gap : Gap settings s.name doc) {shape : RecordShape α} (reads : shape.Reads settings)
    (known : s ∈ settings) (described : Describes settings default (doc other) record) (value : Json) (result : α) :
    Describes settings default (doc value) result ↔ ∃ part, s.Means value part ∧ s.set record part = result := by
  obtain ⟨-, replaced⟩ := gap.describes_set reads.independent known described
  constructor
  · intro meant
    obtain ⟨means, -⟩ := gap.describes_set reads.independent known meant
    exact ⟨s.get result, means, reads.describes_unique (replaced value _ means) meant⟩
  · rintro ⟨part, means, rfl⟩
    exact replaced value part means

end

end Json

/-! ## Words -/

/-- A type of words: the numbers below its size. -/
structure WordType (Word : Type) where
  size : Nat
  toNat : Word → Nat
  ofNat : Nat → Word
  toNat_lt : ∀ word, toNat word < size
  ofNat_toNat : ∀ word, ofNat (toNat word) = word
  toNat_ofNat : ∀ v, v < size → toNat (ofNat v) = v

/-- Words of 64 bits. -/
def WordType.bits64 : WordType UInt64 where
  size := UInt64.size
  toNat := UInt64.toNat
  ofNat := UInt64.ofNat
  toNat_lt := UInt64.toNat_lt
  ofNat_toNat _ := UInt64.ofNat_toNat
  toNat_ofNat _ := UInt64.toNat_ofNat_of_lt'

/-- Words of 32 bits. -/
def WordType.bits32 : WordType UInt32 where
  size := UInt32.size
  toNat := UInt32.toNat
  ofNat := UInt32.ofNat
  toNat_lt := UInt32.toNat_lt
  ofNat_toNat _ := UInt32.ofNat_toNat
  toNat_ofNat _ := UInt32.toNat_ofNat_of_lt'

/-- An integer that is no zero with a sign is a number below `size`, and a record is another one with that number put
in place. -/
def Json.Numeral.Puts {α : Type} (n : Numeral) (size : Nat) (put : α → Nat → α) (record result : α) : Prop :=
  ∃ v : Nat, (¬n.IsMinusZero ∧ n.integer = v) ∧ v < size ∧ put record v = result

/-- To be replaced by the word that an integer means is to have a number put in place. -/
theorem Json.Numeral.puts_word {Word α : Type} (type : WordType Word) {n : Numeral} (whole : n.IsInteger)
    (set : α → Word → α) (record result : α) :
    (∃ word, MeansNatural (.number n) (type.toNat word) ∧ set record word = result) ↔
      n.Puts type.size (fun record v => set record (type.ofNat v)) record result := by
  simp only [meansNatural_number_iff whole, Puts]
  constructor
  · rintro ⟨word, meant, rfl⟩
    exact ⟨type.toNat word, meant, type.toNat_lt word, by rw [type.ofNat_toNat]⟩
  · rintro ⟨v, meant, fits, rfl⟩
    refine ⟨type.ofNat v, ?_, rfl⟩
    rwa [type.toNat_ofNat v fits]

/-! ## Numbers among the settings -/

namespace PoolConfig

/-- The setting that holds those of the metrics. -/
def metricsSetting : Setting PoolConfig where
  name := "metrics"
  Part := MetricsConfig
  get := (·.metrics)
  set := ({ · with metrics := · })
  Means := Describes MetricsConfig.settings {}
  Repeats := RepeatsKey MetricsConfig.settings

theorem metricsSetting_mem : metricsSetting ∈ settings :=
  List.mem_of_getElem? (i := 6) rfl

/-- A document without the value to which some keys lead. -/
inductive Gap : List String → (Json → Json) → Prop
  | own {name : String} {doc : Json → Json} (gap : Json.Gap settings name doc) : Gap [name] doc
  | ofMetrics {name : String} {doc inner : Json → Json} (gap : Json.Gap settings metricsSetting.name doc)
      (within : Json.Gap MetricsConfig.settings name inner) : Gap ["metrics", name] fun value => doc (inner value)

/-- A number among the settings of a pool. -/
structure Quantity where
  /-- The keys that lead to it. -/
  path : List String
  /-- The first number that its type does not hold. -/
  size : Nat
  /-- The number, if there is one. -/
  get : PoolConfig → Option Nat
  put : PoolConfig → Nat → PoolConfig

namespace Quantity

/-- A word of the given type. -/
def own {Word : Type} (type : WordType Word) (name : String) (get : PoolConfig → Word)
    (set : PoolConfig → Word → PoolConfig) : Quantity where
  path := [name]
  size := type.size
  get c := some (type.toNat (get c))
  put c v := set c (type.ofNat v)

/-- A word of 64 bits that the metrics may have. -/
def ofMetrics (name : String) (get : MetricsConfig → Option UInt64)
    (set : MetricsConfig → Option UInt64 → MetricsConfig) : Quantity where
  path := ["metrics", name]
  size := UInt64.size
  get c := (get c.metrics).map UInt64.toNat
  put c v := { c with metrics := set c.metrics (some (.ofNat v)) }

/-- An integer in the gap of a quantity is put in place if it is a number that the type holds, and no zero with a sign,
and the document means nothing otherwise. What was put in place is there. -/
structure Reads [Machine] (q : Quantity) : Prop where
  exact : ∀ {doc : Json → Json} {other : Json} {c : PoolConfig}, Gap q.path doc → Describes settings {} (doc other) c →
    ∀ {n : Numeral}, n.IsInteger → ∀ c', Describes settings {} (doc (.number n)) c' ↔ n.Puts q.size q.put c c'
  get_put : ∀ (c : PoolConfig) (v : Nat), v < q.size → q.get (q.put c v) = some v

/-- A word of the configuration itself is read from its own member. -/
theorem Reads.own [Machine] {Word : Type} (type : WordType Word) {name : String} {get : PoolConfig → Word}
    {set : PoolConfig → Word → PoolConfig}
    (known : { name, Part := Word, get, set, Means := fun j word => MeansNatural j (type.toNat word) } ∈ settings) :
    (own type name get set).Reads where
  exact gap described n whole c' := by
    cases gap with
    | own gap =>
      rw [gap.describes_iff reads known described]
      exact n.puts_word type whole set _ c'
  get_put c v fits := by
    have kept := independent.get_set _ known c (type.ofNat v)
    exact congrArg some ((congrArg type.toNat kept).trans (type.toNat_ofNat v fits))

/-- A word of the metrics is read from a member of the metrics, inside the configuration. -/
theorem Reads.ofMetrics [Machine] {name : String} {get : MetricsConfig → Option UInt64}
    {set : MetricsConfig → Option UInt64 → MetricsConfig}
    (known : { name, Part := Option UInt64, get, set, Means := MeansOptional MeansWord64 } ∈ MetricsConfig.settings) :
    (ofMetrics name get set).Reads where
  exact gap described n whole c' := by
    cases gap with
    | @ofMetrics _ doc inner gap within =>
      -- The document means a configuration, so what is in its gap means metrics.
      obtain ⟨meant, -⟩ := gap.describes_set independent metricsSetting_mem described
      have inside := within.describes_iff MetricsConfig.reads known meant (.number n)
      rw [gap.describes_iff reads metricsSetting_mem described]
      refine Iff.trans ?_
        (n.puts_word .bits64 whole (fun c word => { c with metrics := set c.metrics (some word) }) _ c')
      constructor
      · rintro ⟨part, means, rfl⟩
        obtain ⟨word, given, rfl⟩ := (inside part).mp means
        cases word with
        | none => cases given
        | some word => exact ⟨word, given, rfl⟩
      · rintro ⟨word, given, rfl⟩
        exact ⟨_, (inside _).mpr ⟨some word, given, rfl⟩, rfl⟩
  get_put c v fits := by
    have kept := MetricsConfig.independent.get_set _ known c.metrics (some (.ofNat v))
    exact (congrArg (Option.map UInt64.toNat) kept).trans (congrArg some (UInt64.toNat_ofNat_of_lt' fits))

end Quantity

/-- The numbers among the settings of a pool. -/
def quantities : List Quantity := [
  .own .bits64 "num_workers" (·.numWorkers) ({ · with numWorkers := · }),
  .own .bits64 "poll_interval_ms" (·.pollIntervalMs) ({ · with pollIntervalMs := · }),
  .own .bits64 "idle_interval_ms" (·.idleIntervalMs) ({ · with idleIntervalMs := · }),
  .own .bits32 "max_retries" (·.maxRetries) ({ · with maxRetries := · }),
  .own .bits64 "retry_base_delay_ms" (·.retryBaseDelayMs) ({ · with retryBaseDelayMs := · }),
  .ofMetrics "report_interval_secs" (·.reportIntervalSecs) ({ · with reportIntervalSecs := · }),
  .ofMetrics "report_every_tasks" (·.reportEveryTasks) ({ · with reportEveryTasks := · })]

/-- Each of the whole numbers of a configuration is read from where it stands. -/
theorem reads_quantities [Machine] : ∀ q ∈ quantities, q.Reads := by
  simp only [quantities, List.forall_mem_cons]
  refine ⟨?_, ?_, ?_, ?_, ?_, ?_, ?_, List.forall_mem_nil _⟩
  · exact .own .bits64 (List.mem_of_getElem? (i := 1) rfl)
  · exact .own .bits64 (List.mem_of_getElem? (i := 2) rfl)
  · exact .own .bits64 (List.mem_of_getElem? (i := 3) rfl)
  · exact .own .bits32 (List.mem_of_getElem? (i := 4) rfl)
  · exact .own .bits64 (List.mem_of_getElem? (i := 5) rfl)
  · exact .ofMetrics (List.mem_of_getElem? (i := 1) rfl)
  · exact .ofMetrics (List.mem_of_getElem? (i := 2) rfl)

/-- An integer in the gap of a text that loads with another value there, whatever else the text holds, is taken for what
it is, and the configuration is the one of that other text with this number put in place, if the integer is no zero with
a sign and the type of the quantity holds it. Every other integer is refused. -/
theorem load_integer [Machine] {q : Quantity} (known : q ∈ quantities) {doc : Json → Json} (gap : Gap q.path doc) {other : Json}
    {text text' : String} {c : PoolConfig} (said : (doc other).SaidBy text) (loaded : load text = .ok c) {n : Numeral}
    (whole : n.IsInteger) (said' : (doc (.number n)).SaidBy text') :
    (¬n.IsMinusZero ∧ 0 ≤ n.integer ∧ n.integer < q.size →
      ∃ v : Nat, n.integer = v ∧ load text' = .ok (q.put c v) ∧ q.get (q.put c v) = some v) ∧
    (¬(¬n.IsMinusZero ∧ 0 ≤ n.integer ∧ n.integer < q.size) →
      ∃ detail : String, load text' = .error (.config ("invalid pool configuration: " ++ detail))) := by
  have quantity := reads_quantities q known
  obtain ⟨j, saidJ, described⟩ := load_eq_ok.mp loaded
  obtain rfl := Option.some.inj ((ofText?_eq_some.mpr said).symm.trans (ofText?_eq_some.mpr saidJ))
  have means := quantity.exact gap described whole
  constructor
  · rintro ⟨unsigned, natural, fits⟩
    obtain ⟨v, same⟩ := Int.eq_ofNat_of_zero_le natural
    have small : v < q.size := by omega
    have meant := (means (q.put c v)).mpr ⟨v, ⟨unsigned, same⟩, small, rfl⟩
    exact ⟨v, same, load_eq_ok.mpr ⟨_, said', meant⟩, quantity.get_put c v small⟩
  · intro outside
    rw [load_of_saidBy said']
    cases read : shape.readOver {} (doc (.number n)) with
    | error fault => exact ⟨fault.message text', rfl⟩
    | ok c' =>
      obtain ⟨v, ⟨unsigned, same⟩, small, -⟩ := (means c').mp ((reads.exact {} c' _).mp read)
      have natural : 0 ≤ n.integer := by omega
      have fits : n.integer < q.size := by omega
      exact absurd ⟨unsigned, natural, fits⟩ outside

/-- The greatest number of attempts is taken, one more is refused, and so is zero with a sign among the metrics. -/
theorem load_integer_of_borders :
    (∃ c, load "\x7b\"max_retries\":4294967295\x7d" = .ok c ∧ c.maxRetries.toNat = 4294967295) ∧
    (∃ detail : String, load "\x7b\"max_retries\":4294967296\x7d" =
      .error (.config ("invalid pool configuration: " ++ detail))) ∧
    ∃ detail : String, load "\x7b\"metrics\":\x7b\"report_every_tasks\":-0\x7d\x7d" =
      .error (.config ("invalid pool configuration: " ++ detail)) := by
  let attempts : Quantity := .own .bits32 "max_retries" (·.maxRetries) ({ · with maxRetries := · })
  let tasks : Quantity := .ofMetrics "report_every_tasks" (·.reportEveryTasks) ({ · with reportEveryTasks := · })
  let member (name : String) (value : Json) : Json := .object [(name.toList.map .plain, value)]
  have gap : Gap attempts.path (member "max_retries") := .own (@Gap.member _ _ _ [] [] _ (decode_eq_ok.mp rfl))
  have gap' : Gap tasks.path fun value => member "metrics" (member "report_every_tasks" value) :=
    .ofMetrics (@Gap.member _ _ _ [] [] _ (decode_eq_ok.mp rfl)) (@Gap.member _ _ _ [] [] _ (decode_eq_ok.mp rfl))
  have known : attempts ∈ quantities := List.mem_of_getElem? (i := 3) rfl
  have known' : tasks ∈ quantities := List.mem_of_getElem? (i := 6) rfl
  -- The texts load with another value in the gap.
  have said : (member "max_retries" (.number { negative := false, whole := [7] })).SaidBy
      "\x7b\"max_retries\":7\x7d" := ofText?_eq_some.mp rfl
  have said' : (member "metrics" (member "report_every_tasks" .null)).SaidBy
      "\x7b\"metrics\":\x7b\"report_every_tasks\":null\x7d\x7d" := ofText?_eq_some.mp rfl
  have loaded := load_eq_ok.mpr ⟨_, said, (reads.exact {} { maxRetries := 7 } _).mp rfl⟩
  have loaded' := load_eq_ok.mpr ⟨_, said', (reads.exact {} {} _).mp rfl⟩
  refine ⟨?_, ?_, ?_⟩
  · let n : Numeral := { negative := false, whole := [4, 2, 9, 4, 9, 6, 7, 2, 9, 5] }
    have saidN : (member "max_retries" (.number n)).SaidBy "\x7b\"max_retries\":4294967295\x7d" :=
      ofText?_eq_some.mp rfl
    obtain ⟨v, same, taken, inPlace⟩ :=
      (load_integer known gap said loaded ⟨rfl, rfl⟩ saidN).1 ⟨nofun, by decide, by decide⟩
    obtain rfl : v = 4294967295 := (Int.ofNat.inj same).symm
    exact ⟨_, taken, Option.some.inj inPlace⟩
  · let n : Numeral := { negative := false, whole := [4, 2, 9, 4, 9, 6, 7, 2, 9, 6] }
    have saidN : (member "max_retries" (.number n)).SaidBy "\x7b\"max_retries\":4294967296\x7d" :=
      ofText?_eq_some.mp rfl
    exact (load_integer known gap said loaded ⟨rfl, rfl⟩ saidN).2 fun inside => absurd inside.2.2 (by decide)
  · let n : Numeral := { negative := true, whole := [0] }
    have saidN : (member "metrics" (member "report_every_tasks" (.number n))).SaidBy
        "\x7b\"metrics\":\x7b\"report_every_tasks\":-0\x7d\x7d" := ofText?_eq_some.mp rfl
    exact (load_integer known' gap' said' loaded' ⟨rfl, rfl⟩ saidN).2 fun inside => inside.1 ⟨rfl, rfl⟩

end PoolConfig

end WorkerPool
