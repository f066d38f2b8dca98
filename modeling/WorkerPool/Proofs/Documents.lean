import WorkerPool.Config.Document
import WorkerPool.Proofs.Records
import WorkerPool.Proofs.Saying

/-!
# What configuration documents mean

The settings of a pool, of its metrics and of its log are listed here with the values that a document may
give for them. Loading a text of JSON comes to what the JSON means: `PoolConfig.load_eq_ok` says when there is
a configuration and which, and `PoolConfig.load_of_repeatsKey` what becomes of a key that occurs twice.
-/

namespace WorkerPool

open Json

/-- A field that takes what its decoder reads reads a setting. -/
theorem Json.Field.reads_of {α β : Type} {name : String} {decoder : Decoder β} {get : α → β}
    {set : α → β → α} {Means : Json → β → Prop} {Repeats : Json → List Nat → String → Prop}
    (exact : Decoder.Exact decoder Means)
    (repeated : ∀ j path key, Repeats j path key → decoder j = .error (secondOccurrence path key)) :
    (Field.of name decoder set).Reads { name, Part := β, get, set, Means, Repeats } where
  name_eq := rfl
  exact j record record' := by
    simp only [Field.of, map_eq_ok, exact j]
  repeated j path key repeats record := by
    simp only [Field.of, repeated j path key repeats]
    rfl

/-- A value of such a setting that is no record has no keys. -/
theorem Json.Field.reads_plain {α β : Type} {name : String} {decoder : Decoder β} {get : α → β}
    {set : α → β → α} {Means : Json → β → Prop} (exact : Decoder.Exact decoder Means) :
    (Field.of name decoder set).Reads { name, Part := β, get, set, Means } :=
  Field.reads_of exact nofun

/-! ## Metrics -/

/-- The settings of metrics, and what documents may give for them. -/
def MetricsConfig.settings : List (Setting MetricsConfig) := [
  { name := "backend", Part := MetricsBackend
    get := (·.backend), set := ({ · with backend := · })
    Means := MeansVariant MetricsBackend.names },
  { name := "report_interval_secs", Part := Option UInt64
    get := (·.reportIntervalSecs), set := ({ · with reportIntervalSecs := · })
    Means := MeansOptional MeansWord64 },
  { name := "report_every_tasks", Part := Option UInt64
    get := (·.reportEveryTasks), set := ({ · with reportEveryTasks := · })
    Means := MeansOptional MeansWord64 },
  { name := "report_on_stop", Part := Bool
    get := (·.reportOnStop), set := ({ · with reportOnStop := · })
    Means := MeansBool }]

/-- The metrics settings have different names, and none of them touches another. -/
theorem MetricsConfig.independent : Independent MetricsConfig.settings where
  distinct := by decide
  get_set := by simp [MetricsConfig.settings]
  get_set_other := by simp [MetricsConfig.settings]
  ext record record' same := by
    cases record
    cases record'
    simpa [MetricsConfig.settings] using same

/-- Null means no number. -/
theorem Json.not_meansWord64_null (word : UInt64) : ¬MeansWord64 .null word :=
  nofun

/-- Reading metrics settings field by field takes a document for what it means. -/
theorem MetricsConfig.reads : MetricsConfig.shape.Reads MetricsConfig.settings where
  independent := MetricsConfig.independent
  skipsUnknown := rfl
  noFlaw _ := rfl
  fields :=
    have optional := Decoder.exact_optional (Decoder.exact_word64 "u64") not_meansWord64_null
    .cons (Field.reads_plain (Decoder.exact_variant _)) <|
    .cons (Field.reads_plain optional) <|
    .cons (Field.reads_plain optional) <|
    .cons (Field.reads_plain Decoder.exact_bool) .nil

/-! ## The log -/

/-- The settings of the log, and what documents may give for them. -/
def LoggingConfig.settings : List (Setting LoggingConfig) := [
  { name := "level", Part := LogLevel
    get := (·.level), set := ({ · with level := · })
    Means := MeansVariant LogLevel.names },
  { name := "colored", Part := Bool
    get := (·.colored), set := ({ · with colored := · })
    Means := MeansBool },
  { name := "include_timestamps", Part := Bool
    get := (·.includeTimestamps), set := ({ · with includeTimestamps := · })
    Means := MeansBool },
  { name := "include_targets", Part := Bool
    get := (·.includeTargets), set := ({ · with includeTargets := · })
    Means := MeansBool }]

/-- The logging settings have different names, and none of them touches another. -/
theorem LoggingConfig.independent : Independent LoggingConfig.settings where
  distinct := by decide
  get_set := by simp [LoggingConfig.settings]
  get_set_other := by simp [LoggingConfig.settings]
  ext record record' same := by
    cases record
    cases record'
    simpa [LoggingConfig.settings] using same

/-- Reading logging settings field by field takes a document for what it means. -/
theorem LoggingConfig.reads : LoggingConfig.shape.Reads LoggingConfig.settings where
  independent := LoggingConfig.independent
  skipsUnknown := rfl
  noFlaw _ := rfl
  fields :=
    .cons (Field.reads_plain (Decoder.exact_variant _)) <|
    .cons (Field.reads_plain Decoder.exact_bool) <|
    .cons (Field.reads_plain Decoder.exact_bool) <|
    .cons (Field.reads_plain Decoder.exact_bool) .nil

/-! ## Pools -/

/-- The settings of a pool, and what documents may give for them. -/
def PoolConfig.settings : List (Setting PoolConfig) := [
  { name := "name", Part := String
    get := (·.name), set := ({ · with name := · })
    Means := MeansText },
  { name := "num_workers", Part := UInt64
    get := (·.numWorkers), set := ({ · with numWorkers := · })
    Means := MeansWord64 },
  { name := "poll_interval_ms", Part := UInt64
    get := (·.pollIntervalMs), set := ({ · with pollIntervalMs := · })
    Means := MeansWord64 },
  { name := "idle_interval_ms", Part := UInt64
    get := (·.idleIntervalMs), set := ({ · with idleIntervalMs := · })
    Means := MeansWord64 },
  { name := "max_retries", Part := UInt32
    get := (·.maxRetries), set := ({ · with maxRetries := · })
    Means := MeansWord32 },
  { name := "retry_base_delay_ms", Part := UInt64
    get := (·.retryBaseDelayMs), set := ({ · with retryBaseDelayMs := · })
    Means := MeansWord64 },
  { name := "metrics", Part := MetricsConfig
    get := (·.metrics), set := ({ · with metrics := · })
    Means := Describes MetricsConfig.settings {}
    Repeats := RepeatsKey MetricsConfig.settings },
  { name := "logging", Part := LoggingConfig
    get := (·.logging), set := ({ · with logging := · })
    Means := Describes LoggingConfig.settings {}
    Repeats := RepeatsKey LoggingConfig.settings }]

/-- The settings of a pool have different names, and none of them touches another. -/
theorem PoolConfig.independent : Independent PoolConfig.settings where
  distinct := by decide
  get_set := by simp [PoolConfig.settings]
  get_set_other := by simp [PoolConfig.settings]
  ext record record' same := by
    cases record
    cases record'
    simpa [PoolConfig.settings] using same

/-- Reading the settings of a pool field by field takes a document for what it means, with the metrics and the
log read beneath. -/
theorem PoolConfig.reads : PoolConfig.shape.Reads PoolConfig.settings where
  independent := PoolConfig.independent
  skipsUnknown := rfl
  noFlaw _ := rfl
  fields :=
    have metrics : Decoder.Exact (MetricsConfig.shape.readOver {}) (Describes MetricsConfig.settings {}) :=
      fun j c => MetricsConfig.reads.exact {} c j
    have logging : Decoder.Exact (LoggingConfig.shape.readOver {}) (Describes LoggingConfig.settings {}) :=
      fun j c => LoggingConfig.reads.exact {} c j
    .cons (Field.reads_plain Decoder.exact_text) <|
    .cons (Field.reads_plain (Decoder.exact_word64 _)) <|
    .cons (Field.reads_plain (Decoder.exact_word64 _)) <|
    .cons (Field.reads_plain (Decoder.exact_word64 _)) <|
    .cons (Field.reads_plain (Decoder.exact_word32 _)) <|
    .cons (Field.reads_plain (Decoder.exact_word64 _)) <|
    .cons (Field.reads_of metrics fun _ _ _ repeats => MetricsConfig.reads.repeated repeats {}) <|
    .cons (Field.reads_of logging fun _ _ _ repeats => LoggingConfig.reads.repeated repeats {}) .nil

namespace PoolConfig

/-! ## Loading -/

/-- What is said of a second occurrence: the key, and where its colon stands. -/
theorem message_secondOccurrence (text : String) (path : List Nat) (name : String) :
    (secondOccurrence path name).message text =
      "duplicate field `" ++ name ++ "`" ++ " at line " ++ toString (locate text ⟨path, .colon⟩).1 ++
        " column " ++ toString (locate text ⟨path, .colon⟩).2 :=
  rfl

section

variable [Machine]

/-- Loading a text that says a document is reading that document into the defaults. -/
theorem load_of_saidBy {text : String} {j : Json} (said : j.SaidBy text) :
    load text = (shape.readOver {} j).mapError fun fault => invalidConfiguration (fault.message text) := by
  rw [load, read, readDocument, ofText?_eq_some.mpr said]

/-- A text loads as settings exactly if it is JSON that means them. -/
theorem load_eq_ok {text : String} {c : PoolConfig} :
    load text = .ok c ↔ ∃ j : Json, j.SaidBy text ∧ Describes settings {} j c := by
  constructor
  · intro loaded
    have read := mapError_eq_ok.mp loaded
    rw [PoolConfig.read, readDocument] at read
    split at read
    · next j said => exact ⟨j, ofText?_eq_some.mp said, (reads.exact {} c j).mp read⟩
    · cases read
  · rintro ⟨j, said, describes⟩
    rw [load_of_saidBy said, (reads.exact _ c j).mpr describes]
    rfl

/-- A text in which what is wrong first is a second occurrence of a key does not load. -/
theorem load_of_repeatsKey {text : String} {j : Json} {path : List Nat} {name : String}
    (said : j.SaidBy text) (repeats : RepeatsKey settings j path name) :
    load text = .error (invalidConfiguration ((secondOccurrence path name).message text)) := by
  rw [load_of_saidBy said, reads.repeated repeats]
  rfl

/-- Loading an object gives the default with what the members give in place of its settings, whatever the order
of the members, however they are written, and whatever else there is among them. The metrics and the log have
defaults of their own. An array is an object without keys. A key that occurs twice is an error. -/
theorem load_replaces_defaults :
    (∀ {text : String} {members : Members}, (Json.object members).SaidBy text → Orderly settings members →
      ∃ c, load text = .ok c ∧ ∀ s ∈ settings, s.Given members {} c) ∧
    (∀ {text text' : String} {items : List Json} {members : Members}, (Json.array items).SaidBy text →
      ValidItems settings items → Labels settings items members → (Json.object members).SaidBy text' →
      ∃ c, load text = .ok c ∧ load text' = .ok c) ∧
    ReplacesDefaults MetricsConfig.settings {} ∧ ReplacesDefaults LoggingConfig.settings {} ∧
    ∀ {text : String} {j : Json} {path : List Nat} {name : String}, j.SaidBy text →
      RepeatsKey settings j path name →
      load text = .error (.config ("invalid pool configuration: " ++ ("duplicate field `" ++ name ++ "`" ++
        " at line " ++ toString (locate text ⟨path, .colon⟩).1 ++
        " column " ++ toString (locate text ⟨path, .colon⟩).2))) := by
  refine ⟨?_, ?_, MetricsConfig.reads.replacesDefaults {}, LoggingConfig.reads.replacesDefaults {}, ?_⟩
  · intro text members said orderly
    obtain ⟨c, means, given⟩ := (reads.replacesDefaults {}).object members orderly
    exact ⟨c, load_eq_ok.mpr ⟨_, said, (means c).mpr rfl⟩, given⟩
  · intro text text' items members said valid labels said'
    obtain ⟨c, means⟩ := (reads.replacesDefaults {}).array items members valid labels
    obtain ⟨asArray, asObject⟩ := means c
    exact ⟨c, load_eq_ok.mpr ⟨_, said, asArray.mpr rfl⟩, load_eq_ok.mpr ⟨_, said', asObject.mpr rfl⟩⟩
  · intro text j path name said repeats
    rw [load_of_repeatsKey said repeats, invalidConfiguration, message_secondOccurrence]

end

/-- A key with an escape in it, an unknown key that holds an array, an array in place of an object, and a key
that occurs twice. -/
theorem load_replaces_defaults_of_texts :
    (∃ c, load "\x7b \"d\": [\x7b\x7d], \"nam\\u0065\": \"p\" \x7d" = .ok c ∧ c.name = "p" ∧
      c.maxRetries = 3) ∧
    (∃ c, load "[\"p\"]" = .ok c ∧ load "\x7b\"name\":\"p\"\x7d" = .ok c) ∧
    ∃ line column : Nat, load "\x7b\"name\":\"p\",\"name\":\"q\"\x7d" =
      .error (.config ("invalid pool configuration: " ++ ("duplicate field `" ++ "name" ++ "`" ++
        " at line " ++ toString line ++ " column " ++ toString column))) := by
  obtain ⟨objects, arrays, -, -, repeated⟩ := load_replaces_defaults
  let name : List Piece := [.plain 'n', .plain 'a', .plain 'm', .plain 'e']
  have spells : Spells name "name".toList := decode_eq_ok.mp rfl
  have orderly : ∀ members c, shape.readOver {} (.object members) = .ok c → Orderly settings members :=
    fun members c read => reads.independent.exists_describes_object.mp ⟨c, (reads.exact {} c _).mp read⟩
  refine ⟨?_, ?_, ?_⟩
  · let members : Members := [([.plain 'd'], .array [.object []]),
      ([.plain 'n', .plain 'a', .plain 'm', .code 0x65], .text [.plain 'p'])]
    have said : (Json.object members).SaidBy "\x7b \"d\": [\x7b\x7d], \"nam\\u0065\": \"p\" \x7d" :=
      ofText?_eq_some.mp rfl
    have read : shape.readOver {} (.object members) = .ok { name := "p" } := rfl
    obtain ⟨c, loaded, -⟩ := objects said (orderly members _ read)
    obtain rfl := Except.ok.inj (loaded.symm.trans (load_eq_ok.mpr ⟨_, said, (reads.exact {} _ _).mp read⟩))
    exact ⟨_, loaded, rfl, rfl⟩
  · let items : List Json := [.text [.plain 'p']]
    have said : (Json.array items).SaidBy "[\"p\"]" := ofText?_eq_some.mp rfl
    have said' : (Json.object [(name, .text [.plain 'p'])]).SaidBy "\x7b\"name\":\"p\"\x7d" :=
      ofText?_eq_some.mp rfl
    have read : shape.readOver {} (.array items) = .ok { name := "p" } := rfl
    have valid := reads.exists_describes_array.mp ⟨_, (reads.exact {} _ _).mp read⟩
    exact arrays said valid (.cons spells .nil) said'
  · let members : Members := [(name, .text [.plain 'p'])]
    have said : (Json.object (members ++ (name, .text [.plain 'q']) :: [])).SaidBy
        "\x7b\"name\":\"p\",\"name\":\"q\"\x7d" := ofText?_eq_some.mp rfl
    have read : shape.readOver {} (.object members) = .ok { name := "p" } := rfl
    have repeats : RepeatsKey settings (.object (members ++ (name, .text [.plain 'q']) :: [])) [1] "name" :=
      .here (orderly members _ read) List.mem_cons_self ⟨name, List.mem_cons_self, spells⟩ spells
    have refused := repeated said repeats
    exact ⟨_, _, refused⟩

/-- A key that is no text, because a surrogate in it has no partner, is an error although it is well-formed
JSON and the key of no setting. -/
theorem load_of_lone_surrogate_key :
    let members : Members := [([.code 0xD800], .number { negative := false, whole := [1] })]
    (Json.object members).SaidBy "\x7b\"\\ud800\":1\x7d" ∧ Once settings members ∧ Valid settings members ∧
      ∀ c, load "\x7b\"\\ud800\":1\x7d" ≠ .ok c := by
  have noText : ∀ cs, ¬Spells [.code 0xD800] cs := by
    rintro cs (_ | _ | _ | ⟨notTrailing, notLeading, -⟩)
    exact absurd notLeading (by decide)
  have said : (Json.object [([.code 0xD800], .number { negative := false, whole := [1] })]).SaidBy
      "\x7b\"\\ud800\":1\x7d" := ofText?_eq_some.mp rfl
  refine ⟨said, List.pairwise_singleton .., ?_, ?_⟩
  · rintro s - value ⟨key, member, spells⟩
    cases List.mem_singleton.mp member
    exact absurd spells (noText _)
  · intro c loaded
    obtain ⟨j, said', describes⟩ := load_eq_ok.mp loaded
    obtain rfl := Option.some.inj ((ofText?_eq_some.mpr said).symm.trans (ofText?_eq_some.mpr said'))
    obtain ⟨legible, -, -⟩ := describes
    obtain ⟨name, spells⟩ := legible _ List.mem_cons_self
    exact noText _ spells

end PoolConfig

end WorkerPool
