import WorkerPool.Error
import WorkerPool.Metrics.Collector
import WorkerPool.Text.Blank

/-!
# Configuration

The settings of a pool as they are kept in configuration files. `PoolConfig.validate` lists what is
wrong with a configuration, and `PoolConfig.normalized` replaces values that no pool can work with:
zero workers and zero attempts become one, zero intervals and delays their defaults. How many workers
there are by default hangs on the `Machine`, and nothing else does.
-/

namespace WorkerPool

/-- The default wait after an iteration that found work, in milliseconds. -/
def defaultPollMillis : UInt64 := 100

/-- The default wait after an iteration that found nothing, in milliseconds. -/
def defaultIdleMillis : UInt64 := 5000

/-- The default number of attempts at a task. -/
def defaultMaxRetries : UInt32 := 3

/-- The default delay before the second attempt at a task, in milliseconds. -/
def defaultRetryBaseMillis : UInt64 := 1000

/-- The machine that pools run on, as far as default settings depend on it. -/
class Machine where
  /-- How many processors it has. -/
  processors : UInt64

/-- Where no machine is named, it has a single processor. -/
instance (priority := low) Machine.single : Machine where
  processors := 1

/-- Which collector a pool records into. -/
inductive MetricsBackend where
  | noop
  | inMemory
  | logging
deriving DecidableEq, Repr, Inhabited

/-- How a pool collects metrics. -/
structure MetricsConfig where
  backend : MetricsBackend := .noop
  /-- Seconds between two reports. -/
  reportIntervalSecs : Option UInt64 := none
  /-- Report once this many tasks finished since the last report. -/
  reportEveryTasks : Option UInt64 := none
  /-- Write a last report on stopping. -/
  reportOnStop : Bool := true
deriving DecidableEq, Repr, Inhabited

namespace MetricsConfig

/-- When a reporting collector writes its reports. -/
def reportSettings (c : MetricsConfig) : ReportSettings where
  interval := c.reportIntervalSecs.map fun secs => .ofSecs secs.toNat
  everyTasks := c.reportEveryTasks.map (·.toNat)
  onStop := c.reportOnStop

/-- The collector of a pool of that name, made at millisecond `now`. -/
def build (c : MetricsConfig) (name : String) (now : Nat) : Collector :=
  match c.backend with
  | .noop => .discarding
  | .inMemory => .counting { since := now }
  | .logging => .reporting (.new name c.reportSettings now)

end MetricsConfig

/-- How the log is shown. -/
structure LoggingConfig where
  level : LogLevel := .info
  colored : Bool := true
  includeTimestamps : Bool := true
  includeTargets : Bool := false
deriving DecidableEq, Repr, Inhabited

/-- Begin to show the log, which is possible once; `shown` says whether that has been done. -/
def LoggingConfig.init (_ : LoggingConfig) (shown : Bool) : PoolResult Unit :=
  if shown then
    .error (.config ("failed to install tracing subscriber: " ++
      "a global default trace dispatcher has already been set"))
  else
    .ok ()

/-- The settings of a pool. -/
structure PoolConfig where
  name : String := "pool"
  numWorkers : UInt64 := by exact max Machine.processors 1
  pollIntervalMs : UInt64 := defaultPollMillis
  idleIntervalMs : UInt64 := defaultIdleMillis
  maxRetries : UInt32 := defaultMaxRetries
  retryBaseDelayMs : UInt64 := defaultRetryBaseMillis
  metrics : MetricsConfig := {}
  logging : LoggingConfig := {}
deriving DecidableEq, Repr

instance [Machine] : Inhabited PoolConfig where
  default := {}

/-- Something that is wrong with a configuration. -/
inductive ConfigFlaw where
  | blankName
  | noWorkers
  | tooManyWorkers
  | noRetries
  | zeroInterval
  | idleBelowPoll
  | reportsWithoutLogging
deriving DecidableEq, Repr

/-- The text of a flaw. -/
def ConfigFlaw.message : ConfigFlaw → String
  | blankName => "Pool name must not be empty"
  | noWorkers => "Number of workers must be greater than 0"
  | tooManyWorkers => "Number of workers should not exceed 1000"
  | noRetries => "Max retries must be at least 1"
  | zeroInterval => "Poll intervals must be greater than 0"
  | idleBelowPoll => "Idle interval must not be shorter than the poll interval"
  | reportsWithoutLogging => "Metrics reports require the logging metrics backend"

namespace PoolConfig

/-- The settings for trying things out. -/
def development : PoolConfig where
  numWorkers := 2
  pollIntervalMs := 50
  idleIntervalMs := 1000
  metrics := { backend := .logging, reportIntervalSecs := some 30 }
  logging := { level := .debug, includeTargets := true }

/-- The settings for serious work. -/
def production [Machine] : PoolConfig where
  numWorkers := Machine.processors * 2
  maxRetries := 5
  metrics := {
    backend := .logging
    reportIntervalSecs := some 60
    reportEveryTasks := some 10000
    reportOnStop := true }
  logging := { level := .info, colored := false }

/-- The settings for tests. -/
def testing : PoolConfig where
  numWorkers := 1
  pollIntervalMs := 5
  idleIntervalMs := 20
  maxRetries := 1
  retryBaseDelayMs := 5
  metrics := { backend := .inMemory }
  logging := {
    level := .debug
    colored := false
    includeTimestamps := false
    includeTargets := true }

/-- The default settings for a pool of that name. -/
def new [Machine] (name : String) : PoolConfig :=
  { name }

/-- The wait after an iteration that found work. -/
def pollInterval (c : PoolConfig) : Duration := .ofMillis c.pollIntervalMs.toNat

/-- The wait after an iteration that found nothing. -/
def idleInterval (c : PoolConfig) : Duration := .ofMillis c.idleIntervalMs.toNat

/-- The delay before the second attempt at a task. -/
def retryBaseDelay (c : PoolConfig) : Duration := .ofMillis c.retryBaseDelayMs.toNat

/-- A word, or its default if it is zero. -/
def nonZeroOr (value default : UInt64) : UInt64 :=
  if value = 0 then default else value

/-- The settings with every value that no pool can work with replaced. -/
def normalized (c : PoolConfig) : PoolConfig :=
  { c with
    numWorkers := max c.numWorkers 1
    maxRetries := max c.maxRetries 1
    pollIntervalMs := nonZeroOr c.pollIntervalMs defaultPollMillis
    idleIntervalMs := nonZeroOr c.idleIntervalMs defaultIdleMillis
    retryBaseDelayMs := nonZeroOr c.retryBaseDelayMs defaultRetryBaseMillis }

/-- Whether a setting is wrong in a given way. -/
def has (c : PoolConfig) : ConfigFlaw → Bool
  | .blankName => Text.isBlank c.name
  | .noWorkers => c.numWorkers = 0
  | .tooManyWorkers => c.numWorkers > 1000
  | .noRetries => c.maxRetries = 0
  | .zeroInterval => c.pollIntervalMs = 0 || c.idleIntervalMs = 0
  | .idleBelowPoll => c.idleIntervalMs < c.pollIntervalMs
  | .reportsWithoutLogging =>
    c.metrics.backend ≠ .logging
      && (c.metrics.reportIntervalSecs.isSome || c.metrics.reportEveryTasks.isSome)

/-- Every flaw there is, in the order in which flaws are listed. -/
def allFlaws : List ConfigFlaw :=
  [.blankName, .noWorkers, .tooManyWorkers, .noRetries, .zeroInterval, .idleBelowPoll,
    .reportsWithoutLogging]

/-- Everything that is wrong with the settings. -/
def validate (c : PoolConfig) : List ConfigFlaw :=
  allFlaws.filter c.has

/-- Validation lists exactly the flaws that a configuration has. -/
theorem mem_validate {c : PoolConfig} {flaw : ConfigFlaw} :
    flaw ∈ c.validate ↔ c.has flaw = true := by
  rw [validate, List.mem_filter]
  refine ⟨And.right, fun h => ⟨?_, h⟩⟩
  cases flaw <;> decide

end PoolConfig

end WorkerPool
