import WorkerPool.Config
import WorkerPool.Json.Decoder
import WorkerPool.Json.Place

/-!
# Configuration documents

A configuration is kept as a JSON document. `PoolConfig.write` writes every setting, in the order in
which the settings are declared; `PoolConfig.read` takes the settings that a document gives and leaves
the others at their defaults. Reading what was written gives the configuration back.
-/

namespace WorkerPool

open Json (RecordShape Field Decoder Fault)

/-- The names of the metrics backends in a document. -/
def MetricsBackend.names : List (String × MetricsBackend) :=
  [("noop", .noop), ("in_memory", .inMemory), ("logging", .logging)]

/-- The name of a metrics backend in a document. -/
def MetricsBackend.name : MetricsBackend → String
  | noop => "noop"
  | inMemory => "in_memory"
  | logging => "logging"

/-- The names of the levels in a document. -/
def LogLevel.names : List (String × LogLevel) :=
  [("trace", .trace), ("debug", .debug), ("info", .info), ("warn", .warn), ("error", .error)]

/-- The name of a level in a document. -/
def LogLevel.name : LogLevel → String
  | trace => "trace"
  | debug => "debug"
  | info => "info"
  | warn => "warn"
  | error => "error"

/-- The metrics settings as a document spells them. -/
def MetricsConfig.shape : RecordShape MetricsConfig where
  expected := "struct MetricsConfig"
  fields := [
    .of "backend" (Decoder.variant MetricsBackend.names) ({ · with backend := · }),
    .of "report_interval_secs" (Decoder.optional (Decoder.word64 "u64"))
      ({ · with reportIntervalSecs := · }),
    .of "report_every_tasks" (Decoder.optional (Decoder.word64 "u64"))
      ({ · with reportEveryTasks := · }),
    .of "report_on_stop" Decoder.bool ({ · with reportOnStop := · })]

/-- The logging settings as a document spells them. -/
def LoggingConfig.shape : RecordShape LoggingConfig where
  expected := "struct LoggingConfig"
  fields := [
    .of "level" (Decoder.variant LogLevel.names) ({ · with level := · }),
    .of "colored" Decoder.bool ({ · with colored := · }),
    .of "include_timestamps" Decoder.bool ({ · with includeTimestamps := · }),
    .of "include_targets" Decoder.bool ({ · with includeTargets := · })]

/-- The settings of a pool as a document spells them. -/
def PoolConfig.shape : RecordShape PoolConfig where
  expected := "struct PoolConfig"
  fields := [
    .of "name" Decoder.text ({ · with name := · }),
    .of "num_workers" (Decoder.word64 "usize") ({ · with numWorkers := · }),
    .of "poll_interval_ms" (Decoder.word64 "u64") ({ · with pollIntervalMs := · }),
    .of "idle_interval_ms" (Decoder.word64 "u64") ({ · with idleIntervalMs := · }),
    .of "max_retries" (Decoder.word32 "u32") ({ · with maxRetries := · }),
    .of "retry_base_delay_ms" (Decoder.word64 "u64") ({ · with retryBaseDelayMs := · }),
    .of "metrics" (MetricsConfig.shape.readOver {}) ({ · with metrics := · }),
    .of "logging" (LoggingConfig.shape.readOver {}) ({ · with logging := · })]

/-- Read metrics settings. -/
def MetricsConfig.read (text : String) : Except Fault MetricsConfig :=
  Json.readDocument (MetricsConfig.shape.readOver {}) text

/-- Read logging settings. -/
def LoggingConfig.read (text : String) : Except Fault LoggingConfig :=
  Json.readDocument (LoggingConfig.shape.readOver {}) text

/-- Read the settings of a pool. -/
def PoolConfig.read [Machine] (text : String) : Except Fault PoolConfig :=
  Json.readDocument (PoolConfig.shape.readOver {}) text

/-- What a configuration error says about a document. -/
def invalidConfiguration (detail : String) : PoolError :=
  .config ("invalid pool configuration: " ++ detail)

/-- Load the settings of a pool; what is wrong with the document is an error of the pool. -/
def PoolConfig.load [Machine] (text : String) : PoolResult PoolConfig :=
  (PoolConfig.read text).mapError fun fault => invalidConfiguration (fault.message text)

/-- An object of fields that are already written. -/
def writeObject (fields : List (String × String)) : String :=
  let members := fields.map fun field => Json.writeText field.1 ++ ":" ++ field.2
  "\x7b" ++ ",".intercalate members ++ "\x7d"

/-- Write a value that may be absent. -/
def writeOptional (value : Option UInt64) : String :=
  match value with
  | some n => toString n
  | none => "null"

/-- Write metrics settings. -/
def MetricsConfig.write (c : MetricsConfig) : String :=
  writeObject [
    ("backend", Json.writeText c.backend.name),
    ("report_interval_secs", writeOptional c.reportIntervalSecs),
    ("report_every_tasks", writeOptional c.reportEveryTasks),
    ("report_on_stop", toString c.reportOnStop)]

/-- Write logging settings. -/
def LoggingConfig.write (c : LoggingConfig) : String :=
  writeObject [
    ("level", Json.writeText c.level.name),
    ("colored", toString c.colored),
    ("include_timestamps", toString c.includeTimestamps),
    ("include_targets", toString c.includeTargets)]

/-- Write the settings of a pool. -/
def PoolConfig.write (c : PoolConfig) : String :=
  writeObject [
    ("name", Json.writeText c.name),
    ("num_workers", toString c.numWorkers),
    ("poll_interval_ms", toString c.pollIntervalMs),
    ("idle_interval_ms", toString c.idleIntervalMs),
    ("max_retries", toString c.maxRetries),
    ("retry_base_delay_ms", toString c.retryBaseDelayMs),
    ("metrics", c.metrics.write),
    ("logging", c.logging.write)]

end WorkerPool
