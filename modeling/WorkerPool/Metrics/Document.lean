import WorkerPool.Json.Decoder
import WorkerPool.Metrics.Snapshot
import WorkerPool.Timestamp

/-!
# Snapshots in documents

A snapshot that was kept as a JSON document, with the moment at which it was taken. No part of it may
be missing.
-/

namespace WorkerPool

open Json (RecordShape Field Decoder Fault)

/-- A snapshot and the moment at which it was taken. -/
structure SnapshotRecord extends MetricsSnapshot where
  collectedAt : Timestamp := .epoch

/-- The parts of a duration as they are read. -/
def Duration.shape : RecordShape (Nat × Nat) where
  expected := "struct Duration"
  fields := [
    .of "secs" (Decoder.natural UInt64.size "u64") fun parts secs => (secs, parts.2),
    .of "nanos" (Decoder.natural UInt32.size "u32") fun parts nanos => (parts.1, nanos)]
  skipsUnknown := false
  flaw? := fun parts =>
    if (Duration.ofParts? parts.1 parts.2).isNone then some (.other "overflow deserializing Duration")
    else none

/-- Read a duration: its seconds and nanoseconds, of which whole seconds carry over. -/
def Duration.decoder : Decoder Duration := fun j =>
  (Duration.shape.readWhole "struct Duration" (0, 0) j).map fun parts =>
    Duration.ofPartsSaturating parts.1 parts.2

/-- Read a timestamp. -/
def Timestamp.decoder : Decoder Timestamp
  | .text pieces => do
    let text ← (Json.decode pieces).mapError (Fault.ofText .inText)
    (Timestamp.read text).mapError fun flaw => .here (.other flaw.message) .after
  | other => .error (Decoder.mismatch "an RFC 3339 formatted date and time string" other)

/-- Read a count. -/
def countDecoder : Decoder Nat :=
  Decoder.natural UInt64.size "u64"

/-- A snapshot as a document spells it. -/
def SnapshotRecord.shape : RecordShape SnapshotRecord where
  expected := "struct MetricsSnapshot"
  fields := [
    .of "workers_started" countDecoder ({ · with workersStarted := · }),
    .of "workers_stopped" countDecoder ({ · with workersStopped := · }),
    .of "workers_active" countDecoder ({ · with workersActive := · }),
    .of "worker_panics" countDecoder ({ · with workerPanics := · }),
    .of "tasks_checked_out" countDecoder ({ · with tasksCheckedOut := · }),
    .of "tasks_completed" countDecoder ({ · with tasksCompleted := · }),
    .of "tasks_failed" countDecoder ({ · with tasksFailed := · }),
    .of "tasks_in_progress" countDecoder ({ · with tasksInProgress := · }),
    .of "checkout_errors" countDecoder ({ · with checkoutErrors := · }),
    .of "retry_attempts" countDecoder ({ · with retryAttempts := · }),
    .of "retry_successes" countDecoder ({ · with retrySuccesses := · }),
    .of "retries_exhausted" countDecoder ({ · with retriesExhausted := · }),
    .of "retry_rate" Decoder.float ({ · with retryRate := · }),
    .of "total_duration" Duration.decoder ({ · with totalDuration := · }),
    .of "average_duration" Duration.decoder ({ · with averageDuration := · }),
    .of "min_duration" Duration.decoder ({ · with minDuration := · }),
    .of "max_duration" Duration.decoder ({ · with maxDuration := · }),
    .of "throughput_per_second" Decoder.float ({ · with throughputPerSecond := · }),
    .of "error_rate" Decoder.float ({ · with errorRate := · }),
    .of "collected_at" Timestamp.decoder ({ · with collectedAt := · }),
    .of "uptime" Duration.decoder ({ · with uptime := · })]

/-- Read a snapshot. -/
def SnapshotRecord.read (text : String) : Except Fault SnapshotRecord :=
  Json.readDocument
    (SnapshotRecord.shape.readWhole "struct MetricsSnapshot with 21 elements" {}) text

/-- Whether a snapshot shows nothing but zeros, taken at the beginning of 1970. -/
def SnapshotRecord.isDefault (s : SnapshotRecord) : Bool :=
  s.workersStarted == 0 && s.workersStopped == 0 && s.workersActive == 0 && s.workerPanics == 0
    && s.tasksCheckedOut == 0 && s.tasksCompleted == 0 && s.tasksFailed == 0
    && s.tasksInProgress == 0 && s.checkoutErrors == 0 && s.retryAttempts == 0
    && s.retrySuccesses == 0 && s.retriesExhausted == 0 && s.retryRate == 0.0
    && s.totalDuration.isZero && s.averageDuration.isZero && s.minDuration.isZero
    && s.maxDuration.isZero && s.throughputPerSecond == 0.0 && s.errorRate == 0.0
    && s.collectedAt == .epoch && s.uptime.isZero

end WorkerPool
