import OrderFlow.Config.Basic

/-! # Configurations as records -/

namespace OrderFlow

open Data

namespace LogLayout

/-- Every layout under its name. -/
def choices : List (String × LogLayout) :=
  [("pretty", pretty), ("compact", compact), ("json", json)]

/-- The name in records. -/
def name : LogLayout → String
  | .pretty => "pretty"
  | .compact => "compact"
  | .json => "json"

/-- Reads a layout. -/
def ofValue? (format : Format) (v : Value) : Option LogLayout :=
  choice? format choices v

end LogLayout

namespace LogSettings

/-- The fields of the record, in writing order. -/
def fieldNames : List String := ["level", "format", "with_target"]

/-- Writes the settings. -/
def toValue (c : LogSettings) : Value :=
  .record [
    ("level", .text c.level),
    ("format", .text c.format.name),
    ("with_target", .bool c.withTarget)]

/-- Reads the settings. -/
def ofValue? (format : Format) (v : Value) : Option LogSettings := do
  let base : LogSettings := {}
  match ← fields? fieldNames true (format.cut fieldNames.length v) with
  | [level, layout, withTarget] =>
    some {
      level := ← orDefault base.level Value.text? level
      format := ← orDefault base.format (LogLayout.ofValue? format) layout
      withTarget := ← orDefault base.withTarget Value.bool? withTarget }
  | _ => none

end LogSettings

namespace Config

/-- The fields of the record, in writing order. -/
def fieldNames : List String :=
  ["publish_mode", "worker_mode", "worker_count", "worker_id", "max_retries", "retry_delay_ms",
    "queue_poll_interval_ms", "outbox_poll_interval_ms", "outbox_batch_size",
    "outbox_lock_timeout_secs", "outbox_retry", "relay_retry", "relay_max_attempts",
    "transport_wait_ms", "log"]

/-- Writes the settings. -/
def toValue (c : Config) : Value :=
  .record [
    ("publish_mode", .text c.publishMode.name),
    ("worker_mode", .text c.workerMode.name),
    ("worker_count", ofNat c.workerCount),
    ("worker_id", .text c.workerId),
    ("max_retries", ofNat c.maxRetries),
    ("retry_delay_ms", ofNat c.retryDelayMs),
    ("queue_poll_interval_ms", ofNat c.queuePollIntervalMs),
    ("outbox_poll_interval_ms", ofNat c.outboxPollIntervalMs),
    ("outbox_batch_size", ofNat c.outboxBatchSize),
    ("outbox_lock_timeout_secs", ofNat c.outboxLockTimeoutSecs),
    ("outbox_retry", c.outboxRetry.toValue),
    ("relay_retry", c.relayRetry.toValue),
    ("relay_max_attempts", .ofOption ofNat c.relayMaxAttempts),
    ("transport_wait_ms", ofNat c.transportWaitMs),
    ("log", c.log.toValue)]

/-- Reads the settings; those that are missing have their defaults. -/
def ofValue? (format : Format) (v : Value) : Option Config := do
  let base : Config := {}
  match ← fields? fieldNames true (format.cut fieldNames.length v) with
  | [publishMode, workerMode, workerCount, workerId, maxRetries, retryDelayMs,
      queuePollIntervalMs, outboxPollIntervalMs, outboxBatchSize, outboxLockTimeoutSecs,
      outboxRetry, relayRetry, relayMaxAttempts, transportWaitMs, log] =>
    some {
      publishMode := ← orDefault base.publishMode (PublishMode.ofValue? format) publishMode
      workerMode := ← orDefault base.workerMode (WorkerMode.ofValue? format) workerMode
      workerCount := ← orDefault base.workerCount count? workerCount
      workerId := ← orDefault base.workerId Value.text? workerId
      maxRetries := ← orDefault base.maxRetries counter? maxRetries
      retryDelayMs := ← orDefault base.retryDelayMs count? retryDelayMs
      queuePollIntervalMs := ← orDefault base.queuePollIntervalMs count? queuePollIntervalMs
      outboxPollIntervalMs := ← orDefault base.outboxPollIntervalMs count? outboxPollIntervalMs
      outboxBatchSize := ← orDefault base.outboxBatchSize count? outboxBatchSize
      outboxLockTimeoutSecs := ← orDefault base.outboxLockTimeoutSecs count? outboxLockTimeoutSecs
      outboxRetry := ← orDefault base.outboxRetry RetryPolicy.ofValue? outboxRetry
      relayRetry := ← orDefault base.relayRetry RetryPolicy.ofValue? relayRetry
      relayMaxAttempts := ← Value.optional counter? relayMaxAttempts
      transportWaitMs := ← orDefault base.transportWaitMs count? transportWaitMs
      log := ← orDefault base.log (LogSettings.ofValue? format) log }
  | _ => none

end Config

end OrderFlow
