import OrderFlow.Config.Mode
import OrderFlow.Retry
import OrderFlow.Text.Blank

/-! # Configuration

    Every setting has a default, so a text only has to name what it changes.
    `validate` holds the rules between settings and reports the first one
    that is broken. -/

namespace OrderFlow

/-- How log lines are laid out. -/
inductive LogLayout where
  /-- Several lines for a reader. -/
  | pretty
  /-- One line. -/
  | compact
  /-- One record a line. -/
  | json
  deriving DecidableEq

/-- What is logged, and how. -/
structure LogSettings where
  /-- The filter. -/
  level : String := "info"
  /-- The layout. -/
  format : LogLayout := .pretty
  /-- Does a line name where it comes from? -/
  withTarget : Bool := true
  deriving DecidableEq

/-- The settings of a pipeline. -/
structure Config where
  /-- How new work is announced. -/
  publishMode : PublishMode := .inMemory
  /-- Which loop the workers run. -/
  workerMode : WorkerMode := .inMemory
  /-- How many workers are started. -/
  workerCount : Nat := 1
  /-- The first worker's name, and the stem of the others'. -/
  workerId : String := "worker-1"
  /-- How many failed attempts an order has before it is given up on. -/
  maxRetries : Nat := 3
  /-- Milliseconds before a failed order goes back into the queue in memory. -/
  retryDelayMs : Nat := 1000
  /-- Milliseconds that one look into the queue in memory waits. -/
  queuePollIntervalMs : Nat := 100
  /-- Milliseconds between two looks into the outbox. -/
  outboxPollIntervalMs : Nat := 1000
  /-- How many rows one look into the outbox claims. -/
  outboxBatchSize : Nat := 5
  /-- Seconds after which a lease on a row is stale. -/
  outboxLockTimeoutSecs : Nat := 30
  /-- When a row whose order failed is due again. -/
  outboxRetry : RetryPolicy := .fixed 1000
  /-- When a row that could not be sent is due again. -/
  relayRetry : RetryPolicy := .fixed 5000
  /-- How many failed sends a row has before it is given up on. -/
  relayMaxAttempts : Option Nat := none
  /-- Milliseconds that one receive from the transport waits. -/
  transportWaitMs : Nat := 1000
  /-- Logging. -/
  log : LogSettings := {}
  deriving DecidableEq

/-- Why a configuration is refused. -/
inductive ConfigError where
  /-- The text is malformed or a setting has the wrong type. -/
  | parse
  /-- The settings break a rule. -/
  | invalid (text : String)
  deriving DecidableEq

/-- The wording of a refusal. -/
def ConfigError.message : ConfigError → String
  | .parse => "failed to parse configuration"
  | .invalid text => "invalid configuration: " ++ text

namespace Config

/-- The longest that a wait may be set to, in milliseconds: it bounds how
    late a worker notices that it is to stop. -/
def longestWaitMs : Nat := 60000

/-- The longest allowed value of the setting `name`, if `ms` exceeds it. -/
def tooLong? (name : String) (ms : Nat) : Option String :=
  if longestWaitMs < ms then some (name ++ " must be at most " ++ Text.decimal longestWaitMs)
  else none

/-- The first rule that the settings break. -/
def fault? (c : Config) : Option String :=
  if c.maxRetries = 0 then some "max_retries must be at least 1"
  else if c.workerCount = 0 then some "worker_count must be at least 1"
  else if c.outboxBatchSize = 0 then some "outbox_batch_size must be at least 1"
  else if Text.isBlank c.workerId then some "worker_id must not be blank"
  else if !c.workerMode.consumes c.publishMode then
    some ("worker_mode " ++ c.workerMode.label ++ " cannot consume " ++ c.publishMode.label ++
      " publishing")
  else
    tooLong? "queue_poll_interval_ms" c.queuePollIntervalMs <|>
      tooLong? "transport_wait_ms" c.transportWaitMs

/-- Checks the rules between settings. -/
def validate (c : Config) : Except ConfigError Unit :=
  match c.fault? with
  | some text => .error (.invalid text)
  | none => .ok ()

/-! ## Settings as spans of time -/

/-- The delay before a failed order goes back into the queue in memory. -/
def retryDelay (c : Config) : Duration := .ofMilliseconds c.retryDelayMs

/-- How long one look into the queue in memory waits. -/
def queuePollInterval (c : Config) : Duration := .ofMilliseconds c.queuePollIntervalMs

/-- The time between two looks into the outbox. -/
def outboxPollInterval (c : Config) : Duration := .ofMilliseconds c.outboxPollIntervalMs

/-- The age at which a lease on a row is stale. -/
def outboxLockTimeout (c : Config) : Duration := .ofSeconds c.outboxLockTimeoutSecs

/-- How long one receive from the transport waits. -/
def transportWait (c : Config) : Duration := .ofMilliseconds c.transportWaitMs

/-- Sets the delay before a failed order goes back into the queue. -/
def setRetryDelay (c : Config) (d : Duration) : Config :=
  { c with retryDelayMs := d.toMilliseconds }

/-- Sets how long one look into the queue in memory waits. -/
def setQueuePollInterval (c : Config) (d : Duration) : Config :=
  { c with queuePollIntervalMs := d.toMilliseconds }

/-- Sets the time between two looks into the outbox. -/
def setOutboxPollInterval (c : Config) (d : Duration) : Config :=
  { c with outboxPollIntervalMs := d.toMilliseconds }

/-- Sets the age at which a lease is stale; parts of a second are dropped. -/
def setOutboxLockTimeout (c : Config) (d : Duration) : Config :=
  { c with outboxLockTimeoutSecs := d.toSeconds }

/-- Sets how long one receive from the transport waits. -/
def setTransportWait (c : Config) (d : Duration) : Config :=
  { c with transportWaitMs := d.toMilliseconds }

end Config

end OrderFlow
