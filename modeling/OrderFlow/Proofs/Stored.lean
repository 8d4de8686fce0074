import OrderFlow.Config.Record
import OrderFlow.DeadLetter
import OrderFlow.Order.Record
import OrderFlow.Outbox.Row
import OrderFlow.Proofs.Fields

/-! # Stored values survive

    What a store keeps and what a pipeline is set up with can be written as JSON
    and read again.  Counters fit into 32 bits and counts into 64, as they do in
    memory, and no stamp is in a leap second; apart from that any value survives:
    any text, any instant there is, and with or without what is optional.

    For each kind of record two facts are put together: every part of its written
    form denotes something (`Faithful`), and its reader finds in the fields what
    the writer put there. -/

namespace OrderFlow

open Data Json

/-! ## Names of choices -/

section choices
variable (format : Format)

@[simp] theorem Status.ofValue?_name (s : Status) :
    Status.ofValue? format (.text s.name) = some s := by
  cases s <;> rfl

@[simp] theorem PublishMode.ofValue?_name (m : PublishMode) :
    PublishMode.ofValue? format (.text m.name) = some m := by
  cases m <;> rfl

@[simp] theorem WorkerMode.ofValue?_name (m : WorkerMode) :
    WorkerMode.ofValue? format (.text m.name) = some m := by
  cases m <;> rfl

@[simp] theorem LogLayout.ofValue?_name (l : LogLayout) :
    LogLayout.ofValue? format (.text l.name) = some l := by
  cases l <;> rfl

end choices

/-! ## Orders -/

namespace Order

/-- The counter has 32 bits, and no stamp is in a leap second. -/
structure Writable (o : Order) : Prop where
  retryCount : o.retryCount < counterBound
  createdAt : o.createdAt.isLeap = false
  updatedAt : o.updatedAt.isLeap = false

theorem faithful_toValue {o : Order} (h : o.Writable) : Faithful 0 o.toValue := by
  have hcount : o.retryCount < countBound := Nat.lt_trans h.retryCount (by decide)
  refine ⟨by decide, ?_⟩
  simp [FaithfulEntries, faithful_ofNat hcount, faithful_ofOption]

/-- **The reader of orders** undoes the writer. -/
theorem ofValue?_toValue {o : Order} (h : o.Writable) (format : Format) :
    ofValue? format o.toValue = some o := by
  unfold ofValue? toValue
  rw [fields?_record]
  · -- Every field is there, and each is read by its kind.
    simp only [List.map_cons, List.map_nil, some_bind, required_some, orderId?_ofOrderId,
      Status.ofValue?_name, instant?_ofInstant h.createdAt, instant?_ofInstant h.updatedAt,
      counter?_ofNat h.retryCount, optional_text]
  · rfl
  · decide

end Order

/-! ## Outbox rows -/

namespace OutboxRow

/-- The counter has 32 bits, and no stamp is in a leap second. -/
structure Writable (e : OutboxRow) : Prop where
  attempts : e.attempts < counterBound
  nextAttemptAt : e.nextAttemptAt.isLeap = false
  createdAt : e.createdAt.isLeap = false
  lockedAt : ∀ t ∈ e.lockedAt, t.isLeap = false
  processedAt : ∀ t ∈ e.processedAt, t.isLeap = false

theorem faithful_toValue {e : OutboxRow} (h : e.Writable) : Faithful 0 e.toValue := by
  have hcount : e.attempts < countBound := Nat.lt_trans h.attempts (by decide)
  refine ⟨by decide, ?_⟩
  simp [FaithfulEntries, faithful_ofNat hcount, faithful_ofOption]

/-- **The reader of rows** undoes the writer. -/
theorem ofValue?_toValue {e : OutboxRow} (h : e.Writable) (format : Format) :
    ofValue? format e.toValue = some e := by
  unfold ofValue? toValue
  rw [fields?_record]
  · simp only [List.map_cons, List.map_nil, some_bind, required_some, rowId?_ofRowId,
      orderId?_ofOrderId, text?_text, Status.ofValue?_name, counter?_ofNat h.attempts,
      instant?_ofInstant h.nextAttemptAt, instant?_ofInstant h.createdAt,
      optional_instant h.lockedAt, optional_text, optional_instant h.processedAt]
  · rfl
  · decide

end OutboxRow

/-! ## Dead letters -/

namespace DeadLetter

/-- The counter has 32 bits, and the stamp is not in a leap second. -/
structure Writable (d : DeadLetter) : Prop where
  retryCount : d.retryCount < counterBound
  failedAt : d.failedAt.isLeap = false

theorem faithful_toValue {d : DeadLetter} (h : d.Writable) : Faithful 0 d.toValue := by
  have hcount : d.retryCount < countBound := Nat.lt_trans h.retryCount (by decide)
  refine ⟨by decide, ?_⟩
  simp [FaithfulEntries, faithful_ofNat hcount]

/-- **The reader of letters** undoes the writer. -/
theorem ofValue?_toValue {d : DeadLetter} (h : d.Writable) : ofValue? d.toValue = some d := by
  unfold ofValue? toValue
  rw [fields?_record]
  · simp only [List.map_cons, List.map_nil, some_bind, required_some,
      orderId?_ofOrderId, text?_text, counter?_ofNat h.retryCount, instant?_ofInstant h.failedAt]
  · rfl
  · decide

end DeadLetter

/-! ## Retry policies -/

namespace RetryPolicy

/-- The delays have 64 bits. -/
def Writable : RetryPolicy → Prop
  | .fixed delay => delay < countBound
  | .exponential base cap => base < countBound ∧ cap < countBound

instance (p : RetryPolicy) : Decidable p.Writable :=
  match p with
  | .fixed _ => inferInstanceAs (Decidable (_ < _))
  | .exponential _ _ => inferInstanceAs (Decidable (_ ∧ _))

theorem faithful_toValue {opened : Nat} (hopened : opened < nestingLimit) {p : RetryPolicy}
    (h : p.Writable) : Faithful opened p.toValue := by
  cases p with
  | fixed delay =>
    refine ⟨hopened, ?_⟩
    simp [FaithfulEntries, faithful_ofNat h]
  | exponential base cap =>
    refine ⟨hopened, ?_⟩
    simp [FaithfulEntries, faithful_ofNat h.1, faithful_ofNat h.2]

/-- The kind is found at the front, and the rest is read by it. -/
theorem ofValue?_kind {kind : String} {fields : List (String × Value)}
    (hreadable : readableEntries fields = true) (hfresh : "kind" ∉ fields.map (·.1)) :
    ofValue? (.record (("kind", .text kind) :: fields)) =
      ofKind? (.text kind) (.record fields) := by
  have hnamed : named "kind" fields = [] := named_of_not_mem hfresh
  have hkind : single? "kind" (("kind", .text kind) :: fields) = some (some (.text kind)) := by
    unfold single?
    rw [show named "kind" (("kind", .text kind) :: fields) = [.text kind] by
      simpa [named] using hnamed]
  have hrest : (("kind", Value.text kind) :: fields).filter (fun e => e.1 != "kind") = fields := by
    rw [List.filter_cons_of_neg (by simp)]
    apply List.filter_eq_self.mpr
    intro e he
    have hother : e.1 ≠ "kind" := fun hname => hfresh (List.mem_map.mpr ⟨e, he, hname⟩)
    simpa using hother
  unfold ofValue?
  simp [Value.readable, readableEntries, hreadable, hkind, hrest]

theorem ofKind?_fixed {v : Value} {delay : Nat} (hv : count? v = some delay) :
    ofKind? (.text "fixed") (.record [("delay_ms", v)]) = some (.fixed delay) := by
  have hfields : fields? ["delay_ms"] false (.record [("delay_ms", v)]) = some [some v] := by
    apply fields?_record
    · rfl
    · decide
  unfold ofKind?
  simp only [hfields]
  show (required count? (some v)).bind _ = _
  rw [required_some, hv]
  rfl

theorem ofKind?_exponential {v w : Value} {base cap : Nat} (hv : count? v = some base)
    (hw : count? w = some cap) :
    ofKind? (.text "exponential") (.record [("base_ms", v), ("max_ms", w)]) =
      some (.exponential base cap) := by
  have hfields : fields? ["base_ms", "max_ms"] false (.record [("base_ms", v), ("max_ms", w)]) =
      some [some v, some w] := by
    apply fields?_record
    · rfl
    · decide
  unfold ofKind?
  simp only [hfields]
  show (required count? (some v)).bind _ = _
  rw [required_some, hv]
  show (required count? (some w)).bind _ = _
  rw [required_some, hw]
  rfl

/-- **The reader of policies** undoes the writer. -/
theorem ofValue?_toValue {p : RetryPolicy} (h : p.Writable) : ofValue? p.toValue = some p := by
  cases p with
  | fixed delay =>
    rw [toValue, ofValue?_kind rfl (by simp)]
    exact ofKind?_fixed (count?_ofNat h)
  | exponential base cap =>
    rw [toValue, ofValue?_kind rfl (by simp)]
    exact ofKind?_exponential (count?_ofNat h.1) (count?_ofNat h.2)

end RetryPolicy

/-! ## Configurations -/

namespace LogSettings

theorem faithful_toValue {opened : Nat} (hopened : opened < nestingLimit) (c : LogSettings) :
    Faithful opened c.toValue := by
  refine ⟨hopened, ?_⟩
  simp [FaithfulEntries]

/-- **The reader of log settings** undoes the writer. -/
theorem ofValue?_toValue (c : LogSettings) (format : Format) :
    ofValue? format c.toValue = some c := by
  unfold ofValue? toValue Format.cut
  rw [fields?_record]
  · simp only [List.map_cons, List.map_nil, some_bind, orDefault_some,
      text?_text, LogLayout.ofValue?_name, bool?_bool]
  · rfl
  · decide

end LogSettings

namespace Config

/-- Counters have 32 bits, counts and delays have 64. -/
structure Writable (c : Config) : Prop where
  workerCount : c.workerCount < countBound
  maxRetries : c.maxRetries < counterBound
  retryDelayMs : c.retryDelayMs < countBound
  queuePollIntervalMs : c.queuePollIntervalMs < countBound
  outboxPollIntervalMs : c.outboxPollIntervalMs < countBound
  outboxBatchSize : c.outboxBatchSize < countBound
  outboxLockTimeoutSecs : c.outboxLockTimeoutSecs < countBound
  outboxRetry : c.outboxRetry.Writable
  relayRetry : c.relayRetry.Writable
  relayMaxAttempts : ∀ n ∈ c.relayMaxAttempts, n < counterBound
  transportWaitMs : c.transportWaitMs < countBound

theorem faithful_toValue {c : Config} (h : c.Writable) : Faithful 0 c.toValue := by
  have hbound : counterBound < countBound := by decide
  have hmaxRetries : c.maxRetries < countBound := Nat.lt_trans h.maxRetries hbound
  have hrelayMaxAttempts : Faithful 1 (.ofOption ofNat c.relayMaxAttempts) :=
    faithful_ofOption fun n hn => faithful_ofNat (Nat.lt_trans (h.relayMaxAttempts n hn) hbound)
  have houtboxRetry : Faithful 1 c.outboxRetry.toValue :=
    RetryPolicy.faithful_toValue (by decide) h.outboxRetry
  have hrelayRetry : Faithful 1 c.relayRetry.toValue :=
    RetryPolicy.faithful_toValue (by decide) h.relayRetry
  have hlog : Faithful 1 c.log.toValue := LogSettings.faithful_toValue (by decide) c.log
  refine ⟨by decide, ?_⟩
  simp [FaithfulEntries, faithful_ofNat, h.workerCount, hmaxRetries, h.retryDelayMs,
    h.queuePollIntervalMs, h.outboxPollIntervalMs, h.outboxBatchSize, h.outboxLockTimeoutSecs,
    houtboxRetry, hrelayRetry, hrelayMaxAttempts, h.transportWaitMs, hlog]

/-- **The reader of configurations** undoes the writer; no default is needed. -/
theorem ofValue?_toValue {c : Config} (h : c.Writable) (format : Format) :
    ofValue? format c.toValue = some c := by
  unfold ofValue? toValue Format.cut
  rw [fields?_record]
  · simp only [List.map_cons, List.map_nil, some_bind, orDefault_some,
      PublishMode.ofValue?_name, WorkerMode.ofValue?_name, text?_text, count?_ofNat h.workerCount,
      counter?_ofNat h.maxRetries, count?_ofNat h.retryDelayMs, count?_ofNat h.queuePollIntervalMs,
      count?_ofNat h.outboxPollIntervalMs, count?_ofNat h.outboxBatchSize,
      count?_ofNat h.outboxLockTimeoutSecs, RetryPolicy.ofValue?_toValue h.outboxRetry,
      RetryPolicy.ofValue?_toValue h.relayRetry, optional_counter h.relayMaxAttempts,
      count?_ofNat h.transportWaitMs, LogSettings.ofValue?_toValue]
  · rfl
  · decide

end Config

/-! ## Texts -/

namespace Json

/-- **Survival**: what is read from the text of a value is the value. -/
def Survives {α : Type} (write : α → Value) (read : Value → Option α) (a : α) : Prop :=
  (parse? (toText (write a))).bind read = some a

/-- A value survives where its data does and its reader undoes its writer. -/
theorem survives_of_faithful {α : Type} {write : α → Value} {read : Value → Option α} {a : α}
    (hfaithful : Faithful 0 (write a)) (hread : read (write a) = some a) :
    Survives write read a := by
  unfold Survives
  rw [parse?_toText hfaithful, Option.bind_some, hread]

/-- **Stored and configured values survive JSON.** -/
theorem records_survive :
    (∀ o : Order, o.Writable → Survives Order.toValue (Order.ofValue? format) o) ∧
    (∀ e : OutboxRow, e.Writable → Survives OutboxRow.toValue (OutboxRow.ofValue? format) e) ∧
    (∀ d : DeadLetter, d.Writable → Survives DeadLetter.toValue DeadLetter.ofValue? d) ∧
    (∀ p : RetryPolicy, p.Writable → Survives RetryPolicy.toValue RetryPolicy.ofValue? p) ∧
    (∀ c : Config, c.Writable → Survives Config.toValue (Config.ofValue? format) c) := by
  constructor
  · intro o h
    exact survives_of_faithful (Order.faithful_toValue h) (Order.ofValue?_toValue h format)
  constructor
  · intro e h
    exact survives_of_faithful (OutboxRow.faithful_toValue h) (OutboxRow.ofValue?_toValue h format)
  constructor
  · intro d h
    exact survives_of_faithful (DeadLetter.faithful_toValue h) (DeadLetter.ofValue?_toValue h)
  constructor
  · intro p h
    exact survives_of_faithful (RetryPolicy.faithful_toValue (by decide) h)
      (RetryPolicy.ofValue?_toValue h)
  · intro c h
    exact survives_of_faithful (Config.faithful_toValue h) (Config.ofValue?_toValue h format)

/-- Values at the ends of their ranges: full counters, the first and the last
    instant, texts that need escapes, and nothing where nothing has to be. -/
theorem records_survive_extremes :
    Survives Order.toValue (Order.ofValue? format)
      ⟨⟨.ofNat 7⟩, .failed, .earliest, .latest, 4294967295, some "a \"b\"\n\\c\x00"⟩ ∧
    Survives OutboxRow.toValue (OutboxRow.ofValue? format)
      ⟨⟨.ofNat 1⟩, ⟨.ofNat 2⟩, "", "\t", .processing, 4294967295, .latest, .earliest, some .latest,
        some "", none, none⟩ ∧
    Survives DeadLetter.toValue DeadLetter.ofValue? ⟨⟨.ofNat 3⟩, "\r", 0, .latest⟩ ∧
    Survives RetryPolicy.toValue RetryPolicy.ofValue? (.exponential 0 18446744073709551615) ∧
    Survives Config.toValue (Config.ofValue? format)
      { workerCount := 18446744073709551615, relayMaxAttempts := some 4294967295 } := by
  obtain ⟨horder, hrow, hletter, hpolicy, hconfig⟩ := records_survive
  constructor
  · apply horder
    constructor <;> decide
  constructor
  · apply hrow
    constructor <;> decide
  constructor
  · apply hletter
    constructor <;> decide
  constructor
  · apply hpolicy
    constructor <;> decide
  · apply hconfig
    constructor <;> decide

end Json

end OrderFlow
