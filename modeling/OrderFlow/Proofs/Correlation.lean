import Mathlib.Data.List.DropRight
import OrderFlow.Proofs.Announcement
import OrderFlow.Proofs.Run.Whole

/-! # Correlation ids on both routes

    The message about an order is sent when the order is committed, or it is
    forwarded later from the order's outbox row.  Both messages have the same
    body.  The correlation id travels in an attribute as well: a forwarder reads
    it out of the row's payload, where it is trimmed, while a signal's message
    has it as it was given.  So the two messages are the same up to the blanks
    around the correlation id. -/

namespace OrderFlow

open World Attempt

/-! ## Trimmed text -/

namespace Text

theorem trimStart_eq_nil_iff {cs : List Char} :
    trimStart cs = [] ↔ ∀ c ∈ cs, isBlankChar c = true :=
  List.dropWhile_eq_nil_iff

theorem trimEnd_eq_nil_iff {cs : List Char} :
    trimEnd cs = [] ↔ ∀ c ∈ cs, isBlankChar c = true :=
  List.rdropWhile_eq_nil_iff

theorem trimStart_trimStart (cs : List Char) : trimStart (trimStart cs) = trimStart cs :=
  List.dropWhile_idempotent _ _

theorem trimEnd_trimEnd (cs : List Char) : trimEnd (trimEnd cs) = trimEnd cs :=
  List.rdropWhile_idempotent _ _

/-- What is left begins with no blank, also after its end was trimmed. -/
theorem trimStart_trimEnd_trimStart (cs : List Char) :
    trimStart (trimEnd (trimStart cs)) = trimEnd (trimStart cs) := by
  have hbegins : trimEnd (trimStart cs) <+: trimStart cs := List.rdropWhile_prefix _ _
  refine List.dropWhile_eq_self_iff.mpr fun hpos => ?_
  -- The first character is also the first one of the text without blanks at its start.
  rw [hbegins.getElem hpos]
  exact List.dropWhile_get_zero_not _ _ (Nat.lt_of_lt_of_le hpos hbegins.length_le)

theorem trim_trim (s : String) : trim (trim s) = trim s := by
  unfold trim
  rw [String.toList_ofList, trimStart_trimEnd_trimStart, trimEnd_trimEnd]

/-- Trimming takes away blanks alone. -/
theorem isBlank_trim (s : String) : isBlank (trim s) = isBlank s := by
  have hiff : (∀ c ∈ trimEnd (trimStart s.toList), isBlankChar c = true) ↔
      ∀ c ∈ s.toList, isBlankChar c = true := by
    rw [← trimStart_eq_nil_iff, trimStart_trimEnd_trimStart, trimEnd_eq_nil_iff,
      ← trimStart_eq_nil_iff, trimStart_trimStart, trimStart_eq_nil_iff]
  unfold isBlank trim
  rw [String.toList_ofList, Bool.eq_iff_iff, List.all_eq_true, List.all_eq_true]
  exact hiff

theorem nonBlank_trim (s : String) : nonBlank (trim s) = nonBlank s := by
  unfold nonBlank
  rw [isBlank_trim, trim_trim]

end Text

namespace Payload

/-- **Normal form**: a correlation id that announcements have kept stays as it is. -/
theorem normalize_normalize (c : Option String) : normalize (normalize c) = normalize c := by
  cases c with
  | none => rfl
  | some s =>
    show (Text.nonBlank s).bind Text.nonBlank = Text.nonBlank s
    cases h : Text.nonBlank s with
    | none => rfl
    | some trimmed =>
      have htrimmed : trimmed = Text.trim s := by
        unfold Text.nonBlank at h
        split at h
        · cases h
        · exact (Option.some.inj h).symm
      show Text.nonBlank trimmed = some trimmed
      rw [htrimmed, Text.nonBlank_trim, h, htrimmed]

/-- What is kept is not blank. -/
theorem filter_normalize (c : Option String) :
    (normalize c).filter (fun s => !Text.isBlank s) = normalize c := by
  cases c with
  | none => rfl
  | some s =>
    show (Text.nonBlank s).filter _ = Text.nonBlank s
    unfold Text.nonBlank
    split
    · rfl
    · next h => simp [Text.isBlank_trim, h]

/-- A correlation id is in normal form if it is not blank and nothing is around it. -/
theorem normalize_eq_self_iff (c : Option String) :
    normalize c = c ↔ ∀ s, c = some s → Text.isBlank s = false ∧ Text.trim s = s := by
  cases c with
  | none => simp [normalize]
  | some s =>
    show Text.nonBlank s = some s ↔ _
    unfold Text.nonBlank
    split
    · next h => simp [h]
    · next h => simp [h]

/-- The correlation id that stands in a body is the one that is read with the
    announcement. -/
theorem correlationIn_of_ofBody? {body : String} {p : Payload} (h : ofBody? body = .ok p) :
    correlationIn body = p.correlation := by
  unfold ofBody? at h
  unfold correlationIn
  split at h
  · cases h
  next v hv =>
    split at h
    · cases h
    split at h
    · cases h
    · cases h
      rw [hv]
      rfl

theorem correlationIn_toBody (p : Payload) :
    correlationIn p.toBody = normalize p.correlation :=
  correlationIn_of_ofBody? p.ofBody?_toBody

end Payload

/-! ## The messages -/

namespace Message

/-- The correlation id that the message's receiver goes by: the attribute's, or
    else the one in the body. -/
def effectiveCorrelation (m : Message) : Option String :=
  m.correlation.or (Payload.correlationIn m.body)

/-- The correlation id of a message without other attributes, as its receiver
    reads it. -/
theorem correlation_setCorrelation (body : String) (c : Option String) :
    ({ body := body : Message }.setCorrelation c).correlation =
      c.filter fun s => !Text.isBlank s := by
  cases c <;> rfl

theorem setCorrelation_inj {body : String} {c d : Option String} :
    { body := body : Message }.setCorrelation c = { body := body : Message }.setCorrelation d ↔
      c = d := by
  cases c <;> cases d <;> simp [setCorrelation, setAttribute, Table.put]

end Message

/-- A signal's message, by its parts. -/
theorem Signal.toMessage_eq (order : OrderId) (c : Option String) :
    Signal.toMessage ⟨order, c⟩ =
      { body := (Payload.make order c).toBody : Message }.setCorrelation c :=
  rfl

/-- The message of a row that announces an order: as a signal's, but for the
    correlation id that announcements keep. -/
theorem OutboxRow.toMessage_eq {e : OutboxRow} {order : OrderId} {c : Option String}
    (h : e.payload = (Payload.make order c).toBody) :
    e.toMessage = { body := (Payload.make order c).toBody : Message }.setCorrelation
      (Payload.normalize c) := by
  have hmake : (Payload.make order c).correlation = Payload.normalize c := rfl
  unfold OutboxRow.toMessage
  rw [h, Payload.isBlank_toBody, if_neg (by simp), Payload.correlationIn_toBody, hmake,
    Payload.normalize_normalize]

/-! ## The routes -/

/-- **The direct route** for an announcement: the signal that it leaves is
    emitted later on, and `m` is what the transport accepts. -/
inductive SentDirectly (order : OrderId) (c : Option String) (now : Instant) : Message → Prop where
  | sent {t : TxId} {w₀ w₁ w w' : World} {signals : List Signal} {id : Uuid} {m : Message}
    (hannounce : PublishMode.transport.announce t order c now w₀ = some (.ok signals, w₁))
    (hemit : PublishMode.transport.emitAll signals w = some (.ok (), w'))
    (hsent : w'.transport.messages = w.transport.messages ++ [{ id := id, message := m }]) :
    SentDirectly order c now m

/-- **The relayed route** for an announcement: it writes the row `e`, which a
    forwarder sends later on, perhaps after some tries that have failed, and
    `m` is what the transport accepts. -/
inductive Relayed (order : OrderId) (c : Option String) (now : Instant) : Message → Prop where
  | sent {t : TxId} {w₀ w₁ w w' : World} {signals : List Signal} {tx : Transaction}
    {e claimed : OutboxRow} {r : Forwarder} {later : Instant} {report : ForwardingReport}
    {answer : Except OperationError ForwardingReport} {id : Uuid} {m : Message}
    (hannounce : PublishMode.outbox.announce t order c now w₀ = some (.ok signals, w₁))
    (hopened : w₁.store.opened.find? t = some tx)
    (hrow : tx.rows.find? ⟨.versionFour w₀.ids.next⟩ = some e)
    (horder : claimed.order = e.order) (hpayload : claimed.payload = e.payload)
    (hrelay : r.relayAll later [claimed] report w = some (answer, w'))
    (hsent : w'.transport.messages = w.transport.messages ++ [{ id := id, message := m }]) :
    Relayed order c now m

section routes
variable {order : OrderId} {c : Option String} {now : Instant} {m : Message}

/-- If a message was added, it is the one that could be. -/
theorem HeldMessage.added_eq {held held' : List HeldMessage} {id : Uuid} {m m' : Message}
    (h : held' = held ∨ ∃ id, held' = held ++ [{ id := id, message := m' }])
    (hadded : held' = held ++ [{ id := id, message := m }]) : m = m' := by
  rcases h with hsame | ⟨id', hadded'⟩
  · simp [hsame] at hadded
  · have hlast := List.append_cancel_left (hadded.symm.trans hadded')
    simp only [List.cons.injEq, HeldMessage.mk.injEq, and_true] at hlast
    exact hlast.2

/-- What was sent is the signal's message. -/
theorem SentDirectly.eq_toMessage (h : SentDirectly order c now m) :
    m = Signal.toMessage ⟨order, c⟩ := by
  cases h with
  | sent hannounce hemit hsent =>
    cases hannounce
    have hemits : Emits .transport order c _ _ _ := PublishMode.emitAll_emits hemit
    cases hemits with
    | sent _ hsend => exact HeldMessage.added_eq (Or.inr ⟨_, Call.trySend_messages hsend⟩) hsent
    | noted hmode => cases hmode
    | queued hmode => cases hmode

/-- The row that an announcement writes. -/
theorem PublishMode.announce_row {t : TxId} {w w' : World} {signals : List Signal}
    {tx : Transaction} {e : OutboxRow}
    (h : PublishMode.outbox.announce t order c now w = some (.ok signals, w'))
    (hopened : w'.store.opened.find? t = some tx)
    (hrow : tx.rows.find? ⟨.versionFour w.ids.next⟩ = some e) :
    e = .announcing ⟨.versionFour w.ids.next⟩ order c now := by
  obtain ⟨_, w₁, hfresh, hrest⟩ := Call.answers_freshId.bind_eq_some h
  cases hfresh
  obtain ⟨_, s', hs, hpure⟩ := Call.inStore_bind_eq_some (Store.answers_writeRow t _) hrest
  cases hpure
  obtain ⟨tx₀, -, hp⟩ := Store.writeRow_eq_some hs
  have hstaged := hp.after.symm.trans hopened
  rw [Option.some.injEq] at hstaged
  rw [← hstaged] at hrow
  simpa [Transaction.putRow, OutboxRow.announcing, OutboxRow.fresh, eq_comm] using hrow

/-- A poll that has claimed one row adds the row's message or nothing. -/
theorem Forwarder.relayAll_messages {r : Forwarder} {e : OutboxRow} {report : ForwardingReport}
    {w w' : World} {answer : Except OperationError ForwardingReport}
    (h : r.relayAll now [e] report w = some (answer, w')) :
    w'.transport.messages = w.transport.messages ∨ ∃ id,
      w'.transport.messages = w.transport.messages ++ [{ id := id, message := e.toMessage }] := by
  obtain ⟨sent, w₁, settled, w₂, hsend, hsettle, hend⟩ := Forwarder.relayAll_cons h
  have haround : Around w₁ w₂ := by
    simp only [ForwardingVerdict.settle_eq] at hsettle
    exact Call.around_transact (fun t => Call.around_inStore (Store.moves_changeRow _ _)) _ _ _
      hsettle
  obtain rfl : w' = w₂ := by
    rcases hend with ⟨-, report', hrest⟩ | ⟨-, rfl⟩
    · cases hrest
      rfl
    · rfl
  rw [haround.messages, Call.trySend_messages hsend]
  cases sent with
  | ok id => exact Or.inr ⟨id, rfl⟩
  | error cause => exact Or.inl (List.append_nil _)

/-- What was forwarded is the row's message, and the row says what was announced. -/
theorem Relayed.eq_setCorrelation (h : Relayed order c now m) :
    m = { body := (Payload.make order c).toBody : Message }.setCorrelation
      (Payload.normalize c) := by
  cases h with
  | @sent _ _ _ w _ _ _ e claimed _ _ _ _ id _ hannounce hopened hrow horder hpayload hrelay
      hsent =>
    obtain rfl := PublishMode.announce_row hannounce hopened hrow
    rw [← OutboxRow.toMessage_eq hpayload]
    exact HeldMessage.added_eq (Forwarder.relayAll_messages hrelay) hsent

end routes

/-! ## The property -/

/-- The direct route can be gone for every announcement. -/
theorem exists_sentDirectly (order : OrderId) (c : Option String) (now : Instant) :
    ∃ m, SentDirectly order c now m := by
  have hannounce : PublishMode.transport.announce 0 order c now {} = some (.ok [⟨order, c⟩], {}) :=
    rfl
  exact ⟨_, .sent (w := {}) hannounce rfl rfl⟩

/-- And so can the relayed one. -/
theorem exists_relayed (order : OrderId) (c : Option String) (now : Instant) :
    ∃ m, Relayed order c now m := by
  -- The row is written in the first transaction of all, and an empty transport accepts the message.
  have hannounce : ∃ w₁ tx, PublishMode.outbox.announce 1 order c now { store := Store.begun {} } =
      some (.ok [], w₁) ∧ w₁.store.opened.find? 1 = some tx ∧
        tx.rows.find? ⟨.versionFour 0⟩ = some (.announcing ⟨.versionFour 0⟩ order c now) :=
    ⟨_, _, rfl, rfl, rfl⟩
  obtain ⟨w₁, tx, hannounce, hopened, hrow⟩ := hannounce
  have hrelay : ∃ answer w' m, Forwarder.relayAll {} now
      [.announcing ⟨.versionFour 0⟩ order c now] {} {} = some (answer, w') ∧
        w'.transport.messages = [{ id := .versionFour 0, message := m }] :=
    ⟨_, _, _, rfl, rfl⟩
  obtain ⟨answer, w', m, hrelay, hsent⟩ := hrelay
  exact ⟨m, .sent hannounce hopened hrow rfl rfl hrelay hsent⟩

/-- **Both routes put the same announcement on the wire, up to the blanks around
    its correlation id.**  For every order, every correlation id and every time
    both routes can be gone, and whatever is sent on them:

    * the bodies are the same;
    * the relayed message is the one that the direct route sends for the
      correlation id in normal form, so that the two messages are the same
      exactly if it was given in normal form;
    * the receiver of the relayed message goes by the correlation id in normal
      form, the receiver of the direct one by the correlation id as it was given
      unless it is blank, so that the two go by the same one exactly if there are
      no blanks around it. -/
theorem direct_and_relayed_messages (order : OrderId) (c : Option String) (now : Instant) :
    (∃ m, SentDirectly order c now m) ∧ (∃ m, Relayed order c now m) ∧
    ∀ direct relayed, SentDirectly order c now direct → Relayed order c now relayed →
      direct.body = relayed.body ∧
      relayed = Signal.toMessage ⟨order, Payload.normalize c⟩ ∧
      (direct = relayed ↔ ∀ s, c = some s → Text.isBlank s = false ∧ Text.trim s = s) ∧
      relayed.effectiveCorrelation = Payload.normalize c ∧
      direct.effectiveCorrelation = c.filter (fun s => !Text.isBlank s) ∧
      (direct.effectiveCorrelation = relayed.effectiveCorrelation ↔
        ∀ s, c = some s → Text.isBlank s = true ∨ Text.trim s = s) := by
  refine ⟨exists_sentDirectly order c now, exists_relayed order c now,
    fun direct relayed hdirect hrelayed => ?_⟩
  have hsent := hdirect.eq_toMessage.trans (Signal.toMessage_eq order c)
  have hforwarded := hrelayed.eq_setCorrelation
  have hbody : Payload.correlationIn (Payload.make order c).toBody = Payload.normalize c := by
    rw [Payload.correlationIn_toBody]
    exact Payload.normalize_normalize c
  have hdirectId : direct.effectiveCorrelation = c.filter (fun s => !Text.isBlank s) := by
    unfold Message.effectiveCorrelation
    rw [hsent, Message.correlation_setCorrelation, Message.body_setCorrelation, hbody]
    -- Where the attribute is absent or blank, so is the correlation id in the body.
    cases c with
    | none => rfl
    | some s =>
      cases hblank : Text.isBlank s <;>
        simp [hblank, Option.filter, Payload.normalize, Text.nonBlank]
  have hrelayedId : relayed.effectiveCorrelation = Payload.normalize c := by
    unfold Message.effectiveCorrelation
    rw [hforwarded, Message.correlation_setCorrelation, Message.body_setCorrelation, hbody,
      Payload.filter_normalize, Option.or_self]
  refine ⟨?_, ?_, ?_, hrelayedId, hdirectId, ?_⟩
  · rw [hsent, hforwarded, Message.body_setCorrelation, Message.body_setCorrelation]
  · rw [hforwarded, Signal.toMessage_eq]
    unfold Payload.make
    rw [Payload.normalize_normalize]
  · rw [hsent, hforwarded, Message.setCorrelation_inj, ← Payload.normalize_eq_self_iff]
    exact eq_comm
  · rw [hdirectId, hrelayedId]
    cases c with
    | none => simp [Payload.normalize]
    | some s =>
      cases hblank : Text.isBlank s with
      | true => simp [hblank, Option.filter, Payload.normalize, Text.nonBlank]
      | false =>
        simp only [Option.filter, Payload.normalize, Text.nonBlank, hblank, Option.bind_some,
          Bool.not_false, if_true, Bool.false_eq_true, if_false, Option.some.injEq,
          forall_eq', false_or]
        exact eq_comm

/-- With blanks around its correlation id, an announcement is sent in one way and
    forwarded in another. -/
theorem direct_and_relayed_messages_differ :
    ∃ direct relayed, SentDirectly ⟨.versionFour 0⟩ (some " corr-9 ") .newYear2024 direct ∧
      Relayed ⟨.versionFour 0⟩ (some " corr-9 ") .newYear2024 relayed ∧ direct ≠ relayed ∧
      direct.effectiveCorrelation = some " corr-9 " ∧
      relayed.effectiveCorrelation = some "corr-9" := by
  obtain ⟨direct, hdirect⟩ := exists_sentDirectly ⟨.versionFour 0⟩ (some " corr-9 ") .newYear2024
  obtain ⟨relayed, hrelayed⟩ := exists_relayed ⟨.versionFour 0⟩ (some " corr-9 ") .newYear2024
  have hsent : direct.effectiveCorrelation = some " corr-9 " := by
    rw [hdirect.eq_toMessage]
    decide +kernel
  have hforwarded : relayed.effectiveCorrelation = some "corr-9" := by
    rw [hrelayed.eq_setCorrelation]
    decide +kernel
  refine ⟨direct, relayed, hdirect, hrelayed, fun hsame => ?_, hsent, hforwarded⟩
  rw [hsame, hforwarded] at hsent
  exact absurd hsent (by decide)

end OrderFlow
