import OrderFlow.Proofs.Around
import OrderFlow.Proofs.Transport

/-! # Calls in a steady world

    Where nobody interferes, the transport answers every call, and the world
    stays as steady as it was.  Work in the store is treated with what is
    around it. -/

namespace OrderFlow

open Attempt

namespace World

variable {w w' w'' : World}

/-- **Nobody interferes**: a steady world stays steady, and the processor goes on
    as it did. -/
structure Undisturbed (w w' : World) : Prop where
  steady : w.Steady → w'.Steady
  react : w'.processor.react = w.processor.react

theorem undisturbed_chains : Chains Undisturbed where
  refl _ := ⟨id, rfl⟩
  trans h₁ h₂ := ⟨fun h => h₂.steady (h₁.steady h), h₂.react.trans h₁.react⟩

theorem Around.undisturbed (h : Around w w') : Undisturbed w w' :=
  ⟨h.steady, h.react⟩

/-- What makes a world steady has not changed. -/
theorem undisturbed_of_eq (hstore : w'.store.available = w.store.available)
    (htransport : w'.transport.available = w.transport.available)
    (hdisturbances : w'.disturbances = w.disturbances)
    (hsends : w'.sendsToOutage = w.sendsToOutage)
    (hprocessor : w'.processor = w.processor) : Undisturbed w w' where
  steady h := by
    refine ⟨⟨hstore.trans h.store, htransport.trans h.transport,
      hdisturbances.trans h.disturbances⟩, hsends.trans h.sends, ?_⟩
    rw [hprocessor]
    exact h.reactions
  react := congrArg (·.react) hprocessor

theorem Steady.sending_eq (h : w.Steady) : w.sending = { w with ids := ⟨w.ids.next + 1⟩ } := by
  have hcount : w.countSend = w := by
    have hless : w.sendsToOutage - 1 = w.sendsToOutage := by rw [h.sends]
    unfold countSend
    rw [if_neg (by simp [h.sends]), hless]
  unfold sending
  rw [h.nextDisturbance_eq, hcount]

theorem undisturbed_sending (w : World) : Undisturbed w w.sending where
  steady h := by
    rw [h.sending_eq]
    exact ⟨⟨h.store, h.transport, h.disturbances⟩, h.sends, h.reactions⟩
  react := by
    have hcount : w.nextDisturbance.countSend.processor = w.nextDisturbance.processor := by
      unfold countSend
      split <;> rfl
    show w.nextDisturbance.countSend.processor.react = w.processor.react
    rw [hcount]
    exact (around_nextDisturbance w).react

/-- What a receive finds that begins now and waits for up to `waitMs` milliseconds, and the
    moment at which it ends. -/
def look (w : World) (waitMs : Nat) : (Option Delivery × Nat) × Transport :=
  w.transport.lookAt (.versionFour w.ids.next) w.clock.elapsed
    (w.transport.wakeUps w.clock.elapsed (w.clock.elapsed + waitMs))

end World

namespace Call

open World

variable {w w' : World}

theorem undisturbed_trySend (m : Message) : Moves Undisturbed (trySend m) := by
  intro w r w' h
  rcases trySend_eq_some h with ⟨-, -, rfl⟩ | ⟨-, -, rfl⟩
  · exact undisturbed_chains.trans (undisturbed_sending w)
      (undisturbed_of_eq rfl rfl rfl rfl rfl)
  · exact undisturbed_sending w

/-- **A send is accepted.** -/
theorem trySend_steady {m : Message} {r : Except OperationError (Except TransportError Uuid)}
    (hw : w.Steady) (h : trySend m w = some (r, w')) :
    r = .ok (.ok (.versionFour w.ids.next)) ∧
      w' = { w with
        ids := ⟨w.ids.next + 1⟩
        transport := { w.transport with
          messages :=
            w.transport.messages ++ [⟨.versionFour w.ids.next, m, 0, none, none⟩] } } := by
  rcases trySend_eq_some h with ⟨hr, -, rfl⟩ | ⟨-, hoffline, -⟩
  · refine ⟨hr, ?_⟩
    rw [hw.sending_eq]
    rfl
  · rw [hw.sending_eq] at hoffline
    rw [hw.transport] at hoffline
    cases hoffline

theorem undisturbed_receive (waitMs : Nat) : Moves Undisturbed (receive waitMs) := by
  intro w r w' h
  have havailable : w'.transport.available = w.nextDisturbance.transport.available := by
    obtain ⟨-, -, ⟨-, -, htransport⟩ | ⟨found, -, hreceives⟩⟩ := receive_eq_some h
    · rw [htransport]
    · exact hreceives.settings.1
  obtain ⟨-, hw', -⟩ := receive_eq_some h
  refine undisturbed_chains.trans (around_nextDisturbance w).undisturbed ?_
  rw [hw']
  exact undisturbed_of_eq rfl havailable rfl rfl rfl

/-- **A receive is answered** with what it finds. -/
theorem receive_of_steady (hw : w.Steady) (waitMs : Nat) :
    receive waitMs w = some (.ok (w.look waitMs).1.1, { w with
      ids := ⟨w.ids.next + 1⟩
      transport := (w.look waitMs).2
      clock := w.clock.advanceTo (w.look waitMs).1.2 }) := by
  have hanswer : inTransport (Transport.receive (.versionFour w.ids.next) w.clock.elapsed waitMs)
      { w with ids := ⟨w.ids.next + 1⟩ } = some (.ok (w.look waitMs).1,
        { w with ids := ⟨w.ids.next + 1⟩, transport := (w.look waitMs).2 }) := by
    refine mapError_eq_some_iff.mpr ⟨.ok (w.look waitMs).1, ?_, rfl⟩
    exact onPart_eq_some_iff.mpr ⟨_, if_pos hw.transport, rfl⟩
  -- Nobody interferes, so the transport is asked as it is.
  show (inTransport _ >>= _) { w.nextDisturbance with ids := ⟨w.nextDisturbance.ids.next + 1⟩ } = _
  rw [hw.nextDisturbance_eq]
  exact bind_eq_ok_iff.mpr ⟨_, _, hanswer, rfl⟩

/-- **A receive is answered.** -/
theorem receive_steady {waitMs : Nat} {r : Except OperationError (Option Delivery)}
    (hw : w.Steady) (h : receive waitMs w = some (r, w')) :
    (∃ found, r = .ok found ∧
        w.transport.Receives (.versionFour w.ids.next) found w'.transport) ∧
      w' = { w with ids := w'.ids, transport := w'.transport, clock := w'.clock } := by
  obtain ⟨-, hw', ⟨hoffline, -⟩ | hfound⟩ := receive_eq_some h
  · rw [hw.nextDisturbance_eq, hw.transport] at hoffline
    cases hoffline
  · rw [hw.nextDisturbance_eq] at hw' hfound
    exact ⟨hfound, hw'⟩

theorem undisturbed_acknowledge (receipt : String) : Moves Undisturbed (acknowledge receipt) := by
  intro w r w' h
  obtain ⟨hw', hend⟩ := acknowledge_eq_some h
  have havailable : w'.transport.available = w.nextDisturbance.transport.available := by
    rcases hend with ⟨-, m, kept, -, -, htransport⟩ | ⟨-, htransport⟩
    · rw [htransport]
    · rw [htransport]
  refine undisturbed_chains.trans (around_nextDisturbance w).undisturbed ?_
  rw [hw']
  exact undisturbed_of_eq rfl havailable rfl rfl rfl

/-- **An acknowledgement** takes at most one message out. -/
theorem acknowledge_steady {receipt : String} {r : Except OperationError Unit} (hw : w.Steady)
    (h : acknowledge receipt w = some (r, w')) :
    (∃ messages, messages ⊆ w.transport.messages ∧
        w'.transport = { w.transport with messages := messages }) ∧
      w' = { w with transport := w'.transport } := by
  obtain ⟨hw', hend⟩ := acknowledge_eq_some h
  rw [hw.nextDisturbance_eq] at hw' hend
  refine ⟨?_, hw'⟩
  rcases hend with ⟨-, m, kept, -, hmessages, htransport⟩ | ⟨-, htransport⟩
  · refine ⟨kept, fun x hx => ?_, htransport⟩
    exact hmessages.mem_iff.mpr (List.mem_cons_of_mem _ hx)
  · exact ⟨w.transport.messages, List.Subset.refl _, htransport⟩

end Call

end OrderFlow
