import OrderFlow.Poll.Forwarding
import OrderFlow.Proofs.Json
import OrderFlow.Proofs.Uuid
import OrderFlow.Signal

/-! # Written announcements are read back

    The body of a message names the order that needs work.  What the library
    writes into a body, it reads out of it again: a record of texts, and in it
    the announcement. -/

namespace OrderFlow

open Text

namespace Json

/-- A text, or nothing. -/
def textOrNull : Option String → Data.Value
  | none => .null
  | some s => .text s

/-- The entries of a record of texts. -/
def textEntries (entries : List (String × Option String)) : List (String × Data.Value) :=
  entries.map fun e => (e.1, textOrNull e.2)

theorem faithful_textEntries {opened : Nat} (entries : List (String × Option String)) :
    FaithfulEntries opened (textEntries entries) := by
  induction entries with
  | nil => trivial
  | cons e rest ih =>
    obtain ⟨name, s⟩ := e
    cases s <;> exact ⟨trivial, ih⟩

theorem readable_textEntries (entries : List (String × Option String)) :
    (Data.Value.record (textEntries entries)).readable = true := by
  have hentries : Data.readableEntries (textEntries entries) = true := by
    induction entries with
    | nil => rfl
    | cons e rest ih =>
      obtain ⟨name, s⟩ := e
      cases s <;>
        simpa [textEntries, textOrNull, Data.readableEntries, Data.Value.readable] using ih
  simpa [Data.Value.readable] using hentries

/-- **A record of texts** is read as it was written; each of them may be missing. -/
theorem parseStrict?_toText (entries : List (String × Option String)) :
    parseStrict? (toText (.record (textEntries entries))) =
      some (.record (textEntries entries)) := by
  have hfaithful : Faithful 0 (.record (textEntries entries)) :=
    ⟨by decide, faithful_textEntries entries⟩
  unfold parseStrict?
  rw [parse?_toText hfaithful]
  exact if_pos (readable_textEntries entries)

end Json

namespace Payload

/-- A body that names the order. -/
def Announces (body : String) (id : OrderId) : Prop :=
  ∃ correlation, ofBody? body = .ok ⟨id, correlation⟩

/-- A body names one order at most. -/
theorem Announces.order_eq {body : String} {id : OrderId} {p : Payload} (h : Announces body id)
    (hp : ofBody? body = .ok p) : p.order = id := by
  obtain ⟨correlation, hbody⟩ := h
  rw [hp, Except.ok.injEq] at hbody
  rw [hbody]

theorem Announces.unique {body : String} {i j : OrderId} (hi : Announces body i)
    (hj : Announces body j) : i = j := by
  obtain ⟨correlation, hbody⟩ := hj
  exact (hi.order_eq hbody).symm

/-- What a body is read as that is a record with an order's id. -/
theorem ofBody?_of_record {body : String} {v : Data.Value} {order : OrderId}
    (hbody : Json.parseStrict? body = some v)
    (horder : (v.last? "orderId").bind Data.Value.text? = some (toString order)) :
    ofBody? body = .ok ⟨order, correlationOf v⟩ := by
  unfold ofBody?
  rw [hbody]
  dsimp only
  rw [horder]
  dsimp only
  rw [OrderId.parse?_toString]

/-- The canonical form is a record of two texts. -/
theorem parseStrict?_toBody (p : Payload) :
    Json.parseStrict? p.toBody = some (.record (Json.textEntries
      [("correlationId", p.correlation), ("orderId", some (toString p.order))])) := by
  have hwritten : p.toBody = Json.toText (.record (Json.textEntries
      [("correlationId", p.correlation), ("orderId", some (toString p.order))])) := by
    unfold toBody
    cases p.correlation <;> rfl
  rw [hwritten, Json.parseStrict?_toText]

/-- The correlation id in the canonical form, as announcements keep it. -/
theorem correlationOf_toBody (p : Payload) :
    correlationOf (.record (Json.textEntries
      [("correlationId", p.correlation), ("orderId", some (toString p.order))])) =
        normalize p.correlation := by
  cases p.correlation <;> rfl

/-- **The canonical form is read back**, the correlation id as announcements
    keep it. -/
theorem ofBody?_toBody (p : Payload) :
    ofBody? p.toBody = .ok ⟨p.order, normalize p.correlation⟩ := by
  have hread : ofBody? p.toBody = .ok ⟨p.order, _⟩ := ofBody?_of_record p.parseStrict?_toBody rfl
  rw [hread, correlationOf_toBody]

/-- **Just the id** is an announcement too. -/
theorem ofBody?_bare (order : OrderId) :
    ofBody? (Json.toText (.record [("orderId", Data.ofOrderId order)])) = .ok ⟨order, none⟩ :=
  ofBody?_of_record (Json.parseStrict?_toText [("orderId", some (toString order))]) rfl

theorem announces_toBody (p : Payload) : Announces p.toBody p.order :=
  ⟨_, p.ofBody?_toBody⟩

/-- An announcement is not blank. -/
theorem isBlank_toBody (p : Payload) : isBlank p.toBody = false := by
  have hbrace : isBlankChar '\x7b' = false := by decide
  unfold isBlank toBody Json.toText
  rw [String.toList_ofList, Json.render, List.cons_append, List.all_cons, hbrace, Bool.false_and]

end Payload

/-! ## What is sent -/

@[simp] theorem Message.body_setCorrelation (m : Message) (c : Option String) :
    (m.setCorrelation c).body = m.body := by
  cases c <;> rfl

/-- **A signal's message** names the order. -/
theorem Signal.announces_toMessage (s : Signal) : Payload.Announces s.toMessage.body s.order := by
  unfold Signal.toMessage
  rw [Message.body_setCorrelation]
  exact Payload.announces_toBody (Payload.make s.order s.correlation)

namespace OutboxRow

/-- The row's payload announces the row's order. -/
def Announces (e : OutboxRow) : Prop :=
  ∃ correlation, e.payload = (Payload.make e.order correlation).toBody

theorem announces_announcing (id : RowId) (order : OrderId) (correlation : Option String)
    (now : Instant) : (announcing id order correlation now).Announces :=
  ⟨correlation, rfl⟩

/-- **A row's message** names the row's order. -/
theorem Announces.toMessage {e : OutboxRow} (h : e.Announces) :
    Payload.Announces e.toMessage.body e.order := by
  obtain ⟨correlation, hpayload⟩ := h
  unfold OutboxRow.toMessage
  rw [Message.body_setCorrelation, hpayload, if_neg (by simp [Payload.isBlank_toBody])]
  exact Payload.announces_toBody (Payload.make e.order correlation)

end OutboxRow

end OrderFlow
