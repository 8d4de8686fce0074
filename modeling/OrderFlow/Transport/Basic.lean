import OrderFlow.Attempt
import OrderFlow.Sort
import OrderFlow.Transport.Message
import OrderFlow.Uuid

/-! # The transport

    A queue of messages outside the process.  A message that has been
    received stays hidden for a while; unless it is acknowledged by then it
    is delivered again.  A message that has been delivered as often as
    allowed goes to the dead letters when its turn comes once more.

    Moments are milliseconds on a stopwatch. -/

namespace OrderFlow

/-- A message in the transport's hands. -/
structure HeldMessage where
  /-- Its id. -/
  id : Uuid
  /-- What was sent. -/
  message : Message
  /-- How often it has been delivered. -/
  receiveCount : Nat := 0
  /-- The moment at which it is visible again. -/
  hiddenUntil : Option Nat := none
  /-- The receipt of its last delivery. -/
  receipt : Option Uuid := none
  deriving DecidableEq

/-- The transport. -/
structure Transport where
  /-- Does it answer calls? -/
  available : Bool := true
  /-- The messages, in the order in which they were sent. -/
  messages : List HeldMessage := []
  /-- Messages that were delivered as often as allowed and not acknowledged. -/
  deadLetters : List HeldMessage := []
  /-- Milliseconds that a delivered message stays hidden. -/
  visibilityMs : Nat := 30000
  /-- How often a message is delivered. -/
  maxReceives : Nat := 5
  deriving DecidableEq

/-- A message as its receiver gets it. -/
structure Delivery where
  /-- The message's id. -/
  id : Uuid
  /-- What acknowledges this delivery. -/
  receipt : Uuid
  /-- What was sent. -/
  message : Message
  /-- How often it has been delivered, this time included. -/
  receiveCount : Nat
  deriving DecidableEq

/-- Why a call on the transport fails. -/
inductive TransportError where
  /-- The transport is unavailable. -/
  | unavailable (text : String)
  /-- No message was last delivered under this receipt. -/
  | unknownReceipt (receipt : String)
  /-- A lock inside the transport is beyond use. -/
  | lockPoisoned (what : String)
  deriving DecidableEq

/-- The wording of a failure. -/
def TransportError.message : TransportError → String
  | .unavailable text => "transport unavailable: " ++ text
  | .unknownReceipt receipt => "unknown or expired receipt handle: " ++ receipt
  | .lockPoisoned what => what ++ " lock poisoned"

namespace HeldMessage

/-- Can the message be received at the moment `now`? -/
def isVisible (m : HeldMessage) (now : Nat) : Bool :=
  match m.hiddenUntil with
  | none => true
  | some moment => moment ≤ now

/-- Was the message last delivered under this receipt? -/
def isHeldBy (m : HeldMessage) (receipt : String) : Bool :=
  match m.receipt with
  | none => false
  | some r => toString r == receipt

/-- The message after one more delivery. -/
def deliver (m : HeldMessage) (receipt : Uuid) (hiddenUntil : Nat) : HeldMessage :=
  { m with
    receiveCount := m.receiveCount + 1
    hiddenUntil := some hiddenUntil
    receipt := some receipt }

end HeldMessage

namespace Transport

/-- The longest that a message stays hidden: twelve hours. -/
def maxVisibilityMs : Nat := 12 * 60 * 60 * 1000

/-- Sets how long a delivered message stays hidden, up to `maxVisibilityMs`. -/
def withVisibility (t : Transport) (ms : Nat) : Transport :=
  { t with visibilityMs := min ms maxVisibilityMs }

/-- Sets how often a message is delivered, at least once. -/
def withMaxReceives (t : Transport) (count : Nat) : Transport :=
  { t with maxReceives := max count 1 }

/-! ## Looking for a message -/

/-- What a look into the queue finds. -/
structure Look where
  /-- The first message that can be delivered. -/
  found : Option Delivery
  /-- The queue afterwards. -/
  kept : List HeldMessage
  /-- Messages that came up before it once too often. -/
  exhausted : List HeldMessage

/-- Looks through the messages at the moment `now`.  What is found is
    delivered under `receipt`. -/
def lookThrough (t : Transport) (receipt : Uuid) (now : Nat) : List HeldMessage → Look
  | [] => ⟨none, [], []⟩
  | m :: rest =>
    if !m.isVisible now then
      let l := t.lookThrough receipt now rest
      { l with kept := m :: l.kept }
    else if t.maxReceives ≤ m.receiveCount then
      let l := t.lookThrough receipt now rest
      { l with exhausted := m :: l.exhausted }
    else
      let m' := m.deliver receipt (now + t.visibilityMs)
      ⟨some ⟨m.id, receipt, m.message, m'.receiveCount⟩, m' :: rest, []⟩

/-- Delivers the first message that can be delivered at the moment `now`. -/
def deliverNext (t : Transport) (receipt : Uuid) (now : Nat) : Option Delivery × Transport :=
  let l := t.lookThrough receipt now t.messages
  (l.found, { t with messages := l.kept, deadLetters := t.deadLetters ++ l.exhausted })

/-- The moments after `now` at which a receive that waits until `deadline`
    looks again: when a hidden message becomes visible, and at the end. -/
def wakeUps (t : Transport) (now deadline : Nat) : List Nat :=
  if now < deadline then
    sortBy (fun m n => m ≤ n)
      ((t.messages.filterMap (·.hiddenUntil)).filter fun m => now < m ∧ m < deadline) ++ [deadline]
  else
    []

/-- Looks at `now` and then at each of the later moments, until something is
    found.  Answers also the moment of the last look. -/
def lookAt (t : Transport) (receipt : Uuid) (now : Nat) :
    List Nat → (Option Delivery × Nat) × Transport
  | [] =>
    match t.deliverNext receipt now with
    | (found, t') => ((found, now), t')
  | next :: rest =>
    match t.deliverNext receipt now with
    | (some d, t') => ((some d, now), t')
    | (none, t') => t'.lookAt receipt next rest

end Transport

/-! ## Calls -/

/-- A call on the transport. -/
abbrev TransportCall := Attempt Transport TransportError

namespace Transport

/-- The failure while the transport is unavailable. -/
def offline : TransportError := .unavailable "in-memory transport is offline"

/-- Goes on only while the transport is available. -/
def whenAvailable (m : TransportCall α) : TransportCall α := fun t =>
  if t.available then m t else some (.error offline, t)

/-- Sends a message under a new id. -/
def send (id : Uuid) (m : Message) : TransportCall Unit :=
  whenAvailable (.modify fun t => { t with messages := t.messages ++ [{ id := id, message := m }] })

/-- Receives one message, from the moment `now` on and for up to `waitMs`
    milliseconds.  Answers also the moment at which the wait ends. -/
def receive (receipt : Uuid) (now waitMs : Nat) : TransportCall (Option Delivery × Nat) :=
  whenAvailable fun t =>
    match t.lookAt receipt now (t.wakeUps now (now + waitMs)) with
    | (answer, t') => some (.ok answer, t')

/-- Acknowledges a delivery: the message is gone.  Only the receipt of its
    last delivery does that. -/
def acknowledge (receipt : String) : TransportCall Unit :=
  whenAvailable fun t =>
    if t.messages.any (·.isHeldBy receipt) then
      some (.ok (), { t with messages := t.messages.eraseP (·.isHeldBy receipt) })
    else
      some (.error (.unknownReceipt receipt), t)

end Transport

end OrderFlow
