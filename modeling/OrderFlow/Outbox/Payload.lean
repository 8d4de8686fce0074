import OrderFlow.Data.Scalars
import OrderFlow.Json.Reader
import OrderFlow.Json.Writer
import OrderFlow.Text.Quoted

/-! # The announcement of an order

    The body of the signal that an order needs work: the order's id and,
    where there is one, the id that correlates it with a request.

    It has two written forms, a canonical one with the names in alphabetical
    order, which goes into outbox rows and messages, and its record form.
    A body that comes from outside is read by `ofBody?`, which forgives more
    than the record form does. -/

namespace OrderFlow

open Data

/-- The announcement of an order. -/
structure Payload where
  /-- The order. -/
  order : OrderId
  /-- The id of the request behind it. -/
  correlation : Option String
  deriving DecidableEq

/-- Why a body is not an announcement. -/
inductive PayloadError where
  /-- It is no JSON text. -/
  | json
  /-- It names no order. -/
  | missingOrderId
  /-- What it names is no id. -/
  | invalidOrderId (raw : String)
  deriving DecidableEq

/-- The wording of a reading error. -/
def PayloadError.message : PayloadError → String
  | .json => "payload is not valid JSON"
  | .missingOrderId => "payload has no orderId"
  | .invalidOrderId raw => "payload orderId " ++ Text.quoted raw ++ " is not a valid id"

namespace Payload

/-- A correlation id as announcements keep it: trimmed, and absent when blank. -/
def normalize (correlation : Option String) : Option String :=
  correlation.bind Text.nonBlank

/-- The announcement of `order`. -/
def make (order : OrderId) (correlation : Option String) : Payload :=
  ⟨order, normalize correlation⟩

/-- The fields of the record form, in writing order. -/
def fieldNames : List String :=
  ["orderId", "correlationId"]

/-- Writes the record form. -/
def toValue (p : Payload) : Value :=
  .record [("orderId", ofOrderId p.order), ("correlationId", .ofOption .text p.correlation)]

/-- Reads the record form. -/
def ofValue? (v : Value) : Option Payload := do
  match ← fields? fieldNames false v with
  | [order, correlation] =>
    some {
      order := ← required orderId? order
      correlation := ← Value.optional Value.text? correlation }
  | _ => none

/-- The canonical form. -/
def toBody (p : Payload) : String :=
  Json.toText (.record
    [("correlationId", .ofOption .text p.correlation), ("orderId", ofOrderId p.order)])

/-- The correlation id that a record holds; of several the last counts, and
    what is no text counts as absent. -/
def correlationOf (v : Value) : Option String :=
  normalize ((v.last? "correlationId").bind Value.text?)

/-- Reads a body. -/
def ofBody? (body : String) : Except PayloadError Payload :=
  match Json.parseStrict? body with
  | none => .error .json
  | some v =>
    match (v.last? "orderId").bind Value.text? with
    | none => .error .missingOrderId
    | some raw =>
      match OrderId.parse? raw with
      | none => .error (.invalidOrderId raw)
      | some order => .ok ⟨order, correlationOf v⟩

/-- The correlation id in a body, which need not be an announcement. -/
def correlationIn (body : String) : Option String :=
  (Json.parseStrict? body).bind correlationOf

end Payload

end OrderFlow
