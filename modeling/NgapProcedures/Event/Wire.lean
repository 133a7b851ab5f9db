import NgapProcedures.Event
import NgapProcedures.Message.Wire

/-! Events as JSON. The fields of an event stand beside its name. -/

namespace NgapProcedures.Event

def tag : Event → String
  | procedureLaunched .. => "procedure_launched"
  | requestSent .. => "request_sent"
  | backoffStarted .. => "backoff_started"
  | procedureSucceeded .. => "procedure_succeeded"
  | procedureRejected .. => "procedure_rejected"
  | retriesExhausted .. => "retries_exhausted"
  | procedureCancelled .. => "procedure_cancelled"
  | amfConnected .. => "amf_connected"
  | amfConnectionFailed .. => "amf_connection_failed"
  | transactionsLost .. => "transactions_lost"

def members : Event → Json.Fields
  | procedureLaunched id kind entity =>
    [("id", id.toJson), ("kind", .string kind), ("entity", entity.toJson)]
  | requestSent id attempt => [("id", id.toJson), ("attempt", .natural attempt.toNat)]
  | backoffStarted id attempt delayMs =>
    [("id", id.toJson), ("attempt", .natural attempt.toNat), ("delay_ms", .natural delayMs.toNat)]
  | procedureSucceeded id => [("id", id.toJson)]
  | procedureRejected id reason => [("id", id.toJson), ("reason", .string reason)]
  | retriesExhausted id attempts => [("id", id.toJson), ("attempts", .natural attempts.toNat)]
  | procedureCancelled id => [("id", id.toJson)]
  | amfConnected entity amfName => [("entity", entity.toJson), ("amf_name", .string amfName)]
  | amfConnectionFailed entity reason => [("entity", entity.toJson), ("reason", .string reason)]
  | transactionsLost entities => [("entities", .array (entities.map EntityId.toJson))]

def toJson (e : Event) : Json := .object (("event", .string e.tag) :: e.members)

def ofJson? (j : Json) : Option Event := do
  let (tag, body) ← j.tagged? "event"
  match tag with
  | "procedure_launched" =>
    let fields ← body.record? ["id", "kind", "entity"]
    return procedureLaunched (← fields.field? "id" ProcedureId.ofJson?)
      (← fields.field? "kind" Json.string?) (← fields.field? "entity" EntityId.ofJson?)
  | "request_sent" =>
    let fields ← body.record? ["id", "attempt"]
    return requestSent (← fields.field? "id" ProcedureId.ofJson?)
      (← fields.field? "attempt" Json.uint32?)
  | "backoff_started" =>
    let fields ← body.record? ["id", "attempt", "delay_ms"]
    return backoffStarted (← fields.field? "id" ProcedureId.ofJson?)
      (← fields.field? "attempt" Json.uint32?) (← fields.field? "delay_ms" Json.uint64?)
  | "procedure_succeeded" =>
    let fields ← body.record? ["id"]
    return procedureSucceeded (← fields.field? "id" ProcedureId.ofJson?)
  | "procedure_rejected" =>
    let fields ← body.record? ["id", "reason"]
    return procedureRejected (← fields.field? "id" ProcedureId.ofJson?)
      (← fields.field? "reason" Json.string?)
  | "retries_exhausted" =>
    let fields ← body.record? ["id", "attempts"]
    return retriesExhausted (← fields.field? "id" ProcedureId.ofJson?)
      (← fields.field? "attempts" Json.uint32?)
  | "procedure_cancelled" =>
    let fields ← body.record? ["id"]
    return procedureCancelled (← fields.field? "id" ProcedureId.ofJson?)
  | "amf_connected" =>
    let fields ← body.record? ["entity", "amf_name"]
    return amfConnected (← fields.field? "entity" EntityId.ofJson?)
      (← fields.field? "amf_name" Json.string?)
  | "amf_connection_failed" =>
    let fields ← body.record? ["entity", "reason"]
    return amfConnectionFailed (← fields.field? "entity" EntityId.ofJson?)
      (← fields.field? "reason" Json.string?)
  | "transactions_lost" =>
    let fields ← body.record? ["entities"]
    return transactionsLost (← fields.field? "entities" (Json.list? EntityId.ofJson?))
  | _ => none

def decode? (s : String) : Option Event := (Json.parse? s).bind ofJson?

def encode (e : Event) : String := e.toJson.text

end NgapProcedures.Event
