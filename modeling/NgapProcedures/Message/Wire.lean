import NgapProcedures.Json.Reader
import NgapProcedures.Json.Record
import NgapProcedures.Message

/-! Messages as JSON. A message body stands beside its `type`. A text that is read straight into a
record skips what the record does not ask for; a tagged value is kept as a whole before its tag is
looked at. -/

namespace NgapProcedures

open Json (Context)

def ProcedureId.toJson (id : ProcedureId) : Json := .string id.text

def ProcedureId.ofJson? (j : Json) : Option ProcedureId := j.string?.map .mk

def EntityId.toJson (id : EntityId) : Json := .string id.text

def EntityId.ofJson? (j : Json) : Option EntityId := j.string?.map .mk

def TimeToWait.toJson (w : TimeToWait) : Json := .string w.text

def TimeToWait.ofJson? (context : Context) (j : Json) : Option TimeToWait :=
  (j.word? context).bind TimeToWait.ofText?

namespace PagingDrx

def all : List PagingDrx := [v32, v64, v128, v256]

def text : PagingDrx → String
  | v32 => "V32" | v64 => "V64" | v128 => "V128" | v256 => "V256"

def toJson (d : PagingDrx) : Json := .string d.text

def ofJson? (context : Context) (j : Json) : Option PagingDrx :=
  (j.word? context).bind fun word => all.find? (·.text == word)

end PagingDrx

namespace CauseGroup

def tag : CauseGroup → String
  | radioNetwork => "radio_network"
  | transport => "transport"
  | protocol => "protocol"
  | misc => "misc"

def toJson (g : CauseGroup) : Json := .string g.tag

def ofJson? (context : Context) (j : Json) : Option CauseGroup :=
  (j.word? context).bind fun word => all.find? (·.tag == word)

end CauseGroup

namespace Cause

def fieldNames : List String := ["group", "value"]

def toJson (c : Cause) : Json := .object [("group", c.group.toJson), ("value", .string c.value)]

def ofJson? (context : Context) : Json → Option Cause
  | .array [group, value] => return {
      group := ← Json.case? context CauseGroup.all CauseGroup.tag group
      value := ← value.string? }
  | .object members => do
    let fields ← Json.namedFields? fieldNames members
    return {
      group := ← fields.field? "group" (CauseGroup.ofJson? context)
      value := ← fields.field? "value" Json.string? }
  | _ => none

end Cause

namespace GlobalGnbId

def toJson (g : GlobalGnbId) : Json := .object [
  ("plmn", .string g.plmn),
  ("gnb_id", .natural g.gnbId.toNat),
  ("bit_length", .natural g.bitLength.toNat)]

def ofJson? (j : Json) : Option GlobalGnbId := do
  let fields ← j.record? ["plmn", "gnb_id", "bit_length"]
  return {
    plmn := ← fields.field? "plmn" Json.string?
    gnbId := ← fields.field? "gnb_id" Json.uint32?
    bitLength := ← fields.field? "bit_length" Json.uint8? }

end GlobalGnbId

namespace SupportedTa

def toJson (t : SupportedTa) : Json := .object [
  ("tac", .natural t.tac.toNat),
  ("broadcast_plmns", .ofStrings t.broadcastPlmns)]

def ofJson? (j : Json) : Option SupportedTa := do
  let fields ← j.record? ["tac", "broadcast_plmns"]
  return {
    tac := ← fields.field? "tac" Json.uint32?
    broadcastPlmns := ← fields.field? "broadcast_plmns" (Json.list? Json.string?) }

end SupportedTa

namespace NgSetupRequest

def members (r : NgSetupRequest) : Json.Fields := [
  ("global_gnb_id", r.globalGnbId.toJson),
  ("ran_node_name", .ofOption .string r.ranNodeName),
  ("supported_ta_list", .array (r.supportedTaList.map SupportedTa.toJson)),
  ("default_paging_drx", r.defaultPagingDrx.toJson)]

def toJson (r : NgSetupRequest) : Json := .object r.members

def ofJson? (j : Json) : Option NgSetupRequest := do
  let fields ← j.record?
    ["global_gnb_id", "ran_node_name", "supported_ta_list", "default_paging_drx"]
  return {
    globalGnbId := ← fields.field? "global_gnb_id" GlobalGnbId.ofJson?
    ranNodeName := ← fields.fieldOr? "ran_node_name" none (Json.option? Json.string?)
    supportedTaList := ← fields.field? "supported_ta_list" (Json.list? SupportedTa.ofJson?)
    defaultPagingDrx := ← fields.field? "default_paging_drx" (PagingDrx.ofJson? .tagged) }

end NgSetupRequest

namespace NgSetupResponse

def members (r : NgSetupResponse) : Json.Fields := [
  ("amf_name", .string r.amfName),
  ("relative_amf_capacity", .natural r.relativeAmfCapacity.toNat),
  ("plmn_support_list", .ofStrings r.plmnSupportList)]

def toJson (r : NgSetupResponse) : Json := .object r.members

def ofJson? (j : Json) : Option NgSetupResponse := do
  let fields ← j.record? ["amf_name", "relative_amf_capacity", "plmn_support_list"]
  return {
    amfName := ← fields.field? "amf_name" Json.string?
    relativeAmfCapacity := ← fields.field? "relative_amf_capacity" Json.uint8?
    plmnSupportList := ← fields.field? "plmn_support_list" (Json.list? Json.string?) }

end NgSetupResponse

namespace RanConfigurationUpdate

def members (r : RanConfigurationUpdate) : Json.Fields := [
  ("ran_node_name", .ofOption .string r.ranNodeName),
  ("supported_ta_list", .array (r.supportedTaList.map SupportedTa.toJson))]

def toJson (r : RanConfigurationUpdate) : Json := .object r.members

def ofJson? (j : Json) : Option RanConfigurationUpdate := do
  let fields ← j.record? ["ran_node_name", "supported_ta_list"]
  return {
    ranNodeName := ← fields.fieldOr? "ran_node_name" none (Json.option? Json.string?)
    supportedTaList := ← fields.field? "supported_ta_list" (Json.list? SupportedTa.ofJson?) }

end RanConfigurationUpdate

namespace Rejection

def members (r : Rejection) : Json.Fields := [
  ("cause", r.cause.toJson),
  ("time_to_wait", .ofOption TimeToWait.toJson r.timeToWait)]

def toJson (r : Rejection) : Json := .object r.members

def ofJson? (j : Json) : Option Rejection := do
  let fields ← j.record? ["cause", "time_to_wait"]
  return {
    cause := ← fields.field? "cause" (Cause.ofJson? .tagged)
    timeToWait := ← fields.fieldOr? "time_to_wait" none
      (Json.option? (TimeToWait.ofJson? .tagged)) }

end Rejection

namespace Pdu

def tag : Pdu → String
  | ngSetupRequest _ => "ng_setup_request"
  | ngSetupResponse _ => "ng_setup_response"
  | ngSetupFailure _ => "ng_setup_failure"
  | ranConfigurationUpdate _ => "ran_configuration_update"
  | ranConfigurationUpdateAcknowledge => "ran_configuration_update_acknowledge"
  | ranConfigurationUpdateFailure _ => "ran_configuration_update_failure"
  | errorIndication _ => "error_indication"

def members : Pdu → Json.Fields
  | ngSetupRequest body => body.members
  | ngSetupResponse body => body.members
  | ngSetupFailure body => body.members
  | ranConfigurationUpdate body => body.members
  | ranConfigurationUpdateAcknowledge => []
  | ranConfigurationUpdateFailure body => body.members
  | errorIndication cause => [("cause", cause.toJson)]

def toJson (p : Pdu) : Json := .object (("type", .string p.tag) :: p.members)

def ofJson? (j : Json) : Option Pdu := do
  let (tag, body) ← j.tagged? "type"
  match tag with
  | "ng_setup_request" => return ngSetupRequest (← NgSetupRequest.ofJson? body)
  | "ng_setup_response" => return ngSetupResponse (← NgSetupResponse.ofJson? body)
  | "ng_setup_failure" => return ngSetupFailure (← Rejection.ofJson? body)
  | "ran_configuration_update" =>
    return ranConfigurationUpdate (← RanConfigurationUpdate.ofJson? body)
  | "ran_configuration_update_acknowledge" =>
    let _ ← body.record? []
    return ranConfigurationUpdateAcknowledge
  | "ran_configuration_update_failure" =>
    return ranConfigurationUpdateFailure (← Rejection.ofJson? body)
  | "error_indication" =>
    let fields ← body.record? ["cause"]
    return errorIndication (← fields.field? "cause" (Cause.ofJson? .tagged))
  | _ => none

end Pdu

namespace PeerMessage

def fieldNames : List String := ["entity", "pdu"]

def toJson (m : PeerMessage) : Json := .object [("entity", m.entity.toJson), ("pdu", m.pdu.toJson)]

def ofJson? (j : Json) : Option PeerMessage := do
  let fields ← j.record? fieldNames
  return {
    entity := ← fields.field? "entity" EntityId.ofJson?
    pdu := ← fields.field? "pdu" Pdu.ofJson? }

end PeerMessage

def ProcedureId.decode? (s : String) : Option ProcedureId := (Json.parse? s).bind ofJson?

def EntityId.decode? (s : String) : Option EntityId := (Json.parse? s).bind ofJson?

def TimeToWait.decode? (s : String) : Option TimeToWait := (Json.parse? s).bind (ofJson? .plain)

def PagingDrx.decode? (s : String) : Option PagingDrx := (Json.parse? s).bind (ofJson? .plain)

def Cause.decode? (s : String) : Option Cause := do
  Cause.ofJson? .plain (← (← JsonText.read? s).pick? fieldNames)

def Cause.encode (c : Cause) : String := c.toJson.text

def Pdu.decode? (s : String) : Option Pdu := (Json.parse? s).bind ofJson?

def Pdu.encode (p : Pdu) : String := p.toJson.text

def PeerMessage.decode? (s : String) : Option PeerMessage := do
  PeerMessage.ofJson? (← (← JsonText.read? s).pick? fieldNames)

def PeerMessage.encode (m : PeerMessage) : String := m.toJson.text

end NgapProcedures
