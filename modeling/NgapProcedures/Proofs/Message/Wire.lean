import NgapProcedures.Message.Wire
import NgapProcedures.Proofs.Json.Records

/-! Messages are had back from their JSON form, part by part. No part nests deep, no field shares its
name with another or with the tag beside it, and no two cases of an enumeration share a word. -/

namespace NgapProcedures

open Json (Restores Context)
open Json.Fields (field? fieldOr?)

variable {depth : Nat}

theorem CauseGroup.restores (context : Context) : Restores toJson (ofJson? context) := by
  intro g
  cases g <;> cases context <;> rfl

theorem PagingDrx.restores (context : Context) : Restores toJson (ofJson? context) := by
  intro d
  cases d <;> cases context <;> rfl

theorem TimeToWait.restores (context : Context) : Restores toJson (ofJson? context) := by
  intro w
  cases w <;> cases context <;> rfl

theorem TimeToWait.toJson_ne_null (w : TimeToWait) : w.toJson ≠ .null := nofun

theorem TimeToWait.plain_toJson (w : TimeToWait) : w.toJson.Plain depth := .string _

theorem Cause.plain_toJson (c : Cause) : c.toJson.Plain (depth + 1) := by
  simp [toJson, CauseGroup.toJson]

theorem Cause.restores (context : Context) : Restores toJson (ofJson? context) := by
  intro c
  simp [ofJson?, toJson, Json.namedFields?, fieldNames, field?, CauseGroup.restores context c.group,
    Json.string?]

theorem GlobalGnbId.plain_toJson (g : GlobalGnbId) : g.toJson.Plain (depth + 1) := by
  simp [toJson]

theorem GlobalGnbId.restores : Restores toJson ofJson? := by
  intro g
  simp [ofJson?, toJson, field?, Json.string?]

theorem SupportedTa.plain_toJson (t : SupportedTa) : t.toJson.Plain (depth + 2) := by
  simp [toJson, Json.ofStrings, Json.plain_list]

theorem SupportedTa.restores : Restores toJson ofJson? := by
  intro t
  simp [ofJson?, toJson, field?, Json.ofStrings, Json.restores_string.list]

theorem NgSetupRequest.plain_members (r : NgSetupRequest) :
    ∀ m ∈ r.members, m.2.Plain (depth + 3) := by
  simp [members, GlobalGnbId.plain_toJson, Json.plain_option, Json.plain_list,
    SupportedTa.plain_toJson, PagingDrx.toJson]

theorem NgSetupRequest.restores : Restores toJson ofJson? := by
  intro r
  simp [ofJson?, toJson, members, field?, fieldOr?, GlobalGnbId.restores r.globalGnbId,
    Json.restores_string.option, SupportedTa.restores.list,
    PagingDrx.restores .tagged r.defaultPagingDrx]

theorem NgSetupResponse.plain_members (r : NgSetupResponse) :
    ∀ m ∈ r.members, m.2.Plain (depth + 1) := by
  simp [members, Json.ofStrings, Json.plain_list]

theorem NgSetupResponse.restores : Restores toJson ofJson? := by
  intro r
  simp [ofJson?, toJson, members, field?, Json.string?, Json.ofStrings, Json.restores_string.list]

theorem RanConfigurationUpdate.plain_members (r : RanConfigurationUpdate) :
    ∀ m ∈ r.members, m.2.Plain (depth + 3) := by
  simp [members, Json.plain_option, Json.plain_list, SupportedTa.plain_toJson]

theorem RanConfigurationUpdate.restores : Restores toJson ofJson? := by
  intro r
  simp [ofJson?, toJson, members, field?, fieldOr?, Json.restores_string.option,
    SupportedTa.restores.list]

theorem Rejection.plain_members (r : Rejection) : ∀ m ∈ r.members, m.2.Plain (depth + 1) := by
  simp [members, Cause.plain_toJson, Json.plain_option, TimeToWait.plain_toJson]

theorem Rejection.restores : Restores toJson ofJson? := by
  intro r
  have hwait := (TimeToWait.restores .tagged).option TimeToWait.toJson_ne_null r.timeToWait
  simp [ofJson?, toJson, members, field?, fieldOr?, Cause.restores .tagged r.cause, hwait]

theorem Pdu.plain_toJson (p : Pdu) : p.toJson.Plain (depth + 4) := by
  rw [toJson, Json.plain_object_iff, List.forall_mem_cons]
  refine ⟨.string _, ?_⟩
  cases p with
  | ngSetupRequest body => exact body.plain_members
  | ngSetupResponse body => exact body.plain_members
  | ngSetupFailure body => exact body.plain_members
  | ranConfigurationUpdate body => exact body.plain_members
  | ranConfigurationUpdateAcknowledge => exact List.forall_mem_nil _
  | ranConfigurationUpdateFailure body => exact body.plain_members
  | errorIndication cause => simp [members, cause.plain_toJson]

theorem Pdu.tagged?_toJson (p : Pdu) : p.toJson.tagged? "type" = some (p.tag, .object p.members) := by
  apply Json.tagged?_object
  cases p with
  | ngSetupRequest body => simp [members, NgSetupRequest.members]
  | ngSetupResponse body => simp [members, NgSetupResponse.members]
  | ngSetupFailure body => simp [members, Rejection.members]
  | ranConfigurationUpdate body => simp [members, RanConfigurationUpdate.members]
  | ranConfigurationUpdateAcknowledge => simp [members]
  | ranConfigurationUpdateFailure body => simp [members, Rejection.members]
  | errorIndication cause => simp [members]

theorem Pdu.restores : Restores toJson ofJson? := by
  intro p
  rw [ofJson?, p.tagged?_toJson]
  cases p with
  | ngSetupRequest body =>
    have hbody : NgSetupRequest.ofJson? (.object (ngSetupRequest body).members) = some body :=
      NgSetupRequest.restores body
    simp [tag, hbody]
  | ngSetupResponse body =>
    have hbody : NgSetupResponse.ofJson? (.object (ngSetupResponse body).members) = some body :=
      NgSetupResponse.restores body
    simp [tag, hbody]
  | ngSetupFailure body =>
    have hbody : Rejection.ofJson? (.object (ngSetupFailure body).members) = some body :=
      Rejection.restores body
    simp [tag, hbody]
  | ranConfigurationUpdate body =>
    have hbody : RanConfigurationUpdate.ofJson? (.object (ranConfigurationUpdate body).members) =
        some body :=
      RanConfigurationUpdate.restores body
    simp [tag, hbody]
  | ranConfigurationUpdateAcknowledge => simp [tag, members]
  | ranConfigurationUpdateFailure body =>
    have hbody : Rejection.ofJson? (.object (ranConfigurationUpdateFailure body).members) =
        some body :=
      Rejection.restores body
    simp [tag, hbody]
  | errorIndication cause => simp [tag, members, field?, Cause.restores .tagged cause]

theorem PeerMessage.plain_toJson (m : PeerMessage) : m.toJson.Plain (depth + 5) := by
  simp [toJson, EntityId.toJson, m.pdu.plain_toJson]

theorem EntityId.restores : Restores toJson ofJson? := fun _ => rfl

theorem ProcedureId.restores : Restores toJson ofJson? := fun _ => rfl

theorem PeerMessage.restores : Restores toJson ofJson? := by
  intro m
  simp [ofJson?, toJson, fieldNames, field?, EntityId.restores m.entity, Pdu.restores m.pdu]

end NgapProcedures
