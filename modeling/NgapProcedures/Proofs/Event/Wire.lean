import NgapProcedures.Event.Wire
import NgapProcedures.Proofs.Message.Wire

/-! Messages and events are had back from their texts. So no two of them share a text, and a value
that was read from any text is written and read again as it is. -/

namespace NgapProcedures

open Json (Restores)
open Json.Fields (field?)

variable {depth : Nat}

theorem Event.plain_toJson (e : Event) : e.toJson.Plain (depth + 2) := by
  rw [toJson, Json.plain_object_iff, List.forall_mem_cons]
  refine ⟨.string _, ?_⟩
  cases e with
  | transactionsLost entities =>
    simp only [members, List.forall_mem_singleton]
    exact Json.plain_list (fun entity => .string entity.text) entities
  | _ => simp [members, ProcedureId.toJson, EntityId.toJson]

/-- no event has a field by the name of its tag -/
theorem Event.tagged?_toJson (e : Event) :
    e.toJson.tagged? "event" = some (e.tag, .object e.members) := by
  apply Json.tagged?_object
  cases e <;> simp [members]

theorem Event.restores : Restores toJson ofJson? := by
  intro e
  rw [ofJson?, e.tagged?_toJson]
  cases e with
  | procedureLaunched id kind entity =>
    simp [tag, members, field?, ProcedureId.restores id, EntityId.restores entity, Json.string?]
  | requestSent id attempt => simp [tag, members, field?, ProcedureId.restores id]
  | backoffStarted id attempt delayMs => simp [tag, members, field?, ProcedureId.restores id]
  | procedureSucceeded id => simp [tag, members, field?, ProcedureId.restores id]
  | procedureRejected id reason =>
    simp [tag, members, field?, ProcedureId.restores id, Json.string?]
  | retriesExhausted id attempts => simp [tag, members, field?, ProcedureId.restores id]
  | procedureCancelled id => simp [tag, members, field?, ProcedureId.restores id]
  | amfConnected entity amfName =>
    simp [tag, members, field?, EntityId.restores entity, Json.string?]
  | amfConnectionFailed entity reason =>
    simp [tag, members, field?, EntityId.restores entity, Json.string?]
  | transactionsLost entities => simp [tag, members, field?, EntityId.restores.list]

structure Lossless {α : Type} (encode : α → String) (decode? : String → Option α) : Prop where
  decode?_encode : ∀ a, decode? (encode a) = some a
  /-- different values have different texts -/
  injective : ∀ a b, encode a = encode b → a = b
  /-- what was read from a text, however it was written, is written and read again as it is -/
  stable : ∀ s, ∀ a ∈ decode? s, (decode? (encode a)).map encode = some (encode a)

theorem Lossless.of_decode?_encode {α : Type} {encode : α → String} {decode? : String → Option α}
    (h : ∀ a, decode? (encode a) = some a) : Lossless encode decode? where
  decode?_encode := h
  injective a b hab := by
    have ha := h a
    rw [hab, h b] at ha
    exact (Option.some.inj ha).symm
  stable s a _ := by rw [h a, Option.map_some]

theorem Cause.decode?_encode (c : Cause) : decode? c.encode = some c := by
  have hplain : c.toJson.Plain JsonText.depthLimit := c.plain_toJson
  have hpick : JsonText.pick? fieldNames (.ofJson c.toJson) = some c.toJson :=
    JsonText.pick?_ofJson hplain (by simp [fieldNames])
  simp [decode?, encode, JsonText.read?_text hplain, hpick, Cause.restores .plain c]

theorem Pdu.decode?_encode (p : Pdu) : decode? p.encode = some p := by
  rw [decode?, encode, Json.parse?_text p.plain_toJson]
  exact Pdu.restores p

theorem PeerMessage.decode?_encode (m : PeerMessage) : decode? m.encode = some m := by
  have hplain : m.toJson.Plain JsonText.depthLimit := m.plain_toJson
  have hpick : JsonText.pick? fieldNames (.ofJson m.toJson) = some m.toJson :=
    JsonText.pick?_ofJson hplain (by simp [fieldNames])
  simp [decode?, encode, JsonText.read?_text hplain, hpick, PeerMessage.restores m]

theorem Event.decode?_encode (e : Event) : decode? e.encode = some e := by
  rw [decode?, encode, Json.parse?_text e.plain_toJson]
  exact Event.restores e

/-- The texts of causes, of messages alone and with their entities, and of events lose nothing. -/
theorem texts_lossless :
    Lossless Cause.encode Cause.decode? ∧ Lossless Pdu.encode Pdu.decode? ∧
      Lossless PeerMessage.encode PeerMessage.decode? ∧ Lossless Event.encode Event.decode? :=
  ⟨.of_decode?_encode Cause.decode?_encode, .of_decode?_encode Pdu.decode?_encode,
    .of_decode?_encode PeerMessage.decode?_encode, .of_decode?_encode Event.decode?_encode⟩

end NgapProcedures
