import Mathlib.Data.List.ReduceOption
import NgapProcedures.Peer

/-! What a scripted AMF answers to a message depends on the message and on how many NG Setup Requests
came up to it, from whatever entity. So its answers to a whole history are told by the script alone,
and an AMF at work gives them in the order of the messages. -/

namespace NgapProcedures

def PeerMessage.isSetupRequest (m : PeerMessage) : Bool :=
  match m.pdu with
  | .ngSetupRequest _ => true
  | _ => false

def PeerMessage.isErrorIndication (m : PeerMessage) : Bool :=
  match m.pdu with
  | .errorIndication _ => true
  | _ => false

theorem PeerMessage.isErrorIndication_iff (m : PeerMessage) :
    m.isErrorIndication = true ↔ ∃ cause, m.pdu = .errorIndication cause := by
  obtain ⟨entity, pdu⟩ := m
  cases pdu with
  | errorIndication cause => simp [isErrorIndication]
  | _ => simp [isErrorIndication]

def setupRequests (messages : List PeerMessage) : Nat := messages.countP (·.isSetupRequest)

theorem setupRequests_append (before after : List PeerMessage) :
    setupRequests (before ++ after) = setupRequests before + setupRequests after :=
  List.countP_append

theorem setupRequests_filter (messages : List PeerMessage) :
    setupRequests (messages.filter (·.isSetupRequest)) = setupRequests messages := by
  simp [setupRequests, List.countP_filter]

/-- the answer to a PDU by the script, where `k` NG Setup Requests have come by then, this one
included -/
def PeerScript.answer (s : PeerScript) (k : Nat) : Pdu → Option Pdu
  | .ngSetupRequest request =>
    if k ≤ s.rejectCount.toNat then
      some (.ngSetupFailure ⟨⟨.misc, "unspecified"⟩, s.timeToWait⟩)
    else
      some (.ngSetupResponse ⟨s.amfName, s.relativeCapacity, [request.globalGnbId.plmn]⟩)
  | .ranConfigurationUpdate _ => some .ranConfigurationUpdateAcknowledge
  | .errorIndication _ => none
  | .ngSetupResponse _ | .ngSetupFailure _ | .ranConfigurationUpdateAcknowledge
  | .ranConfigurationUpdateFailure _ =>
    some (.errorIndication ⟨.protocol, "message-not-compatible-with-receiver-state"⟩)

def PeerScript.amf (s : PeerScript) : ScriptedAmf := ⟨s, 0⟩

def PeerScript.reply (s : PeerScript) (k : Nat) (m : PeerMessage) : Option PeerMessage :=
  (s.answer k m.pdu).map fun pdu => ⟨m.entity, pdu⟩

def PeerScript.replies (s : PeerScript) (seen : Nat) :
    List PeerMessage → List (Option PeerMessage)
  | [] => []
  | m :: ms => s.reply (seen + setupRequests [m]) m :: s.replies (seen + setupRequests [m]) ms

namespace PeerScript

variable (s : PeerScript)

theorem reply_eq_none_iff (k : Nat) (m : PeerMessage) :
    s.reply k m = none ↔ m.isErrorIndication = true := by
  obtain ⟨entity, pdu⟩ := m
  cases pdu with
  | ngSetupRequest request =>
    simp only [reply, answer, PeerMessage.isErrorIndication, Option.map_eq_none_iff]
    split <;> simp
  | errorIndication cause => simp [reply, answer, PeerMessage.isErrorIndication]
  | ngSetupResponse | ngSetupFailure | ranConfigurationUpdate | ranConfigurationUpdateAcknowledge
  | ranConfigurationUpdateFailure => simp [reply, answer, PeerMessage.isErrorIndication]

theorem getElem?_replies (seen : Nat) (messages : List PeerMessage) (i : Nat) :
    (s.replies seen messages)[i]? =
      messages[i]?.map (s.reply (seen + setupRequests (messages.take (i + 1)))) := by
  induction messages generalizing seen i with
  | nil => simp [replies]
  | cons m ms ih =>
    cases i with
    | zero => simp [replies]
    | succ i =>
      have hcount : setupRequests (m :: ms.take (i + 1)) =
          setupRequests [m] + setupRequests (ms.take (i + 1)) :=
        setupRequests_append [m] _
      simp [replies, ih, hcount, Nat.add_assoc]

/-- every message gets a reply but for error indications -/
theorem length_reduceOption_replies (seen : Nat) (messages : List PeerMessage) :
    (s.replies seen messages).reduceOption.length = messages.countP (!·.isErrorIndication) := by
  induction messages generalizing seen with
  | nil => rfl
  | cons m ms ih =>
    cases hm : m.isErrorIndication with
    | true => simp [replies, (s.reply_eq_none_iff _ m).2 hm, hm, ih]
    | false =>
      obtain ⟨answer, hanswer⟩ : ∃ answer, s.reply (seen + setupRequests [m]) m = some answer := by
        rw [← Option.ne_none_iff_exists', Ne, s.reply_eq_none_iff, hm]
        exact Bool.false_ne_true
      simp [replies, hanswer, hm, ih]

end PeerScript

namespace ScriptedAmf

def Refused (a : ScriptedAmf) (seen : Nat) : Prop :=
  a.rejected.toNat = min a.script.rejectCount.toNat seen

theorem refused_amf (script : PeerScript) : script.amf.Refused 0 := by
  simp [Refused, PeerScript.amf]

variable {a : ScriptedAmf} {seen : Nat}

/-- One message: the script's reply, and the count of refusals stays exact. The count cannot run
over, since it stands below a number of its own width when it is raised. -/
theorem Refused.respond (h : a.Refused seen) (m : PeerMessage) :
    (a.respond m).1 = a.script.reply (seen + setupRequests [m]) m ∧
      (a.respond m).2.script = a.script ∧
      (a.respond m).2.Refused (seen + setupRequests [m]) := by
  obtain ⟨entity, pdu⟩ := m
  cases pdu with
  | ngSetupRequest request =>
    have hone : setupRequests [⟨entity, .ngSetupRequest request⟩] = 1 := by
      simp [setupRequests, PeerMessage.isSetupRequest]
    rw [hone]
    unfold Refused at h
    by_cases hlt : a.rejected < a.script.rejectCount
    · have hlt' : a.rejected.toNat < a.script.rejectCount.toNat := UInt32.lt_iff_toNat_lt.1 hlt
      have hseen : seen + 1 ≤ a.script.rejectCount.toNat := by omega
      have hnext : (a.rejected + 1).toNat = a.rejected.toNat + 1 := by
        have hmax := a.script.rejectCount.toNat_lt
        rw [UInt32.toNat_add]
        exact Nat.mod_eq_of_lt (by simp; omega)
      refine ⟨?_, ?_, ?_⟩
      · simp [ScriptedAmf.respond, hlt, PeerScript.reply, PeerScript.answer, hseen, refusal]
      · simp [ScriptedAmf.respond, hlt]
      · simp only [ScriptedAmf.respond, hlt, ↓reduceIte, Refused, hnext]
        omega
    · have hle : a.script.rejectCount.toNat ≤ a.rejected.toNat := by
        rw [UInt32.lt_iff_toNat_lt] at hlt
        exact Nat.le_of_not_lt hlt
      have hseen : ¬ seen + 1 ≤ a.script.rejectCount.toNat := by omega
      refine ⟨?_, ?_, ?_⟩
      · simp [ScriptedAmf.respond, hlt, PeerScript.reply, PeerScript.answer, hseen, acceptance]
      · simp [ScriptedAmf.respond, hlt]
      · simp only [ScriptedAmf.respond, hlt, ↓reduceIte, Refused]
        omega
  | ngSetupResponse | ngSetupFailure | ranConfigurationUpdate | ranConfigurationUpdateAcknowledge
  | ranConfigurationUpdateFailure | errorIndication => exact ⟨rfl, rfl, h⟩

/-- a whole history, by induction on the messages: the count of requests is what is carried along -/
theorem Refused.respondAll (h : a.Refused seen) (messages : List PeerMessage) :
    (a.respondAll messages).1 = a.script.replies seen messages ∧
      (a.respondAll messages).2.script = a.script ∧
      (a.respondAll messages).2.Refused (seen + setupRequests messages) := by
  induction messages generalizing a seen with
  | nil => exact ⟨rfl, rfl, h⟩
  | cons m ms ih =>
    obtain ⟨hreply, hscript, hnext⟩ := h.respond m
    obtain ⟨hreplies, hscript', hlast⟩ := ih hnext
    have hcount : seen + setupRequests (m :: ms) =
        seen + setupRequests [m] + setupRequests ms := by
      rw [Nat.add_assoc]
      exact congrArg (seen + ·) (setupRequests_append [m] ms)
    refine ⟨?_, ?_, ?_⟩
    · change (a.respond m).1 :: ((a.respond m).2.respondAll ms).1 = _
      rw [hreply, hreplies, hscript]
      rfl
    · exact hscript'.trans hscript
    · rw [hcount]
      exact hlast

theorem respondAll_append (a : ScriptedAmf) (before after : List PeerMessage) :
    a.respondAll (before ++ after) =
      ((a.respondAll before).1 ++ ((a.respondAll before).2.respondAll after).1,
        ((a.respondAll before).2.respondAll after).2) := by
  induction before generalizing a with
  | nil => rfl
  | cons m ms ih =>
    change ((a.respond m).1 :: ((a.respond m).2.respondAll (ms ++ after)).1,
      ((a.respond m).2.respondAll (ms ++ after)).2) = _
    rw [ih]
    rfl

/-- AMFs of one script that counted alike are alike -/
theorem Refused.unique {b : ScriptedAmf} (ha : a.Refused seen) (hb : b.Refused seen)
    (h : a.script = b.script) : a = b := by
  obtain ⟨script, rejected⟩ := a
  obtain ⟨script', rejected'⟩ := b
  obtain rfl : script = script' := h
  have hcount : rejected.toNat = rejected'.toNat := ha.trans hb.symm
  rw [UInt32.toNat_inj.1 hcount]

theorem length_respondAll (a : ScriptedAmf) (messages : List PeerMessage) :
    (a.respondAll messages).1.length = messages.length := by
  induction messages generalizing a with
  | nil => rfl
  | cons m ms ih => exact congrArg (· + 1) (ih (a.respond m).2)

theorem Refused.respondAll_filter (h : a.Refused seen) (messages : List PeerMessage) :
    (a.respondAll (messages.filter (·.isSetupRequest))).2 = (a.respondAll messages).2 := by
  obtain ⟨-, hscript, hall⟩ := h.respondAll messages
  obtain ⟨-, hscript', honly⟩ := h.respondAll (messages.filter (·.isSetupRequest))
  rw [setupRequests_filter] at honly
  exact honly.unique hall (hscript'.trans hscript.symm)

theorem respond_of_errorIndication (a : ScriptedAmf) {m : PeerMessage}
    (h : m.isErrorIndication = true) : a.respond m = (none, a) := by
  obtain ⟨cause, hpdu⟩ := m.isErrorIndication_iff.1 h
  simp [respond, hpdu]

theorem respond_eq_none_iff (a : ScriptedAmf) (m : PeerMessage) :
    (a.respond m).1 = none ↔ m.isErrorIndication = true := by
  obtain ⟨entity, pdu⟩ := m
  cases pdu with
  | ngSetupRequest request =>
    simp only [respond, PeerMessage.isErrorIndication]
    split <;> simp
  | _ => simp [respond, PeerMessage.isErrorIndication]

end ScriptedAmf

namespace PeerService

def serveAll (s : PeerService) : List PeerMessage → List Bool × List PeerMessage × PeerService
  | [] => ([], [], s)
  | m :: ms =>
    let (accepted, reply, s) := s.serve m
    let (rest, replies, s) := s.serveAll ms
    (accepted :: rest, reply.toList ++ replies, s)

/-- as long as replies are taken, every message is accepted and every reply given in its turn -/
theorem serveAll_taken (a : ScriptedAmf) (messages : List PeerMessage) :
    (⟨a, true, false⟩ : PeerService).serveAll messages =
      (messages.map fun _ => true, (a.respondAll messages).1.reduceOption,
        ⟨(a.respondAll messages).2, true, false⟩) := by
  induction messages generalizing a with
  | nil => rfl
  | cons m ms ih =>
    have hserve : (⟨a, true, false⟩ : PeerService).serve m =
        (true, (a.respond m).1, ⟨(a.respond m).2, true, false⟩) := by
      simp [serve]
    have hall : a.respondAll (m :: ms) = ((a.respond m).1 :: ((a.respond m).2.respondAll ms).1,
        ((a.respond m).2.respondAll ms).2) := rfl
    simp only [serveAll, hserve, ih, hall, List.map_cons]
    cases (a.respond m).1 with
    | none => rfl
    | some reply => rfl

theorem serveAll_stopped {s : PeerService} (h : s.stopped = true) (messages : List PeerMessage) :
    s.serveAll messages = (messages.map fun _ => false, [], s) := by
  induction messages with
  | nil => rfl
  | cons m ms ih =>
    have hserve : s.serve m = (false, none, s) := by simp [serve, h]
    simp [serveAll, hserve, ih]

/-- When nobody takes replies, none is taken: messages are accepted up to the first that gets a
reply, this one included, and none after it. -/
theorem serveAll_dropReplies (a : ScriptedAmf) {silent : List PeerMessage} {m : PeerMessage}
    (hsilent : ∀ e ∈ silent, e.isErrorIndication = true) (hm : m.isErrorIndication = false)
    (rest : List PeerMessage) :
    (⟨a, false, false⟩ : PeerService).serveAll (silent ++ m :: rest) =
      ((silent ++ [m]).map (fun _ => true) ++ rest.map fun _ => false, [],
        ⟨(a.respond m).2, false, true⟩) := by
  induction silent with
  | nil =>
    have hserve : (⟨a, false, false⟩ : PeerService).serve m =
        (true, none, ⟨(a.respond m).2, false, true⟩) := by
      simp [serve, a.respond_eq_none_iff, hm]
    have hrest : (⟨(a.respond m).2, false, true⟩ : PeerService).serveAll rest =
        (rest.map fun _ => false, [], ⟨(a.respond m).2, false, true⟩) :=
      serveAll_stopped rfl rest
    simp [serveAll, hserve, hrest]
  | cons e silent ih =>
    obtain ⟨he, hsilent⟩ := List.forall_mem_cons.1 hsilent
    have hserve : (⟨a, false, false⟩ : PeerService).serve e = (true, none, ⟨a, false, false⟩) := by
      simp [serve, a.respond_of_errorIndication he]
    simp [serveAll, hserve, ih hsilent]

end PeerService

/-- A scripted AMF over any history of messages. Each is answered as the script says by the count of
NG Setup Requests up to it, and the answer goes back to the entity of the message; only an error
indication is left without one. What came before counts by its NG Setup Requests alone, and as many
of them are refused as the script asks for. An AMF at work gives these replies in order. -/
theorem scripted_replies (script : PeerScript) (messages : List PeerMessage) :
    (∀ i, (script.amf.respondAll messages).1[i]? = messages[i]?.map fun m =>
      (script.answer (setupRequests (messages.take (i + 1))) m.pdu).map fun pdu => ⟨m.entity, pdu⟩) ∧
    (∀ i : Nat, (script.amf.respondAll messages).1[i]? = some none ↔
      ∃ entity cause, messages[i]? = some ⟨entity, .errorIndication cause⟩) ∧
    (∀ later, (script.amf.respondAll (messages ++ later)).1.drop messages.length =
      ((script.amf.respondAll (messages.filter (·.isSetupRequest))).2.respondAll later).1) ∧
    (script.amf.respondAll messages).2.rejected.toNat =
      min script.rejectCount.toNat (setupRequests messages) ∧
    (⟨script.amf, true, false⟩ : PeerService).serveAll messages =
      (messages.map fun _ => true, (script.amf.respondAll messages).1.reduceOption,
        ⟨(script.amf.respondAll messages).2, true, false⟩) ∧
    (script.amf.respondAll messages).1.reduceOption.length =
      messages.countP (!·.isErrorIndication) := by
  obtain ⟨hreplies, hscript, hrefused⟩ := (ScriptedAmf.refused_amf script).respondAll messages
  rw [Nat.zero_add] at hrefused
  have htold : ∀ i, (script.amf.respondAll messages).1[i]? =
      messages[i]?.map (script.reply (setupRequests (messages.take (i + 1)))) := by
    intro i
    rw [hreplies, script.amf.script.getElem?_replies, Nat.zero_add]
    rfl
  refine ⟨htold, ?_, ?_, ?_, PeerService.serveAll_taken _ messages, ?_⟩
  · intro i
    rw [htold, Option.map_eq_some_iff]
    constructor
    · rintro ⟨m, hm, hnone⟩
      obtain ⟨cause, hpdu⟩ := m.isErrorIndication_iff.1 ((script.reply_eq_none_iff _ m).1 hnone)
      exact ⟨m.entity, cause, by rw [hm, ← hpdu]⟩
    · rintro ⟨entity, cause, hm⟩
      exact ⟨_, hm, rfl⟩
  · intro later
    rw [ScriptedAmf.respondAll_append, (ScriptedAmf.refused_amf script).respondAll_filter]
    exact List.drop_left' (ScriptedAmf.length_respondAll _ _)
  · rw [hrefused, hscript]
    rfl
  · rw [hreplies]
    exact script.length_reduceOption_replies 0 messages

end NgapProcedures
