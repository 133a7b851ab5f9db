import NgapProcedures.Message

/-! A scripted AMF: it refuses a number of NG Setup Requests before it takes one, acknowledges every
RAN Configuration Update, and answers what it does not expect with an error indication. -/

namespace NgapProcedures

structure PeerScript where
  /-- NG Setup Requests refused before one is taken -/
  rejectCount : UInt32 := 0
  /-- wait that goes with a refusal; without one the refusal is final -/
  timeToWait : Option TimeToWait := none
  amfName : String := "open5gs-amf0"
  relativeCapacity : UInt8 := 255
  deriving DecidableEq, Inhabited

structure ScriptedAmf where
  script : PeerScript
  /-- requests refused so far -/
  rejected : UInt32 := 0
  deriving DecidableEq, Inhabited

namespace ScriptedAmf

def refusal (a : ScriptedAmf) : Rejection := ⟨⟨.misc, "unspecified"⟩, a.script.timeToWait⟩

def acceptance (a : ScriptedAmf) (request : NgSetupRequest) : NgSetupResponse :=
  ⟨a.script.amfName, a.script.relativeCapacity, [request.globalGnbId.plmn]⟩

def incompatible : Cause := ⟨.protocol, "message-not-compatible-with-receiver-state"⟩

/-- the answer to a message, if it gets one; answers go back to where the message came from -/
def respond (a : ScriptedAmf) (m : PeerMessage) : Option PeerMessage × ScriptedAmf :=
  match m.pdu with
  | .ngSetupRequest request =>
    if a.rejected < a.script.rejectCount then
      (some ⟨m.entity, .ngSetupFailure a.refusal⟩, { a with rejected := a.rejected + 1 })
    else (some ⟨m.entity, .ngSetupResponse (a.acceptance request)⟩, a)
  | .ranConfigurationUpdate _ => (some ⟨m.entity, .ranConfigurationUpdateAcknowledge⟩, a)
  | .errorIndication _ => (none, a)
  | _ => (some ⟨m.entity, .errorIndication incompatible⟩, a)

def respondAll (a : ScriptedAmf) : List PeerMessage → List (Option PeerMessage) × ScriptedAmf
  | [] => ([], a)
  | m :: ms =>
    let (reply, a) := a.respond m
    let (replies, a) := a.respondAll ms
    (reply :: replies, a)

end ScriptedAmf

/-- an AMF at work between a queue of requests and a queue of replies. It stops when a reply finds
nobody to take it. -/
structure PeerService where
  amf : ScriptedAmf
  repliesTaken : Bool := true
  stopped : Bool := false
  deriving DecidableEq, Inhabited

namespace PeerService

def dropReplies (s : PeerService) : PeerService := { s with repliesTaken := false }

/-- one message: whether it was accepted, and the reply that is taken -/
def serve (s : PeerService) (m : PeerMessage) : Bool × Option PeerMessage × PeerService :=
  if s.stopped then (false, none, s)
  else
    let (reply, amf) := s.amf.respond m
    if reply.isNone || s.repliesTaken then (true, reply, { s with amf })
    else (true, none, { s with amf, stopped := true })

end PeerService

end NgapProcedures
