import NgapProcedures.Message

/-! Where outbound messages go. Handing a message over does not wait for its delivery; a gateway may
refuse it. -/

namespace NgapProcedures

inductive GatewayError where
  | closed (entity : EntityId) (pdu : String)
  deriving DecidableEq

def GatewayError.message : GatewayError → String
  | closed entity pdu => "transport closed, dropped " ++ pdu ++ " for " ++ entity.text

def GatewayError.ofMessage (m : PeerMessage) : GatewayError := .closed m.entity m.pdu.name

class Gateway (γ : Type) where
  /-- takes a message or refuses it -/
  send : γ → PeerMessage → Except GatewayError Unit × γ

structure RecordingGateway where
  sent : List PeerMessage := []
  closed : Bool := false
  deriving DecidableEq, Inhabited

namespace RecordingGateway

instance : Gateway RecordingGateway where
  send g m :=
    if g.closed then (.error (.ofMessage m), g) else (.ok (), { g with sent := g.sent ++ [m] })

def count (g : RecordingGateway) (p : Pdu → Bool) : Nat := g.sent.countP fun m => p m.pdu

def clear (g : RecordingGateway) : RecordingGateway := { g with sent := [] }

def setClosed (g : RecordingGateway) (closed : Bool) : RecordingGateway := { g with closed }

end RecordingGateway

/-- passes messages to a receiver; once the receiver is gone it refuses them for good -/
structure ChannelGateway where
  /-- messages that the receiver has not taken yet -/
  waiting : List PeerMessage := []
  closed : Bool := false
  deriving DecidableEq, Inhabited

namespace ChannelGateway

instance : Gateway ChannelGateway where
  send g m :=
    if g.closed then (.error (.ofMessage m), g)
    else (.ok (), { g with waiting := g.waiting ++ [m] })

def receive (g : ChannelGateway) : List PeerMessage × ChannelGateway :=
  (g.waiting, { g with waiting := [] })

/-- the receiver goes, and what waits for it is lost -/
def dropReceiver (_ : ChannelGateway) : ChannelGateway := { closed := true }

end ChannelGateway

structure NoGateway where
  deriving DecidableEq, Inhabited

instance : Gateway NoGateway where
  send g _ := (.ok (), g)

/-- a gateway whose hand-overs are watched; it takes and refuses what the inner one does -/
structure TracedGateway (γ : Type) where
  inner : γ
  deriving DecidableEq, Inhabited

instance {γ : Type} [Gateway γ] : Gateway (TracedGateway γ) where
  send g m := ((Gateway.send g.inner m).1, ⟨(Gateway.send g.inner m).2⟩)

end NgapProcedures
