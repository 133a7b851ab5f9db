import NgapProcedures.Config.Engine
import NgapProcedures.Peer

/-! The daemon's configuration: the node it speaks for, the AMF it connects to, the script of the
simulated peer, and the engine's tunables. -/

namespace NgapProcedures

structure NodeConfig where
  gnbId : UInt32 := 411
  gnbIdBitLength : UInt8 := 22
  plmn : String := "00101"
  tac : UInt32 := 7
  ranNodeName : String := "srsgnb01"
  /-- entity that the AMF connection is registered under -/
  controller : String := "ngc"
  deriving DecidableEq, Inhabited

structure DaemonConfig where
  node : NodeConfig := {}
  /-- entity of the association with the AMF -/
  amfEntity : String := "amf-1"
  peer : PeerScript := {}
  engine : EngineConfig := {}
  /-- where the log goes; by default to the user's state directory -/
  logPath : Option String := none
  /-- stop once the AMF connection has an outcome -/
  exitWhenSettled : Bool := false
  deriving DecidableEq, Inhabited

namespace DaemonConfig

/-- The tick has to last, and the length of a gNB identity lies between 22 and 32 bits. -/
def validate (c : DaemonConfig) : Except ConfigError Unit := do
  c.engine.validate
  if c.node.gnbIdBitLength < 22 ∨ 32 < c.node.gnbIdBitLength then
    throw (.invalid "node.gnb_id_bit_length"
      (toString c.node.gnbIdBitLength.toNat ++ " is outside 22..=32"))

def controller (c : DaemonConfig) : EntityId := ⟨c.node.controller⟩

def amf (c : DaemonConfig) : EntityId := ⟨c.amfEntity⟩

def setupMessage (c : DaemonConfig) : NgSetupRequest where
  globalGnbId := ⟨c.node.plmn, c.node.gnbId, c.node.gnbIdBitLength⟩
  ranNodeName := some c.node.ranNodeName
  supportedTaList := [⟨c.node.tac, [c.node.plmn]⟩]
  defaultPagingDrx := .v128

end DaemonConfig

end NgapProcedures
