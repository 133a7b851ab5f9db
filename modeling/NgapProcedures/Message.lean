import NgapProcedures.Duration
import NgapProcedures.Ident

/-! Control-plane messages exchanged with a peer, with the information elements that the procedures
need. -/

namespace NgapProcedures

/-- wait that a peer may impose before a request is repeated -/
inductive TimeToWait where
  | s1 | s2 | s5 | s10 | s20 | s60
  deriving DecidableEq, Inhabited

namespace TimeToWait

def all : List TimeToWait := [s1, s2, s5, s10, s20, s60]

def seconds : TimeToWait → Nat
  | s1 => 1 | s2 => 2 | s5 => 5 | s10 => 10 | s20 => 20 | s60 => 60

def duration (w : TimeToWait) : Duration := .ofSeconds w.seconds

def ofSeconds? (n : Nat) : Option TimeToWait := all.find? (·.seconds == n)

def text (w : TimeToWait) : String := toString w.seconds ++ "s"

def ofText? (s : String) : Option TimeToWait := all.find? (·.text == s)

end TimeToWait

inductive CauseGroup where
  | radioNetwork | transport | protocol | misc
  deriving DecidableEq, Inhabited

structure Cause where
  group : CauseGroup
  value : String
  deriving DecidableEq, Inhabited

namespace CauseGroup

def all : List CauseGroup := [radioNetwork, transport, protocol, misc]

/-- the group's word in reasons shown to people -/
def text : CauseGroup → String
  | radioNetwork => "radio-network"
  | transport => "transport"
  | protocol => "protocol"
  | misc => "misc"

end CauseGroup

def Cause.text (c : Cause) : String := c.group.text ++ ":" ++ c.value

inductive PagingDrx where
  | v32 | v64 | v128 | v256
  deriving DecidableEq, Inhabited

structure GlobalGnbId where
  /-- country and network digits of the operator -/
  plmn : String
  gnbId : UInt32
  bitLength : UInt8
  deriving DecidableEq, Inhabited

structure SupportedTa where
  tac : UInt32
  broadcastPlmns : List String
  deriving DecidableEq, Inhabited

structure NgSetupRequest where
  globalGnbId : GlobalGnbId
  ranNodeName : Option String
  supportedTaList : List SupportedTa
  defaultPagingDrx : PagingDrx
  deriving DecidableEq, Inhabited

structure NgSetupResponse where
  amfName : String
  relativeAmfCapacity : UInt8
  plmnSupportList : List String
  deriving DecidableEq, Inhabited

structure RanConfigurationUpdate where
  ranNodeName : Option String
  supportedTaList : List SupportedTa
  deriving DecidableEq, Inhabited

/-- a request refused by the peer; without a wait the refusal is final -/
structure Rejection where
  cause : Cause
  timeToWait : Option TimeToWait
  deriving DecidableEq, Inhabited

inductive Pdu where
  | ngSetupRequest (body : NgSetupRequest)
  | ngSetupResponse (body : NgSetupResponse)
  | ngSetupFailure (body : Rejection)
  | ranConfigurationUpdate (body : RanConfigurationUpdate)
  | ranConfigurationUpdateAcknowledge
  | ranConfigurationUpdateFailure (body : Rejection)
  | errorIndication (cause : Cause)
  deriving DecidableEq, Inhabited

def Pdu.name : Pdu → String
  | ngSetupRequest _ => "ng_setup_request"
  | ngSetupResponse _ => "ng_setup_response"
  | ngSetupFailure _ => "ng_setup_failure"
  | ranConfigurationUpdate _ => "ran_configuration_update"
  | ranConfigurationUpdateAcknowledge => "ran_configuration_update_ack"
  | ranConfigurationUpdateFailure _ => "ran_configuration_update_failure"
  | errorIndication _ => "error_indication"

structure PeerMessage where
  entity : EntityId
  pdu : Pdu
  deriving DecidableEq, Inhabited

end NgapProcedures
