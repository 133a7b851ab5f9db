import NgapProcedures.Message

/-! What procedures tell observers, and what they ask to be done on their behalf. -/

namespace NgapProcedures

inductive Event where
  | procedureLaunched (id : ProcedureId) (kind : String) (entity : EntityId)
  | requestSent (id : ProcedureId) (attempt : UInt32)
  | backoffStarted (id : ProcedureId) (attempt : UInt32) (delayMs : UInt64)
  | procedureSucceeded (id : ProcedureId)
  | procedureRejected (id : ProcedureId) (reason : String)
  | retriesExhausted (id : ProcedureId) (attempts : UInt32)
  | procedureCancelled (id : ProcedureId)
  | amfConnected (entity : EntityId) (amfName : String)
  | amfConnectionFailed (entity : EntityId) (reason : String)
  | transactionsLost (entities : List EntityId)
  deriving DecidableEq, Inhabited

def Event.name : Event → String
  | procedureLaunched .. => "procedure:launched"
  | requestSent .. => "procedure:request_sent"
  | backoffStarted .. => "procedure:backoff"
  | procedureSucceeded .. => "procedure:succeeded"
  | procedureRejected .. => "procedure:rejected"
  | retriesExhausted .. => "procedure:exhausted"
  | procedureCancelled .. => "procedure:cancelled"
  | amfConnected .. => "amf:connected"
  | amfConnectionFailed .. => "amf:not_connected"
  | transactionsLost .. => "transactions:lost"

inductive Effect where
  /-- hand a message to the gateway -/
  | send (message : PeerMessage)
  /-- arm the procedure's timer, in place of the one it has -/
  | startTimer (delay : Duration)
  /-- release the procedure's timer, if it has one -/
  | cancelTimer
  /-- cancel another procedure -/
  | cancelProcedure (id : ProcedureId)
  | emit (event : Event)
  deriving DecidableEq, Inhabited

namespace Effect

def name : Effect → String
  | send _ => "send"
  | startTimer _ => "start_timer"
  | cancelTimer => "cancel_timer"
  | cancelProcedure _ => "cancel_procedure"
  | emit _ => "emit"

/-- what a trace shows of the effect -/
def fields : Effect → List (String × String)
  | send m => [("entity", m.entity.text), ("pdu", m.pdu.name)]
  | startTimer delay => [("delay_ms", toString delay.millis)]
  | cancelTimer => []
  | cancelProcedure id => [("procedure", id.text)]
  | emit event => [("event", event.name)]

end Effect

end NgapProcedures
