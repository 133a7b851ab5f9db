import NgapProcedures.Retry

/-! The connection to an AMF: runs an NG Setup as a procedure of its own, waits until that has
ended, and reports whether the AMF is connected. -/

namespace NgapProcedures

inductive ConnectionFailure where
  | setup (failure : RetryFailure)
  | setupCancelled
  deriving DecidableEq, Inhabited

def ConnectionFailure.message : ConnectionFailure → String
  | setup (.rejected r) => "setup rejected: " ++ r.cause.text
  | setup (.retriesExhausted _ attempts) =>
    "setup retries exhausted after " ++ toString attempts.toNat ++ " attempts"
  | setupCancelled => "setup cancelled"

/-- on success the name of the AMF -/
abbrev ConnectionOutcome := Outcome String ConnectionFailure

inductive ConnectionState where
  | created | awaitingSetup | cancelled | completed
  deriving DecidableEq, Inhabited

inductive ConnectionEvent where
  | launch
  | setupSettled (outcome : RetryOutcome NgSetupResponse)
  | cancel
  deriving DecidableEq

structure AmfConnection where
  id : ProcedureId
  /-- controller that the connection is registered under -/
  entity : EntityId
  amf : EntityId
  /-- the NG Setup it waits for -/
  setup : ProcedureId
  state : ConnectionState := .created
  outcome : Option ConnectionOutcome := none
  deriving DecidableEq

namespace AmfConnection

/-- what the end of the setup means for the connection -/
def outcomeOf : RetryOutcome NgSetupResponse → ConnectionOutcome
  | .success response => .success response.amfName
  | .failure failure => .failure (.setup failure)
  | .cancelled => .failure .setupCancelled

def report (amf : EntityId) : ConnectionOutcome → List Effect
  | .success name => [.emit (.amfConnected amf name)]
  | .failure failure => [.emit (.amfConnectionFailed amf failure.message)]
  | .cancelled => []

/-- the next state, and what is to be done; an event that does not fit the state is ignored -/
def transition (c : AmfConnection) (event : ConnectionEvent) : AmfConnection × List Effect :=
  match c.state, event with
  | .created, .launch => ({ c with state := .awaitingSetup }, [])
  | .awaitingSetup, .setupSettled setup =>
    ({ c with state := .completed, outcome := some (outcomeOf setup) },
      report c.amf (outcomeOf setup))
  | .created, .cancel | .awaitingSetup, .cancel =>
    ({ c with state := .cancelled, outcome := some .cancelled },
      [.cancelProcedure c.setup, .emit (.procedureCancelled c.id)])
  | _, _ => (c, [])

def waitingFor (c : AmfConnection) : WaitingFor :=
  match c.state with
  | .awaitingSetup => .procedure c.setup
  | _ => .nothing

def isTerminal (c : AmfConnection) : Bool :=
  match c.state with
  | .completed | .cancelled => true
  | _ => false

def isCancelled (c : AmfConnection) : Bool := c.state == .cancelled

end AmfConnection

end NgapProcedures
