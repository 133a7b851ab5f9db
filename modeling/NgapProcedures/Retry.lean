import NgapProcedures.Event
import NgapProcedures.Outcome

/-! One exchange with a peer, repeated while the peer asks for it: send a request, wait for the
reply, and on a rejection with a wait send again once the wait is over. A budget of `n` retries
allows `n + 1` requests. -/

namespace NgapProcedures

/-- how a program with overflow checks ends at a sum that its type cannot hold -/
inductive Panic where
  | addOverflow
  deriving DecidableEq

namespace Panic

def message : Panic → String
  | addOverflow => "attempt to add with overflow"

/-- the result with overflow checks: none if there was a panic on the way to it -/
def check {α : Type} (panic? : Option Panic) (result : α) : Except Panic α :=
  match panic? with
  | some panic => .error panic
  | none => .ok result

end Panic

inductive Reply (σ : Type) where
  | success (response : σ)
  | failure (rejection : Rejection)
  deriving DecidableEq

structure RetryProtocol (ρ σ : Type) where
  kind : Kind
  requestPdu : ρ → Pdu
  /-- the reply that a message is, if it belongs to this exchange -/
  reply? : Pdu → Option (Reply σ)

def ngSetup : RetryProtocol NgSetupRequest NgSetupResponse where
  kind := .ngSetup
  requestPdu := .ngSetupRequest
  reply?
    | .ngSetupResponse body => some (.success body)
    | .ngSetupFailure body => some (.failure body)
    | _ => none

/-- a gNB announces a change in what it serves; the peer's assent carries nothing -/
def ranConfigurationUpdate : RetryProtocol RanConfigurationUpdate Unit where
  kind := .ranConfigurationUpdate
  requestPdu := .ranConfigurationUpdate
  reply?
    | .ranConfigurationUpdateAcknowledge => some (.success ())
    | .ranConfigurationUpdateFailure body => some (.failure body)
    | _ => none

namespace Rejection

def wait? (r : Rejection) : Option Duration := r.timeToWait.map (·.duration)

def describe (r : Rejection) : String := r.cause.text

end Rejection

inductive RetryFailure where
  /-- refused without a wait -/
  | rejected (rejection : Rejection)
  /-- every permitted attempt was refused with a wait -/
  | retriesExhausted (last : Rejection) (attempts : UInt32)
  deriving DecidableEq, Inhabited

namespace RetryFailure

def last : RetryFailure → Rejection
  | rejected r => r
  | retriesExhausted r _ => r

def isExhausted : RetryFailure → Bool
  | rejected _ => false
  | retriesExhausted .. => true

end RetryFailure

abbrev RetryOutcome (σ : Type) := Outcome σ RetryFailure

structure ProcedureRequest (ρ : Type) where
  /-- peer the request is addressed to, under which the procedure is registered -/
  entity : EntityId
  message : ρ
  /-- retries permitted after the first attempt -/
  maxRetries : UInt32
  deriving DecidableEq

inductive RetryState where
  | created | awaitingResponse | backoff | cancelled | completed
  deriving DecidableEq, Inhabited

inductive RetryEvent (σ : Type) where
  | launch
  | reply (reply : Reply σ)
  | timerFired
  | cancel
  deriving DecidableEq

structure RetryProcedure (ρ σ : Type) where
  id : ProcedureId
  entity : EntityId
  request : ρ
  maxRetries : UInt32
  /-- retries so far, the first attempt not counted -/
  attempts : UInt32 := 0
  /-- requests sent so far -/
  transmissions : UInt32 := 0
  state : RetryState := .created
  lastFailure : Option Rejection := none
  outcome : Option (RetryOutcome σ) := none
  /-- The panic that the procedure has run into. It ends a program with overflow checks; one without
  them goes on, and the other fields tell how. -/
  panic? : Option Panic := none
  deriving DecidableEq

namespace RetryProcedure

variable {ρ σ : Type}

def new (id : ProcedureId) (r : ProcedureRequest ρ) : RetryProcedure ρ σ :=
  { id, entity := r.entity, request := r.message, maxRetries := r.maxRetries }

def sendRequest (P : RetryProtocol ρ σ) (p : RetryProcedure ρ σ) : List Effect :=
  [.send ⟨p.entity, P.requestPdu p.request⟩, .emit (.requestSent p.id p.transmissions)]

def exhausted (p : RetryProcedure ρ σ) (last : Rejection) : RetryProcedure ρ σ × List Effect :=
  ({ p with
      state := .completed
      lastFailure := some last
      outcome := some (.failure (.retriesExhausted last p.transmissions)) },
    [.emit (.retriesExhausted p.id p.transmissions)])

/-- a rejection without a wait is final; one with a wait starts the backoff, unless the budget is
spent -/
def onFailure (p : RetryProcedure ρ σ) (r : Rejection) : RetryProcedure ρ σ × List Effect :=
  match r.wait? with
  | none =>
    ({ p with state := .completed, outcome := some (.failure (.rejected r)) },
      [.emit (.procedureRejected p.id r.describe)])
  | some delay =>
    if p.maxRetries ≤ p.attempts then p.exhausted r
    else
      ({ p with state := .backoff, lastFailure := some r },
        [.startTimer delay,
          .emit (.backoffStarted p.id (p.attempts + 1) (.ofNatClamp delay.millis))])

/-- The next state, and what is to be done; an event that does not fit the state is ignored. A count
that overflows is a panic, and marked as one; what stands beside the mark is how a program without
overflow checks goes on. -/
def transition (P : RetryProtocol ρ σ) (p : RetryProcedure ρ σ) (event : RetryEvent σ) :
    RetryProcedure ρ σ × List Effect :=
  match p.state, event with
  | .created, .launch =>
    let p' := { p with state := .awaitingResponse, transmissions := 1 }
    (p', p'.sendRequest P)
  | .awaitingResponse, .reply (.success response) =>
    ({ p with state := .completed, outcome := some (.success response) },
      [.emit (.procedureSucceeded p.id)])
  | .awaitingResponse, .reply (.failure r) => p.onFailure r
  | .backoff, .timerFired =>
    if p.attempts < p.maxRetries then
      let p' := { p with
        state := .awaitingResponse
        attempts := p.attempts + 1
        transmissions := p.transmissions + 1 }
      if p.transmissions.toNat + 1 < UInt32.size then (p', p'.sendRequest P)
      else
        -- the guard is on the retries only: here the sum of requests overflows, which is a panic
        let p' := { p' with panic? := some .addOverflow }
        (p', p'.sendRequest P)
    else
      match p.lastFailure with
      | some last => p.exhausted last
      | none => (p, [])
  | .created, .cancel | .awaitingResponse, .cancel =>
    ({ p with state := .cancelled, outcome := some .cancelled },
      [.emit (.procedureCancelled p.id)])
  | .backoff, .cancel =>
    ({ p with state := .cancelled, outcome := some .cancelled },
      [.cancelTimer, .emit (.procedureCancelled p.id)])
  | _, _ => (p, [])

/-- what a program with overflow checks makes of an event -/
def transition? (P : RetryProtocol ρ σ) (p : RetryProcedure ρ σ) (event : RetryEvent σ) :
    Except Panic (RetryProcedure ρ σ × List Effect) :=
  Panic.check (p.transition P event).1.panic? (p.transition P event)

def waitingFor (p : RetryProcedure ρ σ) : WaitingFor :=
  match p.state with
  | .awaitingResponse => .response
  | .backoff => .timer
  | _ => .nothing

def isTerminal (p : RetryProcedure ρ σ) : Bool :=
  match p.state with
  | .completed | .cancelled => true
  | _ => false

def isCancelled (p : RetryProcedure ρ σ) : Bool := p.state == .cancelled

end RetryProcedure

end NgapProcedures
