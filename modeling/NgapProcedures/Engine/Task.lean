import NgapProcedures.Connection
import NgapProcedures.Table

/-! Procedure instances as the engine sees them: a machine, and the slot its result goes to. A task
is resumed only with a wake that it expects. -/

namespace NgapProcedures

inductive Wake where
  | launch
  | message (pdu : Pdu)
  | timerFired
  /-- a procedure that the task waits for has ended -/
  | procedureDone (id : ProcedureId)
  | cancel
  deriving DecidableEq

inductive Result where
  | setup (outcome : RetryOutcome NgSetupResponse)
  | update (outcome : RetryOutcome Unit)
  | connection (outcome : ConnectionOutcome)
  deriving DecidableEq

def Result.isCancelled : Result → Bool
  | setup o => o.isCancelled
  | update o => o.isCancelled
  | connection o => o.isCancelled

/-- results by slot; a slot is written once -/
abbrev Results := Table Nat Result

def Results.record (results : Results) (slot : Nat) (result : Option Result) : Results :=
  match result with
  | some r => if results.contains slot then results else results.insert slot r
  | none => results

inductive Machine where
  | setup (p : RetryProcedure NgSetupRequest NgSetupResponse)
  | update (p : RetryProcedure RanConfigurationUpdate Unit)
  /-- a connection, and the slot that the result of its setup goes to -/
  | connection (c : AmfConnection) (setupSlot : Nat)
  deriving DecidableEq

namespace Machine

def id : Machine → ProcedureId
  | setup p => p.id
  | update p => p.id
  | connection c _ => c.id

def entity : Machine → EntityId
  | setup p => p.entity
  | update p => p.entity
  | connection c _ => c.entity

def kind : Machine → Kind
  | setup _ => ngSetup.kind
  | update _ => ranConfigurationUpdate.kind
  | connection .. => .amfConnection

def waitingFor : Machine → WaitingFor
  | setup p => p.waitingFor
  | update p => p.waitingFor
  | connection c _ => c.waitingFor

def isTerminal : Machine → Bool
  | setup p => p.isTerminal
  | update p => p.isTerminal
  | connection c _ => c.isTerminal

def isCancelled : Machine → Bool
  | setup p => p.isCancelled
  | update p => p.isCancelled
  | connection c _ => c.isCancelled

def accepts : Machine → Pdu → Bool
  | setup _, pdu => (ngSetup.reply? pdu).isSome
  | update _, pdu => (ranConfigurationUpdate.reply? pdu).isSome
  | connection .., _ => false

/-- whether a wake matches what the machine is suspended on -/
def expects (m : Machine) : Wake → Bool
  | .cancel => !m.isTerminal
  | .launch => !m.isTerminal && m.waitingFor == .nothing
  | .message pdu => m.waitingFor == .response && m.accepts pdu
  | .timerFired => m.waitingFor == .timer
  | .procedureDone id => m.waitingFor == .procedure id

def panic? : Machine → Option Panic
  | setup p => p.panic?
  | update p => p.panic?
  | connection .. => none

def result? : Machine → Option Result
  | setup p => p.outcome.map .setup
  | update p => p.outcome.map .update
  | connection c _ => c.outcome.map .connection

end Machine

def RetryProtocol.eventOf {ρ σ : Type} (P : RetryProtocol ρ σ) : Wake → Option (RetryEvent σ)
  | .launch => some .launch
  | .message pdu => (P.reply? pdu).map .reply
  | .timerFired => some .timerFired
  | .procedureDone _ => none
  | .cancel => some .cancel

/-- what a wake means to a connection; the end of its setup counts once the setup's result is there
to be read -/
def AmfConnection.eventOf (c : AmfConnection) (setupResult : Option Result) :
    Wake → Option ConnectionEvent
  | .launch => some .launch
  | .procedureDone id =>
    if id = c.setup then
      match setupResult with
      | some (.setup outcome) => some (.setupSettled outcome)
      | _ => none
    else none
  | .cancel => some .cancel
  | .message _ | .timerFired => none

/-- the machine after a wake, and what is to be done; none if the wake means nothing to it -/
def Machine.resume (results : Results) (w : Wake) : Machine → Option (Machine × List Effect)
  | setup p => (ngSetup.eventOf w).map fun event =>
    ((setup (p.transition ngSetup event).1), (p.transition ngSetup event).2)
  | update p => (ranConfigurationUpdate.eventOf w).map fun event =>
    (update (p.transition ranConfigurationUpdate event).1,
      (p.transition ranConfigurationUpdate event).2)
  | connection c setupSlot => (c.eventOf (results.get? setupSlot) w).map fun event =>
    (connection (c.transition event).1 setupSlot, (c.transition event).2)

structure Task where
  machine : Machine
  /-- where the instance's handle reads its result -/
  slot : Nat
  deriving DecidableEq

def Task.resume (t : Task) (results : Results) (w : Wake) : Task × Results × List Effect :=
  match t.machine.resume results w with
  | none => (t, results, [])
  | some (machine, effects) =>
    ({ t with machine }, results.record t.slot machine.result?, effects)

end NgapProcedures
