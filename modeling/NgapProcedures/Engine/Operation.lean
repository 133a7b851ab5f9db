import NgapProcedures.Engine.Input

/-! The operations of an engine as data, so that its histories can be spoken of. -/

namespace NgapProcedures

inductive Operation where
  | setup (request : ProcedureRequest NgSetupRequest)
  | update (request : ProcedureRequest RanConfigurationUpdate)
  | connect (controller : EntityId) (request : ProcedureRequest NgSetupRequest)
  | message (m : PeerMessage)
  | advance
  | advanceBy (ticks : UInt64)
  | cancel (id : ProcedureId)
  | remove (entity : EntityId)
  | transportLost
  | drainEvents

inductive Answer where
  | handle (h : Handle)
  | refused (error : LaunchError)
  | flag (done : Bool)
  | ids (ids : List ProcedureId)
  | entities (entities : List EntityId)
  | events (events : List Event)
  | done
  deriving DecidableEq

def Answer.ofLaunch : Except LaunchError Handle → Answer
  | .ok h => .handle h
  | .error error => .refused error

namespace Engine

variable {γ : Type} [Gateway γ]

def step (e : Engine γ) : Operation → Answer × Engine γ
  | .setup request =>
    let (launched, e) := e.launchSetup request
    (.ofLaunch launched, e)
  | .update request =>
    let (launched, e) := e.launchConfigUpdate request
    (.ofLaunch launched, e)
  | .connect controller request =>
    let (launched, e) := e.launchConnection controller request
    (.ofLaunch launched, e)
  | .message m =>
    let (delivered, e) := e.handleMessage m
    (.flag delivered, e)
  | .advance => (.done, e.advance)
  | .advanceBy ticks => (.done, e.advanceBy ticks)
  | .cancel id =>
    let (cancelled, e) := e.cancel id
    (.flag cancelled, e)
  | .remove entity =>
    let (ids, e) := e.remove entity
    (.ids ids, e)
  | .transportLost =>
    let (lost, e) := e.transportLost
    (.entities lost, e)
  | .drainEvents =>
    let (events, e) := e.drainEvents
    (.events events, e)

/-- an operation of a program with overflow checks -/
def step? (e : Engine γ) (operation : Operation) : Except Panic (Answer × Engine γ) :=
  Panic.check (e.step operation).2.panic? (e.step operation)

def after (e : Engine γ) (history : List Operation) : Engine γ :=
  history.foldl (fun e operation => (e.step operation).2) e

end Engine

end NgapProcedures
