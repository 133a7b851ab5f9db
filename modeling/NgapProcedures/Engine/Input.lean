import NgapProcedures.Engine.Launch

/-! What reaches a running engine: messages, ticks, the removal of an entity, and the loss of the
transport. Every input has run its course when it returns. -/

namespace NgapProcedures.Engine

variable {γ : Type} [Gateway γ]

/-- the first instance under the entity, in the order of names, that waits for the message -/
def recipient? (e : Engine γ) (m : PeerMessage) : Option ProcedureId :=
  (e.registry.ids m.entity).find? fun id =>
    match e.tasks.get? id with
    | some t => t.machine.expects (.message m.pdu)
    | none => false

def handleMessage (e : Engine γ) (m : PeerMessage) : Bool × Engine γ :=
  match e.recipient? m with
  | some id => (true, (e.wake id (.message m.pdu)).run)
  | none => (false, e)

/-- wakes the owner of a fired timer, if the timer is still the one armed for it -/
def expire (e : Engine γ) (timer : Timer) : Engine γ :=
  if e.armed.get? timer.owner = some timer.id then
    { e with armed := e.armed.erase timer.owner }.wake timer.owner .timerFired
  else e

def advance (e : Engine γ) : Engine γ :=
  let (fired, timers) := e.timers.advance
  (fired.foldl expire { e with timers }).run

def advanceBy (e : Engine γ) (ticks : UInt64) : Engine γ := ticks.toNat.repeat advance e

def remove (e : Engine γ) (entity : EntityId) : List ProcedureId × Engine γ :=
  let ids := e.registry.ids entity
  (ids, ids.foldl forget { e with registry := (e.registry.remove entity).2 })

def cancelEntity (e : Engine γ) (entity : EntityId) : Engine γ :=
  (e.registry.ids entity).foldl (fun e id => (e.cancel id).2) e

/-- cancels every registered instance, removes their entities and returns those in ascending order.
An entity whose instances ended by themselves while others were being cancelled is not among
them. -/
def transportLost (e : Engine γ) : List EntityId × Engine γ :=
  let entities := e.registry.entities
  let e := { entities.foldl cancelEntity { e with tearingDown := true } with tearingDown := false }
  let lost := entities.filter e.registry.contains
  let e := if lost.isEmpty then e else e.emit (.transactionsLost lost)
  let e := lost.foldl (fun e entity => (e.remove entity).2) e
  (lost, { e with commonClosures := e.commonClosures + 1 })

def drainEvents (e : Engine γ) : List Event × Engine γ := (e.log, { e with log := [] })

end NgapProcedures.Engine
