import NgapProcedures.Config.Engine
import NgapProcedures.Engine.Task
import NgapProcedures.Gateway
import NgapProcedures.Registry

/-! The engine owns every procedure instance of one session. This is its state, what is read off it,
and how it carries out the effects of a machine. -/

namespace NgapProcedures

structure Handle where
  id : ProcedureId
  /-- where the result is read -/
  slot : Nat
  deriving DecidableEq

structure NotReady where
  id : ProcedureId
  deriving DecidableEq

def NotReady.message (e : NotReady) : String :=
  "result of procedure " ++ e.id.text ++ " read before it was ready"

structure Engine (γ : Type) where
  config : EngineConfig
  ids : IdSource
  gateway : γ
  timers : TimerService
  /-- the one armed timer of a procedure -/
  armed : Table ProcedureId TimerId := ∅
  /-- events not yet drained -/
  log : List Event := []
  registry : Registry := {}
  tasks : Table ProcedureId Task := ∅
  /-- from a procedure to the one that waits for it -/
  parents : Table ProcedureId ProcedureId := ∅
  /-- wakes to be dispatched, the next one first -/
  wakes : List (ProcedureId × Wake) := []
  /-- set while the loss of the transport is cancelling instances -/
  tearingDown : Bool := false
  /-- how often the transactions bound to no entity were closed -/
  commonClosures : Nat := 0
  results : Results := ∅
  /-- instances started so far, which is the next free slot -/
  started : Nat := 0

namespace Engine

variable {γ : Type}

def new (gateway : γ) (ids : IdSource) (config : EngineConfig) : Engine γ :=
  { config, ids, gateway, timers := .new config.tick }

def now (e : Engine γ) : UInt64 := e.timers.now

def waitingFor? (e : Engine γ) (id : ProcedureId) : Option WaitingFor :=
  (e.tasks.get? id).map (·.machine.waitingFor)

/-- number of procedures that have not ended -/
def activeProcedures (e : Engine γ) : Nat :=
  e.tasks.entries.countP fun (_, t) => !t.machine.isTerminal

def isIdle (e : Engine γ) : Bool := e.activeProcedures == 0

def pendingTimers (e : Engine γ) : Nat := e.timers.pending

/-- the panic that a procedure has run into -/
def panic? (e : Engine γ) : Option Panic := e.tasks.values.findSome? (·.machine.panic?)

def result? (e : Engine γ) (h : Handle) : Option Result := e.results.get? h.slot

def ready (e : Engine γ) (h : Handle) : Bool := (e.result? h).isSome

def isCancelled (e : Engine γ) (h : Handle) : Bool :=
  match e.result? h with
  | some r => r.isCancelled
  | none => false

/-- the result of the handle's procedure; reading it too early is the caller's fault -/
def result (e : Engine γ) (h : Handle) : Except NotReady Result :=
  match e.result? h with
  | some r => .ok r
  | none => .error ⟨h.id⟩

def isLive (e : Engine γ) (id : ProcedureId) : Bool :=
  match e.tasks.get? id with
  | some t => !t.machine.isTerminal
  | none => false

def emit (e : Engine γ) (event : Event) : Engine γ := { e with log := e.log ++ [event] }

def wake (e : Engine γ) (id : ProcedureId) (w : Wake) : Engine γ :=
  { e with wakes := e.wakes ++ [(id, w)] }

def releaseTimer (e : Engine γ) (owner : ProcedureId) : Engine γ :=
  match e.armed.get? owner with
  | some timer => { e with
      armed := e.armed.erase owner
      timers := (e.timers.cancel timer).2 }
  | none => e

/-- arms a timer for the procedure, in place of the one it has -/
def armTimer (e : Engine γ) (owner : ProcedureId) (delay : Duration) : Engine γ :=
  let e := e.releaseTimer owner
  let (timer, timers) := e.timers.schedule owner delay
  { e with timers, armed := e.armed.insert owner timer }

/-- carries out an effect on behalf of a procedure. A message that the gateway refuses is lost
without further trace; the loss of the link itself is reported through `transportLost`. -/
def perform [Gateway γ] (e : Engine γ) (owner : ProcedureId) : Effect → Engine γ
  | .send message => { e with gateway := (Gateway.send e.gateway message).2 }
  | .startTimer delay => e.armTimer owner delay
  | .cancelTimer => e.releaseTimer owner
  | .cancelProcedure id => e.wake id .cancel
  | .emit event => e.emit event

def performAll [Gateway γ] (e : Engine γ) (owner : ProcedureId) (effects : List Effect) :
    Engine γ :=
  effects.foldl (fun e effect => e.perform owner effect) e

end Engine

end NgapProcedures
