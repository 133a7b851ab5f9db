import NgapProcedures.Config.Daemon
import NgapProcedures.Engine.Operation
import NgapProcedures.Pacer

/-! The daemon: an engine that connects to a scripted AMF over a channel, paced by a clock, and the
report it ends with. -/

namespace NgapProcedures

inductive DaemonError where
  | config (error : ConfigError)
  /-- there is no directory for the log -/
  | noStateDirectory
  | file (error : FileError)
  | launch (error : LaunchError)
  deriving DecidableEq

def DaemonError.message : DaemonError → String
  | config error => "Config error: " ++ error.message
  | noStateDirectory => "Could not determine state directory"
  | file error => "IO error: " ++ error.message
  | launch error => "Launch failed: " ++ error.message

inductive ReportOutcome where
  | connected | failed | cancelled | pending
  deriving DecidableEq

structure Report where
  outcome : ReportOutcome
  amfName : Option String := none
  reason : Option String := none
  /-- logical ticks that went by -/
  ticks : UInt64
  /-- requests sent, repeated ones included -/
  setupRequests : UInt32
  /-- entities whose transactions were torn down at the end -/
  lost : List String
  deriving DecidableEq

structure Daemon where
  engine : Engine (TracedGateway ChannelGateway)
  connection : Handle
  /-- replies of the peer that wait to be delivered -/
  inbound : List PeerMessage := []
  pacer : TickPacer
  setupRequests : UInt32 := 0
  peer : PeerService

namespace Daemon

/-- counts the requests among the logged events, and empties the log -/
def tally (d : Daemon) : Daemon :=
  let (events, engine) := d.engine.drainEvents
  { d with
    engine
    setupRequests := events.foldl
      (fun n event => if event matches .requestSent .. then n + 1 else n) d.setupRequests }

def startup (config : DaemonConfig) (ids : IdSource) (reading : Duration) :
    Except DaemonError Daemon :=
  let engine := Engine.new (⟨{}⟩ : TracedGateway ChannelGateway) ids config.engine
  match engine.launchConnection config.controller
      (engine.setupRequest config.amf config.setupMessage) with
  | (.error error, _) => .error (.launch error)
  | (.ok connection, engine) => .ok (tally {
      engine, connection
      pacer := .new reading config.engine.tick
      peer := { amf := { script := config.peer } } })

def deliver (d : Daemon) (m : PeerMessage) : Daemon :=
  tally { d with engine := (d.engine.handleMessage m).2 }

/-- catches up with the clock: the ticks that were due -/
def tick (d : Daemon) (reading : Duration) : UInt64 × Daemon :=
  let (due, pacer) := d.pacer.due reading
  let d := { d with pacer }
  (due, if due = 0 then d else tally { d with engine := d.engine.advanceBy due })

def tickLength (d : Daemon) : Duration := d.pacer.tick

def settled (d : Daemon) : Bool := d.engine.ready d.connection

def servePeer (d : Daemon) : Daemon :=
  let (requests, gateway) := d.engine.gateway.inner.receive
  let d := { d with engine := { d.engine with gateway := ⟨gateway⟩ } }
  requests.foldl (fun d request =>
    let (_, reply, peer) := d.peer.serve request
    { d with peer, inbound := d.inbound ++ reply.toList }) d

/-- the peer gets its turn, then the first reply that waits is delivered -/
def pump (d : Daemon) : Option PeerMessage × Daemon :=
  let d := d.servePeer
  match d.inbound with
  | [] => (none, d)
  | m :: rest => (some m, { d with inbound := rest }.deliver m)

def report (d : Daemon) (lost : List EntityId) : Report :=
  let (outcome, amfName, reason) : ReportOutcome × Option String × Option String :=
    match d.engine.result? d.connection with
    | some (.connection (.success name)) => (.connected, some name, none)
    | some (.connection (.failure failure)) => (.failed, none, some failure.message)
    | some (.connection .cancelled) => (.cancelled, none, none)
    | _ => (.pending, none, none)
  { outcome, amfName, reason
    ticks := d.engine.now
    setupRequests := d.setupRequests
    lost := lost.map (·.text) }

/-- tears down what is outstanding, and reports -/
def shutdown (d : Daemon) : Report :=
  let (lost, engine) := d.engine.transportLost
  (tally { d with engine }).report lost

end Daemon

structure Session where
  daemon : Daemon
  clock : Duration

inductive SessionInput where
  | clock (elapsed : Duration)
  | tick
  | deliver (m : PeerMessage)
  | pump

namespace Session

def start (config : DaemonConfig) (ids : IdSource) : Except DaemonError Session :=
  (Daemon.startup config ids .zero).map fun daemon => ⟨daemon, .zero⟩

def step (s : Session) : SessionInput → Session
  | .clock d => { s with clock := s.clock + d }
  | .tick => { s with daemon := (s.daemon.tick s.clock).2 }
  | .deliver m => { s with daemon := s.daemon.deliver m }
  | .pump => { s with daemon := s.daemon.pump.2 }

def after (s : Session) (inputs : List SessionInput) : Session := inputs.foldl step s

end Session

end NgapProcedures
