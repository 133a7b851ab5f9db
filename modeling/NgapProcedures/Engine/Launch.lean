import NgapProcedures.Engine.Dispatch

/-! Launching procedures. A launch sends the first request before it returns; a refused launch says
why. -/

namespace NgapProcedures

inductive LaunchError where
  | registry (error : RegistryError)
  | duplicateId (id : ProcedureId)
  | alreadyActive (entity : EntityId) (kind : Kind)
  deriving DecidableEq

def LaunchError.message : LaunchError → String
  | registry error => "registry error: " ++ error.message
  | duplicateId id => "procedure id already in use: " ++ id.text
  | alreadyActive entity kind => kind.name ++ " already active for " ++ entity.text

structure EffectError where
  gateway : GatewayError
  deriving DecidableEq

def EffectError.message (e : EffectError) : String := "gateway error: " ++ e.gateway.message

namespace Engine

variable {γ : Type}

def setupRequest (e : Engine γ) (entity : EntityId) (message : NgSetupRequest) :
    ProcedureRequest NgSetupRequest :=
  ⟨entity, message, e.config.maxSetupRetries⟩

def configUpdateRequest (e : Engine γ) (entity : EntityId) (message : RanConfigurationUpdate) :
    ProcedureRequest RanConfigurationUpdate :=
  ⟨entity, message, e.config.maxConfigUpdateRetries⟩

/-- a fresh name, unless it belongs to an instance that is known -/
def allocateId (e : Engine γ) : Except LaunchError ProcedureId × Engine γ :=
  let (id, ids) := e.ids.draw
  (if e.tasks.contains id then .error (.duplicateId id) else .ok id, { e with ids })

def isActive (e : Engine γ) (entity : EntityId) (kind : Kind) : Bool :=
  (e.registry.ids entity).any fun id =>
    match e.tasks.get? id with
    | some t => t.machine.kind == kind && !t.machine.isTerminal
    | none => false

def start (e : Engine γ) (machine : Machine) : Handle × Engine γ :=
  let e' := { e with
    tasks := e.tasks.insert machine.id ⟨machine, e.started⟩
    started := e.started + 1 }
  (⟨machine.id, e.started⟩,
    (e'.emit (.procedureLaunched machine.id machine.kind.name machine.entity)).wake
      machine.id .launch)

section

variable [Gateway γ]

/-- launches the machine made for a fresh name, if the entity has no live procedure of its kind -/
def launchRetry (e : Engine γ) (entity : EntityId) (kind : Kind)
    (machine : ProcedureId → Machine) : Except LaunchError Handle × Engine γ :=
  match e.allocateId with
  | (.error error, e) => (.error error, e)
  | (.ok id, e) =>
    if e.isActive entity kind then (.error (.alreadyActive entity kind), e)
    else
      match e.registry.register entity id with
      | .error error => (.error (.registry error), e)
      | .ok registry =>
        let (handle, e) := { e with registry }.start (machine id)
        (.ok handle, e.run)

def launchSetup (e : Engine γ) (request : ProcedureRequest NgSetupRequest) :
    Except LaunchError Handle × Engine γ :=
  e.launchRetry request.entity ngSetup.kind fun id => .setup (.new id request)

def launchConfigUpdate (e : Engine γ) (request : ProcedureRequest RanConfigurationUpdate) :
    Except LaunchError Handle × Engine γ :=
  e.launchRetry request.entity ranConfigurationUpdate.kind fun id => .update (.new id request)

def cancel (e : Engine γ) (id : ProcedureId) : Bool × Engine γ :=
  if e.isLive id then (true, (e.wake id .cancel).run) else (false, e)

/-- starts an NG Setup against the request's entity, and under the controller a connection that
waits for it. The setup is cancelled again if the connection cannot follow. -/
def launchConnection (e : Engine γ) (controller : EntityId)
    (request : ProcedureRequest NgSetupRequest) : Except LaunchError Handle × Engine γ :=
  if e.isActive controller .amfConnection then
    (.error (.alreadyActive controller .amfConnection), e)
  else
    match e.launchSetup request with
    | (.error error, e) => (.error error, e)
    | (.ok setup, e) =>
      match e.allocateId with
      | (.error error, e) => (.error error, (e.cancel setup.id).2)
      | (.ok id, e) =>
        match e.registry.register controller id with
        | .error error => (.error (.registry error), (e.cancel setup.id).2)
        | .ok registry =>
          let e := { e with registry, parents := e.parents.insert setup.id id }
          let (handle, e) := e.start (.connection ⟨id, controller, request.entity, setup.id,
            .created, none⟩ setup.slot)
          let e := if e.ready setup then e.wake id (.procedureDone setup.id) else e
          (.ok handle, e.run)

end

end Engine

end NgapProcedures
