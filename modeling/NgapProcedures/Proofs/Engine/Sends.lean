import NgapProcedures.Proofs.Engine.History

/-! Who sends what. A message is handed over by an effect of the instance that is being resumed, so
that every message of an operation has a sender, known by its slot. Every operation leaves its sending
to runs of the queue. -/

namespace NgapProcedures

namespace Engine

variable {γ : Type}

/-- the messages that the dispatch of a wake hands over, and the slot of the instance -/
def dispatchSends (e : Engine γ) (id : ProcedureId) (w : Wake) : List (Nat × PeerMessage) :=
  match e.tasks.get? id with
  | none => []
  | some t =>
    if t.machine.expects w then
      ((t.resume e.results w).2.2.filterMap Effect.message?).map (t.slot, ·)
    else []

def sendsAlong {α : Type} (f : Engine γ → α → Engine γ)
    (sends : Engine γ → α → List (Nat × PeerMessage)) (e : Engine γ) :
    List α → List (Nat × PeerMessage)
  | [] => []
  | a :: rest => sends e a ++ sendsAlong f sends (f e a) rest

theorem gateway_settle (e : Engine γ) (id : ProcedureId) (cancelled : Bool) :
    (e.settle id cancelled).gateway = e.gateway := by
  obtain ⟨tasks, armed, parents, timers, registry, wakes, he⟩ := e.exists_settle id cancelled
  rw [he]

theorem gateway_foldl_remove (e : Engine γ) (entities : List EntityId) :
    (entities.foldl (fun e entity => (e.remove entity).2) e).gateway = e.gateway := by
  obtain ⟨tasks, armed, parents, live, registry, he, -⟩ := foldl_remove entities e
  rw [he]

variable [Gateway γ]

def runSends (e : Engine γ) : List (Nat × PeerMessage) :=
  match _queued : e.wakes with
  | [] => []
  | (id, w) :: rest =>
    { e with wakes := rest }.dispatchSends id w ++
      runSends ({ e with wakes := rest }.dispatch id w)
termination_by e.work
decreasing_by
  have := work_dispatch_le { e with wakes := rest } id w
  simp only [work, activeProcedures, _queued, List.length_cons] at this ⊢
  omega

def launchRetrySends (e : Engine γ) (entity : EntityId) (kind : Kind)
    (machine : ProcedureId → Machine) : List (Nat × PeerMessage) :=
  match e.allocateId with
  | (.error _, _) => []
  | (.ok id, e) =>
    if e.isActive entity kind then []
    else
      match e.registry.register entity id with
      | .error _ => []
      | .ok registry => ({ e with registry }.start (machine id)).2.runSends

def launchSetupSends (e : Engine γ) (request : ProcedureRequest NgSetupRequest) :
    List (Nat × PeerMessage) :=
  e.launchRetrySends request.entity ngSetup.kind fun id => .setup (.new id request)

def launchConfigUpdateSends (e : Engine γ) (request : ProcedureRequest RanConfigurationUpdate) :
    List (Nat × PeerMessage) :=
  e.launchRetrySends request.entity ranConfigurationUpdate.kind fun id => .update (.new id request)

def cancelSends (e : Engine γ) (id : ProcedureId) : List (Nat × PeerMessage) :=
  if e.isLive id then (e.wake id .cancel).runSends else []

def launchConnectionSends (e : Engine γ) (controller : EntityId)
    (request : ProcedureRequest NgSetupRequest) : List (Nat × PeerMessage) :=
  if e.isActive controller .amfConnection then []
  else
    e.launchSetupSends request ++
      match e.launchSetup request with
      | (.error _, _) => []
      | (.ok setup, e) =>
        match e.allocateId with
        | (.error _, e) => e.cancelSends setup.id
        | (.ok id, e) =>
          match e.registry.register controller id with
          | .error _ => e.cancelSends setup.id
          | .ok registry =>
            let e := { e with registry, parents := e.parents.insert setup.id id }
            let e := (e.start (.connection ⟨id, controller, request.entity, setup.id,
              .created, none⟩ setup.slot)).2
            let e := if e.ready setup then e.wake id (.procedureDone setup.id) else e
            e.runSends

def handleMessageSends (e : Engine γ) (m : PeerMessage) : List (Nat × PeerMessage) :=
  match e.recipient? m with
  | some id => (e.wake id (.message m.pdu)).runSends
  | none => []

def advanceSends (e : Engine γ) : List (Nat × PeerMessage) :=
  (e.timers.advance.1.foldl expire { e with timers := e.timers.advance.2 }).runSends

def cancelEntitySends (e : Engine γ) (entity : EntityId) : List (Nat × PeerMessage) :=
  sendsAlong (fun e id => (e.cancel id).2) cancelSends e (e.registry.ids entity)

/-- the messages that an operation hands over, each with the slot of its sender -/
def sends (e : Engine γ) : Operation → List (Nat × PeerMessage)
  | .setup request => e.launchSetupSends request
  | .update request => e.launchConfigUpdateSends request
  | .connect controller request => e.launchConnectionSends controller request
  | .message m => e.handleMessageSends m
  | .advance => e.advanceSends
  | .advanceBy ticks =>
    sendsAlong (fun e _ => e.advance) (fun e _ => e.advanceSends) e (List.replicate ticks.toNat ())
  | .cancel id => e.cancelSends id
  | .remove _ => []
  | .transportLost =>
    sendsAlong cancelEntity cancelEntitySends { e with tearingDown := true } e.registry.entities
  | .drainEvents => []

/-- the messages handed over in a history -/
def sendsDuring (e : Engine γ) (history : List Operation) : List (Nat × PeerMessage) :=
  sendsAlong (fun e op => (e.step op).2) sends e history

theorem sendAll_append (gateway : γ) (a b : List PeerMessage) :
    sendAll gateway (a ++ b) = sendAll (sendAll gateway a) b :=
  List.foldl_append ..

theorem gateway_performAll (e : Engine γ) (owner : ProcedureId) (effects : List Effect) :
    (e.performAll owner effects).gateway =
      sendAll e.gateway (effects.filterMap Effect.message?) := by
  unfold performAll
  induction effects generalizing e with
  | nil => rfl
  | cons effect rest ih =>
    rw [List.foldl_cons, ih]
    cases effect <;>
      simp [perform, List.filterMap_cons, Effect.message?, sendAll, armTimer, releaseTimer_eq, wake,
        emit]

theorem gateway_dispatch (e : Engine γ) (id : ProcedureId) (w : Wake) :
    (e.dispatch id w).gateway = sendAll e.gateway ((e.dispatchSends id w).map (·.2)) := by
  unfold dispatch dispatchSends
  cases e.tasks.get? id with
  | none => rfl
  | some t =>
    dsimp only
    split
    · split
      · simp [gateway_settle, gateway_performAll, Function.comp_def]
      · simp [gateway_performAll, Function.comp_def]
    · rfl

theorem runSends_of_wakes_nil {e : Engine γ} (h : e.wakes = []) : e.runSends = [] := by
  unfold runSends
  split
  · rfl
  · simp_all

theorem runSends_of_wakes_cons {e : Engine γ} {id : ProcedureId} {w : Wake}
    {rest : List (ProcedureId × Wake)} (h : e.wakes = (id, w) :: rest) :
    e.runSends = { e with wakes := rest }.dispatchSends id w ++
      ({ e with wakes := rest }.dispatch id w).runSends := by
  rw [runSends]
  split
  · simp_all
  · next id' w' rest' h' =>
    rw [h] at h'
    simp only [List.cons.injEq, Prod.mk.injEq] at h'
    obtain ⟨⟨rfl, rfl⟩, rfl⟩ := h'
    rfl

theorem gateway_run (e : Engine γ) :
    e.run.gateway = sendAll e.gateway (e.runSends.map (·.2)) := by
  induction e using run.induct with
  | case1 e hnil =>
    rw [run_of_wakes_nil hnil, runSends_of_wakes_nil hnil]
    rfl
  | case2 e id w rest hcons ih =>
    rw [run_of_wakes_cons hcons, runSends_of_wakes_cons hcons, ih, gateway_dispatch,
      List.map_append, sendAll_append]

theorem gateway_sendsAlong {α : Type} {f : Engine γ → α → Engine γ}
    {sends : Engine γ → α → List (Nat × PeerMessage)}
    (h : ∀ e a, (f e a).gateway = sendAll e.gateway ((sends e a).map (·.2))) (e : Engine γ)
    (l : List α) :
    (l.foldl f e).gateway = sendAll e.gateway ((sendsAlong f sends e l).map (·.2)) := by
  induction l generalizing e with
  | nil => rfl
  | cons a rest ih =>
    rw [List.foldl_cons, ih, h, sendsAlong, List.map_append, sendAll_append]

theorem gateway_launchRetry (e : Engine γ) (entity : EntityId) (kind : Kind)
    (machine : ProcedureId → Machine) : (e.launchRetry entity kind machine).2.gateway =
      sendAll e.gateway ((e.launchRetrySends entity kind machine).map (·.2)) := by
  unfold launchRetry launchRetrySends allocateId
  cases hc : e.tasks.contains e.ids.draw.1 with
  | true => simp [hc, sendAll]
  | false =>
    cases hi : ({ e with ids := e.ids.draw.2 }).isActive entity kind with
    | true => simp [hc, hi, sendAll]
    | false =>
      cases hr : e.registry.register entity e.ids.draw.1 with
      | error error => simp [hc, hi, hr, sendAll]
      | ok registry =>
        simp only [hc, hi, hr, Bool.false_eq_true, ↓reduceIte]
        exact gateway_run _

theorem gateway_cancel (e : Engine γ) (id : ProcedureId) :
    (e.cancel id).2.gateway = sendAll e.gateway ((e.cancelSends id).map (·.2)) := by
  unfold cancel cancelSends
  split
  · exact gateway_run _
  · rfl

theorem gateway_launchConnection (e : Engine γ) (controller : EntityId)
    (request : ProcedureRequest NgSetupRequest) : (e.launchConnection controller request).2.gateway =
      sendAll e.gateway ((e.launchConnectionSends controller request).map (·.2)) := by
  have hsetup : (e.launchSetup request).2.gateway =
      sendAll e.gateway ((e.launchSetupSends request).map (·.2)) := gateway_launchRetry ..
  unfold launchConnection launchConnectionSends
  cases e.isActive controller .amfConnection with
  | true => rfl
  | false =>
    simp only [Bool.false_eq_true, ↓reduceIte, List.map_append, sendAll_append, ← hsetup]
    rcases e.launchSetup request with ⟨error | setup, e'⟩
    · rfl
    · dsimp only
      rcases hal : e'.allocateId with ⟨error | id, e''⟩
      · have hsame : e''.gateway = e'.gateway := by rw [← (Prod.mk.inj hal).2]
        dsimp only
        rw [gateway_cancel, hsame]
      · have hsame : e''.gateway = e'.gateway := by rw [← (Prod.mk.inj hal).2]
        dsimp only
        cases e''.registry.register controller id with
        | error error =>
          dsimp only
          rw [gateway_cancel, hsame]
        | ok registry =>
          dsimp only
          rw [gateway_run, ← hsame]
          split <;> rfl

theorem gateway_advance (e : Engine γ) :
    e.advance.gateway = sendAll e.gateway (e.advanceSends.map (·.2)) := by
  obtain ⟨armed, he, -⟩ := foldl_expire e.timers.advance.1 { e with timers := e.timers.advance.2 }
  have hadvance : e.advance =
      (e.timers.advance.1.foldl expire { e with timers := e.timers.advance.2 }).run := rfl
  rw [hadvance, gateway_run, advanceSends, he]

theorem advanceBy_eq_foldl (e : Engine γ) (ticks : UInt64) :
    e.advanceBy ticks = (List.replicate ticks.toNat ()).foldl (fun e _ => e.advance) e := by
  rw [advanceBy_eq, after]
  generalize ticks.toNat = n
  induction n generalizing e with
  | zero => rfl
  | succ n ih => exact ih e.advance

/-- The gateway has taken the messages of an operation, in their order, and nothing else. -/
theorem gateway_step (e : Engine γ) (op : Operation) :
    (e.step op).2.gateway = sendAll e.gateway ((e.sends op).map (·.2)) := by
  cases op with
  | setup request => exact gateway_launchRetry ..
  | update request => exact gateway_launchRetry ..
  | connect controller request => exact gateway_launchConnection ..
  | message m =>
    simp only [step, handleMessage, sends, handleMessageSends]
    cases e.recipient? m with
    | none => rfl
    | some id => exact gateway_run _
  | advance => exact gateway_advance e
  | advanceBy ticks =>
    exact (congrArg Engine.gateway (e.advanceBy_eq_foldl ticks)).trans
      (gateway_sendsAlong (fun e _ => gateway_advance e) e _)
  | cancel id => exact gateway_cancel e id
  | remove entity => exact gateway_foldl_remove e [entity]
  | transportLost =>
    have hentity (e : Engine γ) (entity : EntityId) : (e.cancelEntity entity).gateway =
        sendAll e.gateway ((e.cancelEntitySends entity).map (·.2)) :=
      gateway_sendsAlong gateway_cancel e _
    refine Eq.trans ?_ (gateway_sendsAlong hentity { e with tearingDown := true }
      e.registry.entities)
    simp only [step, transportLost, gateway_foldl_remove]
    split <;> rfl
  | drainEvents => rfl

theorem gateway_after (e : Engine γ) (history : List Operation) :
    (e.after history).gateway = sendAll e.gateway ((e.sendsDuring history).map (·.2)) :=
  gateway_sendsAlong gateway_step e history

end Engine

end NgapProcedures
