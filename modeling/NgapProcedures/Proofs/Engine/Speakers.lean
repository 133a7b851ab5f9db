import NgapProcedures.Proofs.Engine.Announcements

/-! Who tells what. An event is logged by an effect of the instance that is being resumed, when an
instance is launched, or by the engine itself once the transport is lost, so that every event of an
operation has a speaker, known by its slot. A slot whose instance is gone never tells anything
again. -/

namespace NgapProcedures

/-- events in turn, each with the slot of the instance that tells it; the engine has none -/
abbrev Tellings := List (Option Nat × Event)

def toldBy (slot : Nat) (tellings : Tellings) : List Event :=
  tellings.filterMap fun x => if x.1 = some slot then some x.2 else none

theorem toldBy_append (slot : Nat) (a b : Tellings) :
    toldBy slot (a ++ b) = toldBy slot a ++ toldBy slot b :=
  List.filterMap_append ..

theorem toldBy_eq_nil {slot : Nat} {tellings : Tellings} (h : ∀ x ∈ tellings, x.1 ≠ some slot) :
    toldBy slot tellings = [] :=
  List.filterMap_eq_nil_iff.2 fun x hx => if_neg (h x hx)

namespace Engine

variable {γ : Type}

/-- what the dispatch of a wake logs -/
def dispatchTells (e : Engine γ) (id : ProcedureId) (w : Wake) : Tellings :=
  match e.tasks.get? id with
  | none => []
  | some t =>
    if t.machine.expects w then
      ((t.resume e.results w).2.2.filterMap Effect.event?).map (some t.slot, ·)
    else []

def startTells (e : Engine γ) (m : Machine) : Tellings :=
  [(some e.started, .procedureLaunched m.id m.kind.name m.entity)]

def tellsAlong {α : Type} (f : Engine γ → α → Engine γ) (tells : Engine γ → α → Tellings)
    (e : Engine γ) : List α → Tellings
  | [] => []
  | a :: rest => tells e a ++ tellsAlong f tells (f e a) rest

structure Retired (e : Engine γ) (slot : Nat) : Prop where
  issued : slot < e.started
  unoccupied : ∀ {q u}, e.tasks.get? q = some u → u.slot ≠ slot

structure Speaks (e e' : Engine γ) (tellings : Tellings) : Prop where
  log : e'.log = e.log ++ tellings.map (·.2)
  retired : ∀ {slot}, e.Retired slot → e'.Retired slot ∧ toldBy slot tellings = []

section

variable {e e' e'' : Engine γ} {tellings tellings' : Tellings}

/-- nothing is logged, and nobody comes in -/
theorem Speaks.of_subset (hlog : e'.log = e.log) (hstarted : e'.started = e.started)
    (ht : ∀ {id t}, e'.tasks.get? id = some t → e.tasks.get? id = some t) : Speaks e e' [] where
  log := by rw [hlog, List.map_nil, List.append_nil]
  retired h := ⟨⟨hstarted ▸ h.issued, fun hq => h.unoccupied (ht hq)⟩, rfl⟩

theorem Speaks.refl (e : Engine γ) : Speaks e e [] :=
  .of_subset rfl rfl fun hq => hq

theorem Speaks.trans (h : Speaks e e' tellings) (h' : Speaks e' e'' tellings') :
    Speaks e e'' (tellings ++ tellings') where
  log := by rw [h'.log, h.log, List.map_append, List.append_assoc]
  retired hr := by
    obtain ⟨hr', hmute⟩ := h.retired hr
    obtain ⟨hr'', hmute'⟩ := h'.retired hr'
    exact ⟨hr'', by rw [toldBy_append, hmute, hmute']; rfl⟩

theorem speaks_along {α : Type} {f : Engine γ → α → Engine γ} {tells : Engine γ → α → Tellings}
    (hf : ∀ e a, Speaks e (f e a) (tells e a)) (e : Engine γ) (l : List α) :
    Speaks e (l.foldl f e) (tellsAlong f tells e l) := by
  induction l generalizing e with
  | nil => exact .refl e
  | cons a rest ih => exact (hf e a).trans (ih (f e a))

theorem speaks_start (e : Engine γ) (m : Machine) : Speaks e (e.start m).2 (e.startTells m) where
  log := rfl
  retired {slot} h := by
    refine ⟨⟨Nat.lt_succ_of_lt h.issued, fun {q u} hq => ?_⟩, toldBy_eq_nil fun x hx => ?_⟩
    · rcases get?_tasks_start hq with ⟨-, rfl⟩ | ⟨-, hq⟩
      · exact Nat.ne_of_gt h.issued
      · exact h.unoccupied hq
    · obtain rfl := List.mem_singleton.1 hx
      simpa using Nat.ne_of_gt h.issued

theorem speaks_allocateId {drawn : Except LaunchError ProcedureId} (hal : e.allocateId = (drawn, e')) :
    Speaks e e' [] := by
  rw [← (Prod.mk.inj hal).2]
  exact .of_subset rfl rfl fun hq => hq

theorem speaks_settle (e : Engine γ) (id : ProcedureId) (cancelled : Bool) :
    Speaks e (e.settle id cancelled) [] := by
  refine .of_subset (log_settle ..) ?_ get?_settle
  obtain ⟨tasks, armed, parents, timers, registry, wakes, he⟩ := e.exists_settle id cancelled
  rw [he]

theorem speaks_removes (e : Engine γ) (entities : List EntityId) :
    Speaks e (entities.foldl (fun e entity => (e.remove entity).2) e) [] := by
  obtain ⟨tasks, armed, parents, live, registry, he, -, ht, -⟩ := foldl_remove entities e
  refine .of_subset (log_foldl_remove e entities) (by rw [he]) fun {q t} hq => ?_
  rw [he] at hq
  exact (ht q t hq).1

end

variable [Gateway γ]

def runTells (e : Engine γ) : Tellings :=
  match _queued : e.wakes with
  | [] => []
  | (id, w) :: rest =>
    { e with wakes := rest }.dispatchTells id w ++
      runTells ({ e with wakes := rest }.dispatch id w)
termination_by e.work
decreasing_by
  have := work_dispatch_le { e with wakes := rest } id w
  simp only [work, activeProcedures, _queued, List.length_cons] at this ⊢
  omega

def launchRetryTells (e : Engine γ) (entity : EntityId) (kind : Kind)
    (machine : ProcedureId → Machine) : Tellings :=
  match e.allocateId with
  | (.error _, _) => []
  | (.ok id, e) =>
    if e.isActive entity kind then []
    else
      match e.registry.register entity id with
      | .error _ => []
      | .ok registry =>
        let e := { e with registry }
        e.startTells (machine id) ++ (e.start (machine id)).2.runTells

def launchSetupTells (e : Engine γ) (request : ProcedureRequest NgSetupRequest) : Tellings :=
  e.launchRetryTells request.entity ngSetup.kind fun id => .setup (.new id request)

def launchConfigUpdateTells (e : Engine γ) (request : ProcedureRequest RanConfigurationUpdate) :
    Tellings :=
  e.launchRetryTells request.entity ranConfigurationUpdate.kind fun id => .update (.new id request)

def cancelTells (e : Engine γ) (id : ProcedureId) : Tellings :=
  if e.isLive id then (e.wake id .cancel).runTells else []

def launchConnectionTells (e : Engine γ) (controller : EntityId)
    (request : ProcedureRequest NgSetupRequest) : Tellings :=
  if e.isActive controller .amfConnection then []
  else
    e.launchSetupTells request ++
      match e.launchSetup request with
      | (.error _, _) => []
      | (.ok setup, e) =>
        match e.allocateId with
        | (.error _, e) => e.cancelTells setup.id
        | (.ok id, e) =>
          match e.registry.register controller id with
          | .error _ => e.cancelTells setup.id
          | .ok registry =>
            let e := { e with registry, parents := e.parents.insert setup.id id }
            let m := .connection ⟨id, controller, request.entity, setup.id, .created, none⟩ setup.slot
            let e' := (e.start m).2
            let e' := if e'.ready setup then e'.wake id (.procedureDone setup.id) else e'
            e.startTells m ++ e'.runTells

def handleMessageTells (e : Engine γ) (m : PeerMessage) : Tellings :=
  match e.recipient? m with
  | some id => (e.wake id (.message m.pdu)).runTells
  | none => []

def advanceTells (e : Engine γ) : Tellings :=
  (e.timers.advance.1.foldl expire { e with timers := e.timers.advance.2 }).runTells

def cancelEntityTells (e : Engine γ) (entity : EntityId) : Tellings :=
  tellsAlong (fun e id => (e.cancel id).2) cancelTells e (e.registry.ids entity)

def transportLostTells (e : Engine γ) : Tellings :=
  let entities := e.registry.entities
  let down := { e with tearingDown := true }
  let lost := entities.filter (entities.foldl cancelEntity down).registry.contains
  tellsAlong cancelEntity cancelEntityTells down entities ++
    if lost.isEmpty then [] else [(none, .transactionsLost lost)]

/-- what an operation logs, each event with the slot of its speaker -/
def tells (e : Engine γ) : Operation → Tellings
  | .setup request => e.launchSetupTells request
  | .update request => e.launchConfigUpdateTells request
  | .connect controller request => e.launchConnectionTells controller request
  | .message m => e.handleMessageTells m
  | .advance => e.advanceTells
  | .advanceBy ticks =>
    tellsAlong (fun e _ => e.advance) (fun e _ => e.advanceTells) e (List.replicate ticks.toNat ())
  | .cancel id => e.cancelTells id
  | .remove _ => []
  | .transportLost => e.transportLostTells
  | .drainEvents => []

/-- what is logged in a history -/
def tellsDuring (e : Engine γ) (history : List Operation) : Tellings :=
  tellsAlong (fun e op => (e.step op).2) tells e history

section

variable {e : Engine γ}

theorem performAll_eq {β : Type} {f : Engine γ → β} {owner : ProcedureId}
    (hf : ∀ (e : Engine γ) effect, f (e.perform owner effect) = f e) (e : Engine γ)
    (effects : List Effect) : f (e.performAll owner effects) = f e := by
  unfold performAll
  induction effects generalizing e with
  | nil => rfl
  | cons effect rest ih => exact (ih (e.perform owner effect)).trans (hf e effect)

theorem started_performAll (e : Engine γ) (owner : ProcedureId) (effects : List Effect) :
    (e.performAll owner effects).started = e.started := by
  refine performAll_eq (f := fun e => e.started) (fun e effect => ?_) e effects
  cases effect <;> simp [perform, armTimer, releaseTimer_eq, wake, emit]

/-- whoever is resumed speaks for itself -/
theorem speaks_dispatch (e : Engine γ) (id : ProcedureId) (w : Wake) :
    Speaks e (e.dispatch id w) (e.dispatchTells id w) := by
  unfold dispatch dispatchTells
  cases ht : e.tasks.get? id with
  | none => exact .refl e
  | some t =>
    dsimp only
    split
    · have hslot : (t.resume e.results w).1.slot = t.slot := by
        unfold Task.resume
        split <;> rfl
      generalize t.resume e.results w = r at hslot ⊢
      obtain ⟨t', results, effects⟩ := r
      dsimp only at hslot ⊢
      have hperformed : Speaks e
          (performAll { e with tasks := e.tasks.insert id t', results } id effects)
          ((effects.filterMap Effect.event?).map (some t.slot, ·)) := by
        constructor
        case log => simp [log_performAll, Function.comp_def]
        case retired =>
          intro slot h
          refine ⟨⟨?_, fun {q u} hq => ?_⟩, toldBy_eq_nil fun x hx => ?_⟩
          · rw [started_performAll]
            exact h.issued
          · rw [performAll_tasks] at hq
            rcases Table.get?_insert_eq_some_iff.1 hq with ⟨-, rfl⟩ | ⟨-, hq⟩
            · exact hslot ▸ h.unoccupied ht
            · exact h.unoccupied hq
          · obtain ⟨event, -, rfl⟩ := List.mem_map.1 hx
            simpa using h.unoccupied ht
      split
      · have := hperformed.trans (speaks_settle _ id t'.machine.isCancelled)
        rwa [List.append_nil] at this
      · exact hperformed
    · exact .refl e

theorem runTells_of_wakes_nil (h : e.wakes = []) : e.runTells = [] := by
  unfold runTells
  split
  · rfl
  · simp_all

theorem runTells_of_wakes_cons {id : ProcedureId} {w : Wake} {rest : List (ProcedureId × Wake)}
    (h : e.wakes = (id, w) :: rest) :
    e.runTells = { e with wakes := rest }.dispatchTells id w ++
      ({ e with wakes := rest }.dispatch id w).runTells := by
  rw [runTells]
  split
  · simp_all
  · next id' w' rest' h' =>
    rw [h] at h'
    simp only [List.cons.injEq, Prod.mk.injEq] at h'
    obtain ⟨⟨rfl, rfl⟩, rfl⟩ := h'
    rfl

theorem speaks_run (e : Engine γ) : Speaks e e.run e.runTells := by
  induction e using run.induct with
  | case1 e hnil =>
    rw [run_of_wakes_nil hnil, runTells_of_wakes_nil hnil]
    exact .refl e
  | case2 e id w rest hcons ih =>
    rw [run_of_wakes_cons hcons, runTells_of_wakes_cons hcons]
    have hnext : Speaks e { e with wakes := rest } [] := .of_subset rfl rfl fun hq => hq
    exact hnext.trans ((speaks_dispatch { e with wakes := rest } id w).trans ih)

theorem speaks_wake (e : Engine γ) (id : ProcedureId) (w : Wake) :
    Speaks e (e.wake id w).run (e.wake id w).runTells := by
  have hqueued : Speaks e (e.wake id w) [] := .of_subset rfl rfl fun hq => hq
  exact hqueued.trans (speaks_run _)

theorem speaks_cancel (e : Engine γ) (id : ProcedureId) :
    Speaks e (e.cancel id).2 (e.cancelTells id) := by
  unfold cancel cancelTells
  split
  · exact speaks_wake e id .cancel
  · exact .refl e

theorem speaks_launchRetry (e : Engine γ) (entity : EntityId) (kind : Kind)
    (machine : ProcedureId → Machine) :
    Speaks e (e.launchRetry entity kind machine).2 (e.launchRetryTells entity kind machine) := by
  unfold launchRetry launchRetryTells
  rcases hal : e.allocateId with ⟨error | id, e₁⟩
  all_goals have hdrawn : Speaks e e₁ [] := speaks_allocateId hal
  · exact hdrawn
  · dsimp only
    split
    · exact hdrawn
    · cases e₁.registry.register entity id with
      | error error => exact hdrawn
      | ok registry =>
        have hregistered : Speaks e₁ { e₁ with registry } [] := .of_subset rfl rfl fun hq => hq
        exact hdrawn.trans (hregistered.trans
          ((speaks_start { e₁ with registry } (machine id)).trans (speaks_run _)))

theorem speaks_launchConnection (e : Engine γ) (controller : EntityId)
    (request : ProcedureRequest NgSetupRequest) :
    Speaks e (e.launchConnection controller request).2
      (e.launchConnectionTells controller request) := by
  have hsetup : Speaks e (e.launchSetup request).2 (e.launchSetupTells request) :=
    speaks_launchRetry ..
  unfold launchConnection launchConnectionTells
  split
  · exact .refl e
  · generalize e.launchSetup request = launched at hsetup ⊢
    rcases launched with ⟨error | setup, e₁⟩
    · simpa using hsetup
    · refine hsetup.trans ?_
      dsimp only
      rcases hal : e₁.allocateId with ⟨error | id, e₂⟩
      all_goals have hdrawn : Speaks e₁ e₂ [] := speaks_allocateId hal
      · exact hdrawn.trans (speaks_cancel e₂ setup.id)
      · refine hdrawn.trans ?_
        dsimp only
        cases e₂.registry.register controller id with
        | error error => exact speaks_cancel e₂ setup.id
        | ok registry =>
          let e₃ : Engine γ := { e₂ with registry, parents := e₂.parents.insert setup.id id }
          have hlinked : Speaks e₂ e₃ [] := .of_subset rfl rfl fun hq => hq
          refine hlinked.trans ((speaks_start e₃ _).trans ?_)
          dsimp only
          split
          · exact speaks_wake _ id _
          · exact speaks_run _

theorem speaks_handleMessage (e : Engine γ) (m : PeerMessage) :
    Speaks e (e.handleMessage m).2 (e.handleMessageTells m) := by
  unfold handleMessage handleMessageTells
  cases e.recipient? m with
  | none => exact .refl e
  | some id => exact speaks_wake e id (.message m.pdu)

theorem speaks_advance (e : Engine γ) : Speaks e e.advance e.advanceTells := by
  obtain ⟨armed, he, -⟩ := foldl_expire e.timers.advance.1 { e with timers := e.timers.advance.2 }
  have hfired : Speaks e
      (e.timers.advance.1.foldl expire { e with timers := e.timers.advance.2 }) [] := by
    rw [he]
    exact .of_subset rfl rfl fun hq => hq
  exact hfired.trans (speaks_run _)

theorem speaks_transportLost (e : Engine γ) :
    Speaks e e.transportLost.2 e.transportLostTells := by
  let down : Engine γ := { e with tearingDown := true }
  have hdown : Speaks e down [] := .of_subset rfl rfl fun hq => hq
  have hcancelled : Speaks e (e.registry.entities.foldl cancelEntity down) _ :=
    hdown.trans (speaks_along (fun e entity => speaks_along speaks_cancel e (e.registry.ids entity))
      down e.registry.entities)
  unfold transportLost transportLostTells
  refine hcancelled.trans ?_
  dsimp only
  generalize e.registry.entities.foldl cancelEntity down = e₁
  let e₂ : Engine γ := { e₁ with tearingDown := false }
  generalize e.registry.entities.filter e₁.registry.contains = lost
  have hemitted : Speaks e₁ (if lost.isEmpty then e₂ else e₂.emit (.transactionsLost lost))
      (if lost.isEmpty then [] else [(none, .transactionsLost lost)]) := by
    split
    · exact .of_subset rfl rfl fun hq => hq
    · exact ⟨rfl, fun h => ⟨⟨h.issued, h.unoccupied⟩, toldBy_eq_nil (by simp)⟩⟩
  have hremoved := hemitted.trans (speaks_removes _ lost)
  rw [List.append_nil] at hremoved
  exact ⟨hremoved.log, fun h => ⟨⟨(hremoved.retired h).1.issued, (hremoved.retired h).1.unoccupied⟩,
    (hremoved.retired h).2⟩⟩

/-- An operation logs what its instances tell, and a slot out of use has no part in it. -/
theorem speaks_step (e : Engine γ) {op : Operation} (hop : op ≠ .drainEvents) :
    Speaks e (e.step op).2 (e.tells op) := by
  cases op with
  | setup request => exact speaks_launchRetry ..
  | update request => exact speaks_launchRetry ..
  | connect controller request => exact speaks_launchConnection e controller request
  | message m => exact speaks_handleMessage e m
  | advance => exact speaks_advance e
  | advanceBy ticks =>
    simp only [step, advanceBy_eq_foldl]
    exact speaks_along (fun e _ => speaks_advance e) e _
  | cancel id => exact speaks_cancel e id
  | remove entity => exact speaks_removes e [entity]
  | transportLost => exact speaks_transportLost e
  | drainEvents => exact absurd rfl hop

theorem logged_eq_tells (e : Engine γ) (op : Operation) : e.logged op = (e.tells op).map (·.2) := by
  by_cases hop : op = .drainEvents
  · subst hop
    rfl
  · exact logged_eq hop (e.speaks_step hop).log

/-- The events of a history are those that its instances tell, in this order. -/
theorem loggedDuring_eq_tells (e : Engine γ) (history : List Operation) :
    e.loggedDuring history = (e.tellsDuring history).map (·.2) := by
  induction history generalizing e with
  | nil => rfl
  | cons op rest ih =>
    rw [loggedDuring, logged_eq_tells, ih, tellsDuring, tellsDuring, tellsAlong, List.map_append]

theorem Retired.step {slot : Nat} (h : e.Retired slot) (op : Operation) :
    (e.step op).2.Retired slot ∧ toldBy slot (e.tells op) = [] := by
  by_cases hop : op = .drainEvents
  · subst hop
    exact ⟨⟨h.issued, h.unoccupied⟩, rfl⟩
  · exact (e.speaks_step hop).retired h

/-- Whose instance is gone has told its last. -/
theorem Retired.after {slot : Nat} (h : e.Retired slot) (history : List Operation) :
    (e.after history).Retired slot ∧ toldBy slot (e.tellsDuring history) = [] := by
  induction history generalizing e with
  | nil => exact ⟨h, rfl⟩
  | cons op rest ih =>
    obtain ⟨hstep, hmute⟩ := h.step op
    obtain ⟨hrest, hmute'⟩ := ih hstep
    exact ⟨hrest, by rw [tellsDuring, tellsAlong, toldBy_append, hmute]; exact hmute'⟩

end

end Engine

end NgapProcedures
