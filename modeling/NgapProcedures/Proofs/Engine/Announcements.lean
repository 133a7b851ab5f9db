import NgapProcedures.Proofs.Engine.Becomes
import NgapProcedures.Proofs.Engine.Timeline

/-! What is announced is what is sent. Observers who note the launches, each with the request that it
was made with, know what message every announcement of a request stands for; and these messages are
handed to the gateway, in this order and no others. The argument goes along the definitions, beside
the one on who sends what. -/

namespace NgapProcedures

/-- what an observer knows of the procedures by their names: the request of each -/
abbrev Ledger := ProcedureId → Option PeerMessage

def Operation.requestOf (op : Operation) (kind : String) (entity : EntityId) : Option PeerMessage :=
  match op with
  | .setup request | .connect _ request =>
    if kind = ngSetup.kind.name then some ⟨entity, ngSetup.requestPdu request.message⟩ else none
  | .update request =>
    if kind = ranConfigurationUpdate.kind.name then
      some ⟨entity, ranConfigurationUpdate.requestPdu request.message⟩
    else none
  | _ => none

/-- the messages that the events of an operation announce, and what is known after them: a launch
enters a procedure with its request, in place of whoever had the name before, and every announcement
of a request stands for the one that is known -/
def Operation.announce (op : Operation) : Ledger → List Event → List (Option PeerMessage) × Ledger
  | known, [] => ([], known)
  | known, .procedureLaunched id kind entity :: rest =>
    op.announce (Function.update known id (op.requestOf kind entity)) rest
  | known, .requestSent id _ :: rest =>
    (known id :: (op.announce known rest).1, (op.announce known rest).2)
  | known, _ :: rest => op.announce known rest

theorem Operation.announce_append (op : Operation) (known : Ledger) (a b : List Event) :
    op.announce known (a ++ b) =
      ((op.announce known a).1 ++ (op.announce (op.announce known a).2 b).1,
        (op.announce (op.announce known a).2 b).2) := by
  induction a generalizing known with
  | nil => rfl
  | cons event rest ih => cases event <;> simp [announce, ih]

def Effect.event? : Effect → Option Event
  | emit event => some event
  | _ => none

namespace RetryProcedure

variable {ρ σ : Type}

/-- a request that is handed over is announced -/
theorem announce_transition (P : RetryProtocol ρ σ) (p : RetryProcedure ρ σ)
    (event : RetryEvent σ) (op : Operation) {known : Ledger}
    (hk : known p.id = some ⟨p.entity, P.requestPdu p.request⟩) :
    op.announce known ((p.transition P event).2.filterMap Effect.event?) =
      (((p.transition P event).2.filterMap Effect.message?).map some, known) := by
  unfold transition
  split
  all_goals try simp [List.filterMap_cons, sendRequest, Effect.event?, Effect.message?,
    Operation.announce, hk]
  · unfold onFailure
    split
    · simp [List.filterMap_cons, Effect.event?, Effect.message?, Operation.announce]
    · split <;> simp [List.filterMap_cons, exhausted, Effect.event?, Effect.message?,
        Operation.announce]
  · split
    · split <;> simp [List.filterMap_cons, Effect.event?, Effect.message?, Operation.announce, hk]
    · split <;> simp [List.filterMap_cons, exhausted, Effect.event?, Effect.message?,
        Operation.announce]

end RetryProcedure

theorem AmfConnection.announce_transition (c : AmfConnection) (event : ConnectionEvent)
    (op : Operation) (known : Ledger) :
    op.announce known ((c.transition event).2.filterMap Effect.event?) =
      (((c.transition event).2.filterMap Effect.message?).map some, known) := by
  unfold transition
  split
  all_goals try simp [List.filterMap_cons, Effect.event?, Effect.message?, Operation.announce]
  next setup _ => cases setup <;> simp [List.filterMap_cons, report, outcomeOf, Effect.event?,
    Effect.message?, Operation.announce]

theorem Machine.announce_resume {m m' : Machine} {results : Results} {w : Wake}
    {effects : List Effect} (h : m.resume results w = some (m', effects)) (op : Operation)
    {known : Ledger} (hk : known m.id = m.request?) :
    op.announce known (effects.filterMap Effect.event?) =
      ((effects.filterMap Effect.message?).map some, known) := by
  cases m with
  | setup p =>
    simp only [resume, Option.map_eq_some_iff, Prod.mk.injEq] at h
    obtain ⟨event, -, rfl, rfl⟩ := h
    exact p.announce_transition ngSetup event op hk
  | update p =>
    simp only [resume, Option.map_eq_some_iff, Prod.mk.injEq] at h
    obtain ⟨event, -, rfl, rfl⟩ := h
    exact p.announce_transition ranConfigurationUpdate event op hk
  | connection c slot =>
    simp only [resume, Option.map_eq_some_iff, Prod.mk.injEq] at h
    obtain ⟨event, -, rfl, rfl⟩ := h
    exact c.announce_transition event op known

theorem Task.announce_resume (t : Task) (results : Results) (w : Wake) (op : Operation)
    {known : Ledger} (hk : known t.machine.id = t.machine.request?) :
    op.announce known ((t.resume results w).2.2.filterMap Effect.event?) =
        (((t.resume results w).2.2.filterMap Effect.message?).map some, known) ∧
      (t.resume results w).1.machine.id = t.machine.id ∧
      (t.resume results w).1.machine.request? = t.machine.request? := by
  unfold resume
  cases hr : t.machine.resume results w with
  | none => exact ⟨rfl, rfl, rfl⟩
  | some r =>
    obtain ⟨hid, -, -, hreq⟩ := Machine.resume_static hr
    exact ⟨Machine.announce_resume hr op hk, hid, hreq⟩

namespace Engine

variable {γ : Type}

def Known (known : Ledger) (e : Engine γ) : Prop :=
  ∀ {id t}, e.tasks.get? id = some t → t.machine.id = id ∧ known id = t.machine.request?

/-- Between the two engines these messages were sent, and what was logged announces them. -/
def Announces (op : Operation) (known : Ledger) (e e' : Engine γ)
    (sends : List (Nat × PeerMessage)) : Prop :=
  ∃ events, e'.log = e.log ++ events ∧
    (op.announce known events).1 = sends.map (fun x => some x.2) ∧
    Known (op.announce known events).2 e'

section

variable {op : Operation} {known : Ledger} {e e' e'' : Engine γ}
  {sends sends' : List (Nat × PeerMessage)}

theorem Known.announces (h : Known known e) : Announces op known e e [] :=
  ⟨[], (List.append_nil _).symm, rfl, h⟩

theorem Known.announces_of_subset (h : Known known e) (hlog : e'.log = e.log)
    (ht : ∀ {id t}, e'.tasks.get? id = some t → e.tasks.get? id = some t) :
    Announces op known e e' [] :=
  ⟨[], by rw [hlog, List.append_nil], rfl, fun hq => h (ht hq)⟩

theorem Announces.trans (h : Announces op known e e' sends)
    (h' : ∀ known', Known known' e' → Announces op known' e' e'' sends') :
    Announces op known e e'' (sends ++ sends') := by
  obtain ⟨a, hlog, hsent, hk⟩ := h
  obtain ⟨b, hlog', hsent', hk'⟩ := h' _ hk
  refine ⟨a ++ b, by rw [hlog', hlog, List.append_assoc], ?_, ?_⟩
  · rw [op.announce_append, hsent, hsent', List.map_append]
  · rw [op.announce_append]
    exact hk'

theorem announces_along {α : Type} {f : Engine γ → α → Engine γ}
    {sends : Engine γ → α → List (Nat × PeerMessage)}
    (hf : ∀ e a known, Known known e → Announces op known e (f e a) (sends e a))
    (hk : Known known e) (l : List α) :
    Announces op known e (l.foldl f e) (sendsAlong f sends e l) := by
  induction l generalizing e known with
  | nil => exact hk.announces
  | cons a rest ih => exact (hf e a known hk).trans fun known' hk' => ih hk'

end

/-- a launch enters its procedure -/
theorem Known.start {op : Operation} {known : Ledger} {e : Engine γ} (h : Known known e) {m : Machine}
    (hm : op.requestOf m.kind.name m.entity = m.request?) :
    Announces op known e (e.start m).2 [] := by
  refine ⟨[.procedureLaunched m.id m.kind.name m.entity], rfl, rfl, fun {q t} hq => ?_⟩
  simp only [Operation.announce]
  rcases get?_tasks_start hq with ⟨rfl, rfl⟩ | ⟨hne, hq⟩
  · exact ⟨rfl, by rw [Function.update_self, hm]⟩
  · rw [Function.update_of_ne hne]
    exact h hq

theorem Known.drawn {op : Operation} {known : Ledger} {e : Engine γ} (h : Known known e)
    {drawn : Except LaunchError ProcedureId} {e' : Engine γ}
    (hal : e.allocateId = (drawn, e')) : Announces op known e e' [] := by
  rw [← (Prod.mk.inj hal).2]
  exact h.announces_of_subset rfl fun hq => hq

theorem get?_forget {e : Engine γ} {id q : ProcedureId} {t : Task}
    (h : (e.forget id).tasks.get? q = some t) : e.tasks.get? q = some t := by
  rw [forget_eq] at h
  exact (Table.get?_erase_eq_some_iff.1 h).1

/-- nobody comes in when an instance ends -/
theorem get?_settle {e : Engine γ} {id q : ProcedureId} {cancelled : Bool} {t : Task}
    (h : (e.settle id cancelled).tasks.get? q = some t) : e.tasks.get? q = some t := by
  have htasks : ((e.releaseTimer id).notifyParent id cancelled).tasks = e.tasks := by
    rw [notifyParent_eq, releaseTimer_eq]
  unfold settle at h
  dsimp only at h
  split at h
  · rwa [htasks] at h
  · have h := get?_forget h
    unfold deregister at h
    split at h <;> rwa [htasks] at h

/-- whoever is removed goes without a word -/
theorem Known.removes {known : Ledger} {e : Engine γ} (h : Known known e) (op : Operation)
    (entities : List EntityId) :
    Announces op known e (entities.foldl (fun e entity => (e.remove entity).2) e) [] := by
  obtain ⟨tasks, armed, parents, live, registry, he, -, ht, -⟩ := foldl_remove entities e
  refine h.announces_of_subset (log_foldl_remove e entities) fun {q t} hq => ?_
  rw [he] at hq
  exact (ht q t hq).1

variable [Gateway γ]

theorem log_performAll (e : Engine γ) (owner : ProcedureId) (effects : List Effect) :
    (e.performAll owner effects).log = e.log ++ effects.filterMap Effect.event? := by
  unfold performAll
  induction effects generalizing e with
  | nil => simp
  | cons effect rest ih =>
    rw [List.foldl_cons, ih]
    cases effect <;> simp [perform, List.filterMap_cons, Effect.event?, armTimer, releaseTimer_eq,
      wake, emit]

section

variable {op : Operation} {known : Ledger} {e : Engine γ}

/-- whoever is resumed announces what it sends -/
theorem Known.dispatch (h : Known known e) (op : Operation) (id : ProcedureId) (w : Wake) :
    Announces op known e (e.dispatch id w) (e.dispatchSends id w) := by
  unfold Engine.dispatch dispatchSends
  cases ht : e.tasks.get? id with
  | none => exact h.announces
  | some t =>
    obtain ⟨hid, hk⟩ := h ht
    obtain ⟨hannounce, hid', hreq⟩ := t.announce_resume e.results w op (hid.symm ▸ hk)
    dsimp only
    split
    · generalize t.resume e.results w = r at hannounce hid' hreq ⊢
      obtain ⟨t', results, effects⟩ := r
      dsimp only at hannounce hid' hreq ⊢
      let e₁ : Engine γ :=
        performAll { e with tasks := e.tasks.insert id t', results } id effects
      have hlog : e₁.log = e.log ++ effects.filterMap Effect.event? := log_performAll ..
      have hknown : Known known e₁ := fun {q u} hq => by
        have hq : (e.tasks.insert id t').get? q = some u := by
          rwa [performAll_tasks] at hq
        rcases Table.get?_insert_eq_some_iff.1 hq with ⟨rfl, rfl⟩ | ⟨-, hq⟩
        · exact ⟨hid'.trans hid, by rw [hk, hreq]⟩
        · exact h hq
      have hsent : (op.announce known (effects.filterMap Effect.event?)).1 =
          ((effects.filterMap Effect.message?).map (t.slot, ·)).map fun x => some x.2 := by
        rw [hannounce, List.map_map]
        rfl
      have hafter : (op.announce known (effects.filterMap Effect.event?)).2 = known := by
        rw [hannounce]
      split
      · exact ⟨_, (log_settle ..).trans hlog, hsent, fun hq => hafter.symm ▸ hknown (get?_settle hq)⟩
      · exact ⟨_, hlog, hsent, fun hq => hafter.symm ▸ hknown hq⟩
    · exact h.announces

theorem Known.run (h : Known known e) (op : Operation) :
    Announces op known e e.run e.runSends := by
  induction e using Engine.run.induct generalizing known with
  | case1 e hnil =>
    rw [run_of_wakes_nil hnil, runSends_of_wakes_nil hnil]
    exact h.announces
  | case2 e id w rest hcons ih =>
    rw [run_of_wakes_cons hcons, runSends_of_wakes_cons hcons]
    have h' : Known known { e with wakes := rest } := h
    exact (h'.dispatch op id w).trans fun known' hk' => ih hk'

theorem Known.launchRetry (h : Known known e) (op : Operation) (entity : EntityId) (kind : Kind)
    {machine : ProcedureId → Machine}
    (hm : ∀ id, op.requestOf (machine id).kind.name (machine id).entity = (machine id).request?) :
    Announces op known e (e.launchRetry entity kind machine).2
      (e.launchRetrySends entity kind machine) := by
  unfold Engine.launchRetry launchRetrySends
  rcases hal : e.allocateId with ⟨error | id, e'⟩
  all_goals have hdrawn : Announces op known e e' [] := h.drawn hal
  · exact hdrawn
  · dsimp only
    split
    · exact hdrawn
    · cases e'.registry.register entity id with
      | error error => exact hdrawn
      | ok registry =>
        refine hdrawn.trans fun known' hk' => ?_
        have hk' : Known known' { e' with registry } := hk'
        exact (hk'.start (hm id)).trans fun _ hk => hk.run op

theorem Known.launchSetup (h : Known known e) {op : Operation}
    {request : ProcedureRequest NgSetupRequest}
    (hop : op = .setup request ∨ ∃ controller, op = .connect controller request) :
    Announces op known e (e.launchSetup request).2 (e.launchSetupSends request) := by
  refine h.launchRetry op _ _ fun id => ?_
  rcases hop with rfl | ⟨controller, rfl⟩ <;> rfl

theorem Known.wake (h : Known known e) (op : Operation) (id : ProcedureId) (w : Wake) :
    Announces op known e (e.wake id w).run (e.wake id w).runSends := by
  have h' : Known known (e.wake id w) := h
  exact h'.run op

theorem Known.cancel (h : Known known e) (op : Operation) (id : ProcedureId) :
    Announces op known e (e.cancel id).2 (e.cancelSends id) := by
  unfold Engine.cancel cancelSends
  split
  · exact h.wake op id .cancel
  · exact h.announces

theorem Known.launchConnection (h : Known known e) (controller : EntityId)
    (request : ProcedureRequest NgSetupRequest) :
    Announces (.connect controller request) known e (e.launchConnection controller request).2
      (e.launchConnectionSends controller request) := by
  have hsetup : Announces (.connect controller request) known e (e.launchSetup request).2
      (e.launchSetupSends request) := h.launchSetup (.inr ⟨controller, rfl⟩)
  unfold Engine.launchConnection launchConnectionSends
  split
  · exact h.announces
  · generalize e.launchSetup request = launched at hsetup ⊢
    rcases launched with ⟨error | setup, e₁⟩
    · simpa using hsetup
    · refine hsetup.trans fun known₁ h₁ => ?_
      have h₁ : Known known₁ e₁ := h₁
      dsimp only
      rcases hal : e₁.allocateId with ⟨error | id, e₂⟩
      all_goals
        have hdrawn : Announces (.connect controller request) known₁ e₁ e₂ [] := h₁.drawn hal
      · exact hdrawn.trans fun _ hk => hk.cancel _ setup.id
      · refine hdrawn.trans fun known₂ h₂ => ?_
        dsimp only
        cases e₂.registry.register controller id with
        | error error => exact h₂.cancel _ setup.id
        | ok registry =>
          have hlinked : Known known₂
              { e₂ with registry, parents := e₂.parents.insert setup.id id } := h₂
          have hkind : Kind.amfConnection.name ≠ ngSetup.kind.name := by decide
          have hnone : (Operation.connect controller request).requestOf Kind.amfConnection.name
              controller = none := by simp only [Operation.requestOf, if_neg hkind]
          refine (hlinked.start (m := .connection ⟨id, controller, request.entity, setup.id,
            .created, none⟩ setup.slot) hnone).trans fun known₃ h₃ => ?_
          dsimp only
          split
          · exact h₃.wake _ id _
          · exact h₃.run _

theorem Known.handleMessage (h : Known known e) (op : Operation) (m : PeerMessage) :
    Announces op known e (e.handleMessage m).2 (e.handleMessageSends m) := by
  unfold Engine.handleMessage handleMessageSends
  cases e.recipient? m with
  | none => exact h.announces
  | some id => exact h.wake op id (.message m.pdu)

theorem Known.advance (h : Known known e) (op : Operation) :
    Announces op known e e.advance e.advanceSends := by
  obtain ⟨armed, he, -⟩ := foldl_expire e.timers.advance.1 { e with timers := e.timers.advance.2 }
  have hfired : Announces op known e
      (e.timers.advance.1.foldl expire { e with timers := e.timers.advance.2 }) [] := by
    rw [he]
    exact h.announces_of_subset rfl fun hq => hq
  exact hfired.trans fun _ hk => hk.run op

theorem Known.cancelEntity (h : Known known e) (op : Operation) (entity : EntityId) :
    Announces op known e (e.cancelEntity entity) (e.cancelEntitySends entity) :=
  announces_along (fun _ id _ hk => hk.cancel op id) h (e.registry.ids entity)

theorem Known.transportLost (h : Known known e) (op : Operation) :
    Announces op known e e.transportLost.2 (e.sends .transportLost) := by
  have hdown : Known known { e with tearingDown := true } := h
  have hcancelled : Announces op known e
      (e.registry.entities.foldl Engine.cancelEntity { e with tearingDown := true })
      (e.sends .transportLost) :=
    announces_along (fun _ entity _ hk => hk.cancelEntity op entity) hdown e.registry.entities
  rw [← List.append_nil (e.sends .transportLost)]
  refine hcancelled.trans fun known₁ h₁ => ?_
  unfold Engine.transportLost
  dsimp only
  generalize e.registry.entities.foldl Engine.cancelEntity { e with tearingDown := true } = e₁ at h₁
  let e₂ : Engine γ := { e₁ with tearingDown := false }
  have hemitted (lost : List EntityId) : Announces op known₁ e₁
      (if lost.isEmpty then e₂ else e₂.emit (.transactionsLost lost)) [] := by
    split
    · exact h₁.announces_of_subset rfl fun hq => hq
    · exact ⟨[.transactionsLost lost], rfl, rfl, h₁⟩
  exact (hemitted _).trans fun _ h₂ => h₂.removes op _

/-- what an operation logs announces what it sends -/
theorem Known.step (h : Known known e) (op : Operation) :
    (op.announce known (e.logged op)).1 = (e.sends op).map (fun x => some x.2) ∧
      Known (op.announce known (e.logged op)).2 (e.step op).2 := by
  by_cases hdrain : op = .drainEvents
  · subst hdrain
    exact ⟨rfl, h⟩
  · have hstep : Announces op known e (e.step op).2 (e.sends op) := by
      cases op with
      | setup request => exact h.launchSetup (.inl rfl)
      | update request => exact h.launchRetry _ _ _ fun _ => rfl
      | connect controller request => exact h.launchConnection controller request
      | message m => exact h.handleMessage _ m
      | advance => exact h.advance _
      | advanceBy ticks =>
        simp only [Engine.step, advanceBy_eq_foldl]
        exact announces_along (fun _ _ _ hk => hk.advance _) h _
      | cancel id => exact h.cancel _ id
      | remove entity => exact h.removes _ [entity]
      | transportLost => exact h.transportLost _
      | drainEvents => exact absurd rfl hdrain
    obtain ⟨events, hlog, hsent, hk⟩ := hstep
    rw [logged_eq hdrain hlog]
    exact ⟨hsent, hk⟩

end

end Engine

end NgapProcedures
