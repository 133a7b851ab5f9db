import NgapProcedures.Proofs.Engine.Joined
import NgapProcedures.Proofs.Engine.Waits

/-! A setup and the connection that waits for it, with the engine to themselves. Ticks and replies
take the setup from one request to the next, and the reply that ends it ends both. -/

namespace NgapProcedures.Engine

variable {γ : Type}

structure Paired (e : Engine γ) (p : RetryProcedure NgSetupRequest NgSetupResponse)
    (c : AmfConnection) : Prop where
  steady : e.Steady
  timed : e.Timed
  setup : e.tasks.get? p.id = some ⟨.setup p, 0⟩
  connection : e.tasks.get? c.id = some ⟨.connection c 0, 1⟩
  awaited : c.setup = p.id
  parent : e.parents.get? p.id = some c.id
  only : ∀ {q t}, e.tasks.get? q = some t → q = p.id ∨ q = c.id

section

variable {e e' : Engine γ} {p p' : RetryProcedure NgSetupRequest NgSetupResponse}
  {c : AmfConnection}

theorem Paired.apart (h : e.Paired p c) : c.id ≠ p.id := by
  intro he
  have hc := h.connection
  rw [he, h.setup] at hc
  simp at hc

theorem Paired.transfer (h : e.Paired p c) (hs : e'.Steady) (ht : e'.Timed)
    (htasks : e'.tasks = e.tasks) (hparents : e'.parents = e.parents) : e'.Paired p c where
  steady := hs
  timed := ht
  setup := htasks ▸ h.setup
  connection := htasks ▸ h.connection
  awaited := h.awaited
  parent := hparents ▸ h.parent
  only hq := h.only (htasks ▸ hq)

theorem Paired.proceed (h : e.Paired p c) (hs : e'.Steady) (ht : e'.Timed) (hid : p'.id = p.id)
    (htasks : e'.tasks = e.tasks.insert p.id ⟨.setup p', 0⟩) (hparents : e'.parents = e.parents) :
    e'.Paired p' c where
  steady := hs
  timed := ht
  setup := by rw [htasks, hid, Table.get?_insert_self]
  connection := by rw [htasks, Table.get?_insert_other _ _ h.apart, h.connection]
  awaited := h.awaited.trans hid.symm
  parent := by rw [hparents, hid, h.parent]
  only {q t} hq := by
    rcases Table.get?_insert_eq_some_iff.1 (htasks ▸ hq) with ⟨he, -⟩ | ⟨-, hq⟩
    · exact .inl (he.trans hid.symm)
    · exact hid ▸ h.only hq

theorem Paired.waitingFor (h : e.Paired p c) : c.waitingFor = .procedure p.id := by
  have hs := (h.steady.coherent.suspended h.connection).1
  simp [AmfConnection.waitingFor, hs, h.awaited]

theorem Paired.recipient?_eq (h : e.Paired p c) (hp : p.state = .awaitingResponse)
    {m : PeerMessage} (hm : m.entity = p.entity) {reply : Reply NgSetupResponse}
    (hr : ngSetup.reply? m.pdu = some reply) : e.recipient? m = some p.id := by
  refine h.steady.coherent.recipient?_eq h.setup hm.symm ?_
  simp [Machine.expects, Machine.waitingFor, RetryProcedure.waitingFor, hp, Machine.accepts, hr]

theorem Paired.eq_of_mem_expiring (h : e.Paired p c) {fired : List Timer} {q : ProcedureId}
    (hq : q ∈ expiring e.armed fired) : q = p.id ∧ p.state = .backoff := by
  obtain ⟨t, -, -, hk⟩ := mem_expiring_iff.1 hq
  obtain ⟨⟨u, hu⟩, -⟩ := h.steady.coherent.armed hk
  have hwait := (h.steady.coherent.backoff hu).2 (.inl ⟨_, hk⟩)
  rcases h.only hu with rfl | rfl
  · rw [h.setup] at hu
    rw [← Option.some.inj hu] at hwait
    exact ⟨rfl, RetryProcedure.waitingFor_eq_timer_iff.1 hwait⟩
  · rw [h.connection] at hu
    rw [← Option.some.inj hu] at hwait
    simp only [Machine.waitingFor, AmfConnection.waitingFor] at hwait
    split at hwait <;> simp at hwait

variable [Gateway γ]

/-- a tick that wakes nobody -/
theorem Paired.advance_idle (h : e.Paired p c) (hx : p.id ∉ expiring e.armed e.timers.advance.1) :
    e.advance = { e with timers := e.timers.advance.2 } ∧ e.advance.Paired p c := by
  have hnil : expiring e.armed e.timers.advance.1 = [] :=
    List.eq_nil_iff_forall_not_mem.2 fun q hq => hx ((h.eq_of_mem_expiring hq).1 ▸ hq)
  have he := h.steady.coherent.advance_idle h.steady.quiet hnil
  have hs : e.advance.Steady := h.steady.after [.advance]
  refine ⟨he, h.transfer hs (h.timed.advance h.steady.coherent h.steady.quiet) ?_ ?_⟩
  · rw [he]
  · rw [he]

theorem Paired.advance_awaiting (h : e.Paired p c) (hp : p.state = .awaitingResponse) :
    e.advance = { e with timers := e.timers.advance.2 } ∧ e.advance.Paired p c :=
  h.advance_idle fun hq => by simpa [hp] using (h.eq_of_mem_expiring hq).2

/-- the tick on which the wait of the setup is over -/
theorem Paired.advance_due (h : e.Paired p c) {k : TimerId} {d : UInt64}
    (hw : e.Waiting p.id ⟨.setup p, 0⟩ k d) (hd : d ≤ e.now + 1) :
    e.advance = ({ e with timers := e.timers.advance.2, armed := e.armed.erase p.id }).transmit
      p.id ⟨.setup p.resent, 0⟩ ⟨p.entity, .ngSetupRequest p.request⟩ p.resent.transmissions ∧
    e.advance.Paired p.resent c := by
  have hone : expiring e.armed e.timers.advance.1 = [p.id] := by
    refine List.perm_singleton.1 ((List.perm_ext_iff_of_nodup (expiring_nodup ..)
      (List.nodup_singleton _)).2 fun q => ?_)
    rw [List.mem_singleton]
    refine ⟨fun hq => (h.eq_of_mem_expiring hq).1, ?_⟩
    rintro rfl
    exact (h.timed.mem_expiring_iff h.steady.coherent hw.timer).2 hd
  have he := h.steady.coherent.advance_single h.steady.quiet hone h.setup rfl
  have hs : e.advance.Steady := h.steady.after [.advance]
  refine ⟨he, h.proceed hs (h.timed.advance h.steady.coherent h.steady.quiet) rfl ?_ ?_⟩
  · rw [he]
    rfl
  · rw [he]
    rfl

omit [Gateway γ] in
structure Idle (e e' : Engine γ) (n : Nat) : Prop where
  same : e' = { e with timers := e'.timers }
  tick : e'.timers.tick = e.timers.tick
  nextId : e'.timers.nextId = e.timers.nextId
  now : e'.now.toNat = e.now.toNat + n

omit [Gateway γ] in
theorem Idle.log {n : Nat} (h : e.Idle e' n) : e'.log = e.log := by
  rw [h.same]

omit [Gateway γ] in
theorem Idle.gateway {n : Nat} (h : e.Idle e' n) : e'.gateway = e.gateway := by
  rw [h.same]

theorem Idle.advance {n : Nat} (h : e.Idle e' n) (hfit : e'.now.toNat + 1 < 2 ^ 64)
    (he : e'.advance = { e' with timers := e'.timers.advance.2 }) :
    e.Idle e'.advance (n + 1) where
  same := by
    rw [he, h.same]
  tick := by
    rw [he]
    exact h.tick
  nextId := by
    rw [he]
    exact h.nextId
  now := by
    have hnow : (e'.timers.now + 1).toNat = e'.now.toNat + 1 := toNat_add_one hfit
    rw [he, ← Nat.add_assoc, ← h.now]
    exact hnow

theorem Paired.sleeps (h : e.Paired p c) {k : TimerId} {d : UInt64}
    (hw : e.Waiting p.id ⟨.setup p, 0⟩ k d) (n : Nat) (hn : e.now.toNat + n < d.toNat) :
    (n.repeat advance e).Paired p c ∧ (n.repeat advance e).Waiting p.id ⟨.setup p, 0⟩ k d ∧
      e.Idle (n.repeat advance e) n := by
  induction n with
  | zero => exact ⟨h, hw, rfl, rfl, rfl, rfl⟩
  | succ n ih =>
    obtain ⟨hp, hw', hidle⟩ := ih (by omega)
    have hbound := d.toNat_lt
    have hnow := hidle.now
    have hlater : (n.repeat Engine.advance e).now + 1 < d := by
      rw [UInt64.lt_iff_toNat_lt, toNat_add_one (by omega)]
      omega
    have hexpiring := hp.timed.mem_expiring_iff hp.steady.coherent hw'.timer
    obtain ⟨he, hp'⟩ := hp.advance_idle (mt hexpiring.1 (UInt64.not_le.2 hlater))
    exact ⟨hp', hw'.advance hp.steady hp.timed hlater, hidle.advance (by omega) he⟩

/-- ticks that take the setup past the end of its wait have it send its request, once -/
theorem Paired.fires (h : e.Paired p c) {k : TimerId} {d : UInt64}
    (hw : e.Waiting p.id ⟨.setup p, 0⟩ k d) (hlater : e.now < d) (n : Nat)
    (hn : d.toNat ≤ e.now.toNat + n) : (n.repeat advance e).Paired p.resent c ∧
      (n.repeat advance e).log = e.log ++ [.requestSent p.id p.resent.transmissions] := by
  have hlt := UInt64.lt_iff_toNat_lt.1 hlater
  induction n with
  | zero => omega
  | succ n ih =>
    by_cases hdue : d.toNat ≤ e.now.toNat + n
    · -- the request is on its way already
      obtain ⟨hp, hlog⟩ := ih hdue
      obtain ⟨he, hp'⟩ := hp.advance_awaiting rfl
      refine ⟨hp', Eq.trans ?_ hlog⟩
      rw [Nat.repeat, he]
    · obtain ⟨hp, hw', hidle⟩ := h.sleeps hw n (by omega)
      have hbound := d.toNat_lt
      have hnow := hidle.now
      have hd : d ≤ (n.repeat Engine.advance e).now + 1 := by
        rw [UInt64.le_iff_toNat_le, toNat_add_one (by omega)]
        omega
      obtain ⟨he, hp'⟩ := hp.advance_due hw' hd
      refine ⟨hp', ?_⟩
      rw [Nat.repeat, he, ← hidle.log]
      rfl

/-- a delivered rejection that leaves a retry -/
theorem Paired.backs (h : e.Paired p c) {m : PeerMessage} {r : Rejection} {delay : Duration}
    (hb : e.Backs m p.id ⟨.setup p, 0⟩ r delay) (hn : e.timers.nextId.toNat + 1 < 2 ^ 64) :
    (e.handleMessage m).2 = e.backedOff p.id ⟨.setup p, 0⟩ r delay ∧
    (e.handleMessage m).2.Paired (p.backedOff r) c ∧
    (e.handleMessage m).2.Waiting p.id ⟨.setup (p.backedOff r), 0⟩ e.timers.nextId
      (e.timers.scheduled p.id (e.timers.ticksFor delay)).deadline := by
  obtain ⟨-, -, -, ha⟩ := h.steady.coherent.of_backs hb
  have he : (e.handleMessage m).2 = e.backedOff p.id ⟨.setup p, 0⟩ r delay := by
    rw [h.steady.coherent.handleMessage_backs h.steady.quiet hb]
  have hs : (e.handleMessage m).2.Steady := h.steady.after [.message m]
  have ht : (e.handleMessage m).2.Timed := by
    rw [he]
    exact h.timed.backOff ha _ r delay _ hn
  refine ⟨he, h.proceed hs ht rfl ?_ ?_, ?_⟩
  · rw [he, backedOff, backOff_eq ha]
    rfl
  · rw [he, backedOff, backOff_eq ha]
  · rw [he, backedOff, backOff_eq ha]
    exact ⟨Table.get?_insert_self .., Machine.waitingFor_backedOff r hb.retries,
      (h.timed.sound.waits_scheduleTicks p.id (e.timers.ticksFor delay) _).2 (.inl rfl)⟩

omit [Gateway γ] in
theorem Paired.backs_of_awaiting (h : e.Paired p c) (hp : p.state = .awaitingResponse)
    {m : PeerMessage} (hm : m.entity = p.entity) {r : Rejection}
    (hr : ngSetup.reply? m.pdu = some (.failure r)) {delay : Duration} (hd : r.wait? = some delay)
    (hb : p.attempts < p.maxRetries) : e.Backs m p.id ⟨.setup p, 0⟩ r delay :=
  ⟨h.recipient?_eq hp hm hr, h.setup, by simp [Machine.rejection?, hr], hd,
    by simpa [Machine.retries] using hb⟩

structure Concluded (e : Engine γ) (outcome : RetryOutcome NgSetupResponse) (e' : Engine γ) :
    Prop where
  steady : e'.Steady
  tasks : ∀ q, e'.tasks.get? q = none
  result : e'.results.get? 1 = some (.connection (AmfConnection.outcomeOf outcome))
  now : e'.now = e.now
  gateway : e'.gateway = e.gateway
  log : ∃ event event', (∀ id n, event ≠ .requestSent id n) ∧ (∀ id n, event' ≠ .requestSent id n) ∧
    e'.log = e.log ++ [event, event']

/-- the end of the setup ends the connection that waits for it -/
theorem Paired.run_close (h : e.Paired p c) (outcome : RetryOutcome NgSetupResponse)
    (event : Event) :
    let e₁ := e.close p.id ⟨.setup p, 0⟩ (.setup outcome) event []
    e₁.run = { e₁ with wakes := [] }.close c.id ⟨.connection c 0, 1⟩
      (.connection (AmfConnection.outcomeOf outcome)) (AmfConnection.announcement c.amf outcome)
      [] := by
  rw [← h.awaited]
  have hsetup := h.awaited ▸ h.setup
  exact h.steady.coherent.run_close_setup h.steady.quiet hsetup h.connection
    (h.awaited ▸ h.parent) outcome event

theorem Paired.get?_run_close (h : e.Paired p c) (outcome : RetryOutcome NgSetupResponse)
    (event : Event) (q : ProcedureId) :
    (e.close p.id ⟨.setup p, 0⟩ (.setup outcome) event []).run.tasks.get? q = none := by
  rw [h.run_close]
  show ((e.tasks.erase p.id).erase c.id).get? q = none
  rw [Table.get?_erase, Table.get?_erase]
  split
  · rfl
  · next hc =>
    split
    · rfl
    · next hq =>
      refine Option.eq_none_iff_forall_ne_some.2 fun t ht => ?_
      exact (h.only ht).elim hq hc

/-- A reply that ends the setup ends both, and the connection tells what became of the setup. -/
theorem Paired.concluded (h : e.Paired p c) (hp : p.state = .awaitingResponse) {m : PeerMessage}
    (hm : m.entity = p.entity) {reply : Reply NgSetupResponse}
    (hr : ngSetup.reply? m.pdu = some reply) {event : Event}
    (ht : p.transition ngSetup (.reply reply) = (p', [.emit event])) (hs : p'.state = .completed)
    {outcome : RetryOutcome NgSetupResponse} (ho : p'.outcome = some outcome)
    (hevent : ∀ id n, event ≠ .requestSent id n) :
    e.Concluded outcome (e.handleMessage m).2 := by
  have hsteady : (e.handleMessage m).2.Steady := h.steady.after [.message m]
  have hx : (Machine.setup p).expects (.message m.pdu) = true := by
    simp [Machine.expects, Machine.waitingFor, RetryProcedure.waitingFor, hp, Machine.accepts, hr]
  have hresume : (Machine.setup p).resume e.results (.message m.pdu) =
      some (.setup p', [.emit event]) := by
    simp [Machine.resume, RetryProtocol.eventOf, hr, ht]
  have hrun : (e.handleMessage m).2 = (e.dispatch p.id (.message m.pdu)).run := by
    simp only [handleMessage, h.recipient?_eq hp hm hr]
    exact run_wake h.steady.quiet _ _
  rw [dispatch_complete h.setup hx hresume (Machine.completed_setup hs ho)] at hrun
  have htasks := h.get?_run_close outcome event
  rw [← hrun] at htasks
  rw [h.run_close] at hrun
  have hslot := (h.steady.coherent.slot h.setup).2
  have hslot' := (h.steady.coherent.slot h.connection).2
  have hempty : ((e.results.record 0 (some (.setup outcome))) : Results).get? 1 = none :=
    (Results.get?_record hslot _ 1).trans hslot'
  refine ⟨hsteady, htasks, ?_, ?_, ?_, event, AmfConnection.announcement c.amf outcome, hevent, ?_,
    ?_⟩
  · rw [hrun]
    exact (Results.get?_record hempty _ 1).trans (if_pos rfl)
  · rw [hrun]
    exact (now_timersWithout ..).trans (now_timersWithout ..)
  · rw [hrun]
    rfl
  · intro id n
    cases outcome <;> simp [AmfConnection.announcement]
  · rw [hrun]
    exact List.append_assoc ..

end

structure Launched [Gateway γ] (gateway : γ) (ids : IdSource) (config : EngineConfig)
    (request : ProcedureRequest NgSetupRequest) (controller : EntityId) (e : Engine γ) : Prop where
  paired : e.Paired (RetryProcedure.new ids.draw.1 request).launched
    ⟨ids.draw.2.draw.1, controller, request.entity, ids.draw.1, .awaitingSetup, none⟩
  gateway : e.gateway =
    (Gateway.send gateway ⟨request.entity, .ngSetupRequest request.message⟩).2
  timers : e.timers = .new config.tick
  log : ∃ event event', (∀ id n, event ≠ .requestSent id n) ∧ (∀ id n, event' ≠ .requestSent id n) ∧
    e.log = [event, .requestSent ids.draw.1 1, event']

/-- A new engine launches a connection whenever its first two names differ. -/
theorem launchConnection_new [Gateway γ] (gateway : γ) (ids : IdSource) (config : EngineConfig)
    (controller : EntityId) (request : ProcedureRequest NgSetupRequest)
    (hids : ids.draw.1 ≠ ids.draw.2.draw.1) :
    ∃ e, (Engine.new gateway ids config).launchConnection controller request =
        (.ok ⟨ids.draw.2.draw.1, 1⟩, e) ∧
      e.Launched gateway ids config request controller := by
  have h := steady_new gateway ids config
  obtain ⟨registry, hreg⟩ : ∃ registry, (Engine.new gateway ids config).registry.register
      request.entity ids.draw.1 = .ok registry := ⟨_, rfl⟩
  have hm : (Engine.new gateway ids config).Admissible (.setup (.new ids.draw.1 request)) registry :=
    ⟨Machine.fresh_setup .., rfl, rfl, hreg⟩
  have hnot : ids.draw.2.draw.1 ∉ registry.ids controller := by
    rw [Registry.mem_ids_register hreg]
    rintro (hold | ⟨-, he⟩)
    · obtain ⟨t, ht, -⟩ := h.coherent.registered.1 hold
      simp [Engine.new] at ht
    · exact hids he.symm
  obtain ⟨registry', hreg'⟩ : ∃ registry', registry.register controller ids.draw.2.draw.1 =
      .ok registry' := ⟨_, Registry.register_eq_ok_iff.2 ⟨hnot, rfl⟩⟩
  let e₁ := (Engine.new gateway ids config).enrollSetup request registry
  let c : AmfConnection :=
    ⟨ids.draw.2.draw.1, controller, request.entity, ids.draw.1, .created, none⟩
  have hnew : e₁.tasks.get? ids.draw.2.draw.1 = none :=
    (Table.get?_insert_other _ _ (Ne.symm hids)).trans rfl
  have hm' : (e₁.link ids.draw.1).Admissible (.connection c 0) registry' :=
    ⟨Machine.fresh_connection .., hnew, h.coherent.inactive_enrollSetup hm rfl, hreg'⟩
  have he := h.coherent.launchConnection_eq h.quiet registry' rfl hm hm'
  have hsteady := h.after [.connect controller request]
  have hafter : (Engine.new gateway ids config).after [.connect controller request] =
      ({ e₁.link ids.draw.1 with registry := registry' } : Engine γ).enroll (.connection c 0) :=
    congrArg (·.2) he
  rw [hafter] at hsteady
  refine ⟨_, he, ⟨hsteady, (timed_new gateway ids config).transfer rfl rfl, ?_,
    Table.get?_insert_self .., rfl, Table.get?_insert_self .., fun {q t} hq => ?_⟩, rfl, rfl, ?_⟩
  · exact (Table.get?_insert_other _ _ hids).trans (Table.get?_insert_self ..)
  · rcases get?_enroll_cases hq with ⟨hc, -⟩ | ⟨-, hq⟩
    · exact .inr hc
    · rcases get?_enroll_cases hq with ⟨hp, -⟩ | ⟨-, hq⟩
      · exact .inl hp
      · simp [Engine.new] at hq
  · exact ⟨.procedureLaunched .., .procedureLaunched .., by simp, by simp, rfl⟩

/-- One name cannot serve both. -/
theorem names_ne_of_launchConnection [Gateway γ] {gateway : γ} {ids : IdSource}
    {config : EngineConfig} {controller : EntityId} {request : ProcedureRequest NgSetupRequest}
    {h : Handle} {e : Engine γ}
    (he : (Engine.new gateway ids config).launchConnection controller request = (.ok h, e)) :
    ids.draw.1 ≠ ids.draw.2.draw.1 := by
  have hs := steady_new gateway ids config
  rcases launchConnection_cases hs.coherent hs.quiet controller request with
    ⟨error, ids', herr, -⟩ | ⟨registry, -, -, -, ⟨error, herr⟩ | ⟨registry', hm', -⟩⟩
  · simp [herr] at he
  · simp [herr] at he
  · intro heq
    have hnew : ((∅ : Table ProcedureId Task).insert ids.draw.1 _).get? ids.draw.2.draw.1 = none :=
      hm'.new
    rw [← heq, Table.get?_insert_self] at hnew
    simp at hnew

end NgapProcedures.Engine
