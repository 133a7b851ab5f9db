import NgapProcedures.Engine.Operation
import NgapProcedures.Proofs.Machine
import NgapProcedures.Proofs.Registry

/-! Every dispatch in closed form. A wake that is not expected changes nothing. One that is expected
has an instance sent into a backoff, has it send its request again, or ends it: outside a teardown
an instance that ends leaves no trace but its result, inside one it stays in its place as
cancelled. -/

namespace NgapProcedures

def Machine.followUps : Machine → List (ProcedureId × Wake)
  | .connection c _ => [(c.setup, .cancel)]
  | _ => []

namespace Engine

variable {γ : Type}

def timersWithout (e : Engine γ) (id : ProcedureId) : TimerService :=
  match e.armed.get? id with
  | some timer => (e.timers.cancel timer).2
  | none => e.timers

/-- the wake for the instance that waits for this one, if there is one -/
def parentWake (e : Engine γ) (id : ProcedureId) (w : Wake) : List (ProcedureId × Wake) :=
  (e.parents.get? id).toList.map (·, w)

/-- an instance ends: its result is published, the event logged, every trace of it dropped, and
the one that waits for it is told -/
def close (e : Engine γ) (id : ProcedureId) (t : Task) (result : Result) (event : Event)
    (followUps : List (ProcedureId × Wake)) : Engine γ :=
  { e with
    tasks := e.tasks.erase id
    parents := e.parents.erase id
    armed := e.armed.erase id
    timers := e.timersWithout id
    registry := (e.registry.deregister t.machine.entity id).2
    results := e.results.record t.slot (some result)
    log := e.log ++ [event]
    wakes := e.wakes ++ followUps ++ e.parentWake id (.procedureDone id) }

/-- an instance is cancelled with the session: it keeps its place until that has been reported -/
def retire (e : Engine γ) (id : ProcedureId) (t : Task) : Engine γ :=
  { e with
    tasks := e.tasks.insert id { t with machine := t.machine.cancelled }
    parents := e.parents.erase id
    armed := e.armed.erase id
    timers := e.timersWithout id
    results := e.results.record t.slot (some t.machine.cancellation)
    log := e.log ++ [.procedureCancelled t.machine.id]
    wakes := e.wakes ++ t.machine.followUps ++ e.parentWake id .cancel }

def backOff (e : Engine γ) (id : ProcedureId) (t : Task) (r : Rejection) (delay : Duration)
    (event : Event) : Engine γ :=
  { ({ e with tasks := e.tasks.insert id { t with machine := t.machine.backedOff r } } :
      Engine γ).armTimer id delay with log := e.log ++ [event] }

/-- an instance hands over a message and waits for the reply -/
def transmit [Gateway γ] (e : Engine γ) (id : ProcedureId) (t : Task) (message : PeerMessage)
    (attempt : UInt32) : Engine γ :=
  { e with
    tasks := e.tasks.insert id t
    gateway := (Gateway.send e.gateway message).2
    log := e.log ++ [.requestSent id attempt] }

theorem releaseTimer_eq (e : Engine γ) (id : ProcedureId) :
    e.releaseTimer id = { e with armed := e.armed.erase id, timers := e.timersWithout id } := by
  unfold releaseTimer timersWithout
  cases h : e.armed.get? id with
  | none => simp [Table.erase_of_get? h]
  | some timer => rfl

theorem timersWithout_of_get? {e : Engine γ} {id : ProcedureId} (h : e.armed.get? id = none) :
    e.timersWithout id = e.timers := by
  simp [timersWithout, h]

theorem notifyParent_eq (e : Engine γ) (id : ProcedureId) (cancelled : Bool) :
    e.notifyParent id cancelled = { e with
      parents := e.parents.erase id
      wakes := e.wakes ++ e.parentWake id
        (if cancelled && e.tearingDown then .cancel else .procedureDone id) } := by
  unfold notifyParent parentWake
  cases h : e.parents.get? id with
  | none => simp [Table.erase_of_get? h]
  | some parent => simp [wake]

theorem forget_eq (e : Engine γ) (id : ProcedureId) :
    e.forget id = { e with
      tasks := e.tasks.erase id
      parents := e.parents.erase id
      armed := e.armed.erase id
      timers := e.timersWithout id } := by
  simp [forget, releaseTimer_eq]

theorem deregister_eq {e : Engine γ} {id : ProcedureId} {t : Task}
    (h : e.tasks.get? id = some t) :
    e.deregister id = { e with registry := (e.registry.deregister t.machine.entity id).2 } := by
  simp [deregister, h]

theorem settle_eq {e : Engine γ} {id : ProcedureId} {t : Task} {cancelled : Bool}
    (h : e.tasks.get? id = some t) (hc : (cancelled && e.tearingDown) = false) :
    e.settle id cancelled = { e with
      tasks := e.tasks.erase id
      parents := e.parents.erase id
      armed := e.armed.erase id
      timers := e.timersWithout id
      registry := (e.registry.deregister t.machine.entity id).2
      wakes := e.wakes ++ e.parentWake id (.procedureDone id) } := by
  have hget : ((e.releaseTimer id).notifyParent id cancelled).tasks.get? id = some t := by
    simp [notifyParent_eq, releaseTimer_eq, h]
  have hdown : ((e.releaseTimer id).notifyParent id cancelled).tearingDown = e.tearingDown := by
    simp [notifyParent_eq, releaseTimer_eq]
  unfold settle
  dsimp only
  rw [hdown, hc, if_neg Bool.false_ne_true, deregister_eq hget, forget_eq,
    timersWithout_of_get? (by simp [notifyParent_eq, releaseTimer_eq])]
  simp [notifyParent_eq, releaseTimer_eq, Table.erase_erase, parentWake, hc]

theorem settle_teardown {e : Engine γ} {id : ProcedureId} (h : e.tearingDown = true) :
    e.settle id true = { e with
      parents := e.parents.erase id
      armed := e.armed.erase id
      timers := e.timersWithout id
      wakes := e.wakes ++ e.parentWake id .cancel } := by
  simp [settle, notifyParent_eq, releaseTimer_eq, h, parentWake]

/-- the end of an instance leaves the gateway, the log and the results alone -/
theorem exists_settle (e : Engine γ) (id : ProcedureId) (cancelled : Bool) :
    ∃ tasks armed parents timers registry wakes, e.settle id cancelled =
      { e with tasks, armed, parents, timers, registry, wakes } := by
  unfold settle
  dsimp only
  split
  · rw [notifyParent_eq, releaseTimer_eq]
    exact ⟨_, _, _, _, _, _, rfl⟩
  · rw [forget_eq, notifyParent_eq, releaseTimer_eq]
    unfold deregister
    split <;> exact ⟨_, _, _, _, _, _, rfl⟩

theorem settle_releaseTimer (e : Engine γ) (id : ProcedureId) (cancelled : Bool) :
    (e.releaseTimer id).settle id cancelled = e.settle id cancelled := by
  have h : (e.releaseTimer id).releaseTimer id = e.releaseTimer id := by
    simp [releaseTimer_eq, Table.erase_erase, timersWithout]
  unfold settle
  rw [h]

variable [Gateway γ]

theorem dispatch_unknown {e : Engine γ} {id : ProcedureId} (h : e.tasks.get? id = none) (w : Wake) :
    e.dispatch id w = e := by
  simp [dispatch, h]

section

variable {e : Engine γ} {id : ProcedureId} {t : Task} {w : Wake}

theorem dispatch_unexpected (h : e.tasks.get? id = some t) (hx : t.machine.expects w = false) :
    e.dispatch id w = e := by
  simp [dispatch, h, hx]

/-- a wake that means nothing to the machine is used up without effect -/
theorem dispatch_idle (h : e.tasks.get? id = some t) (hx : t.machine.expects w = true)
    (hr : t.machine.resume e.results w = none) : e.dispatch id w = e := by
  have hlive := Machine.not_isTerminal_of_expects hx
  simp [dispatch, h, hx, Task.resume, hr, hlive, performAll, Table.insert_of_get? h]

theorem dispatch_resumed (h : e.tasks.get? id = some t) (hx : t.machine.expects w = true)
    {m : Machine} {effects : List Effect} (hr : t.machine.resume e.results w = some (m, effects)) :
    e.dispatch id w =
      let e' : Engine γ := performAll { e with
        tasks := e.tasks.insert id { t with machine := m }
        results := e.results.record t.slot m.result? } id effects
      if m.isTerminal then e'.settle id m.isCancelled else e' := by
  simp [dispatch, h, hx, Task.resume, hr]

theorem dispatch_complete (h : e.tasks.get? id = some t) (hx : t.machine.expects w = true)
    {m : Machine} {event : Event} {r : Result}
    (hr : t.machine.resume e.results w = some (m, [.emit event])) (hm : m.Completed r) :
    e.dispatch id w = e.close id t r event [] := by
  rw [dispatch_resumed h hx hr]
  have hentity := (Machine.resume_static hr).2.1
  simp only [hm.terminal, hm.uncancelled, hm.result, ↓reduceIte, performAll, List.foldl_cons,
    List.foldl_nil, perform, emit]
  rw [settle_eq (Table.get?_insert_self ..) rfl]
  simp [close, hentity, Table.erase_insert, timersWithout, parentWake]

/-- The timer of a cancelled backoff is given back by the machine already. -/
theorem releaseTimer_performAll_release (e : Engine γ) (id : ProcedureId) (m : Machine)
    (event : Event) :
    (e.performAll id (m.release ++ [.emit event])).releaseTimer id = { e.releaseTimer id with
      log := e.log ++ [event]
      wakes := e.wakes ++ m.followUps } := by
  have hretry (c : Prop) [Decidable c] :
      (e.performAll id ((if c then [.cancelTimer] else []) ++ [.emit event])).releaseTimer id =
        { e.releaseTimer id with log := e.log ++ [event] } := by
    split
    · simp [performAll, perform, emit, releaseTimer_eq, Table.erase_erase, timersWithout]
    · simp [performAll, perform, emit, releaseTimer_eq, timersWithout]
  cases m with
  | setup p => simp [Machine.release, RetryProcedure.release, Machine.followUps, hretry,
      releaseTimer_eq]
  | update p => simp [Machine.release, RetryProcedure.release, Machine.followUps, hretry,
      releaseTimer_eq]
  | connection c slot => simp [Machine.release, Machine.followUps, performAll, perform, emit,
      wake, releaseTimer_eq, timersWithout]

theorem dispatch_cancel (h : e.tasks.get? id = some t) (hl : t.machine.isTerminal = false)
    (hd : e.tearingDown = false) :
    e.dispatch id .cancel = e.close id t t.machine.cancellation
      (.procedureCancelled t.machine.id) t.machine.followUps := by
  have hr := Machine.resume_cancel hl e.results
  have hentity := (Machine.resume_static hr).2.1
  rw [dispatch_resumed h (by simp [Machine.expects, hl]) hr]
  simp only [Machine.isTerminal_cancelled, Machine.isCancelled_cancelled,
    Machine.result?_cancelled, ↓reduceIte]
  rw [← settle_releaseTimer, releaseTimer_performAll_release, releaseTimer_eq,
    settle_eq (Table.get?_insert_self ..) (by simp [hd])]
  simp [close, hentity, Table.erase_insert, Table.erase_erase, timersWithout, parentWake]

theorem dispatch_cancel_teardown (h : e.tasks.get? id = some t)
    (hl : t.machine.isTerminal = false) (hd : e.tearingDown = true) :
    e.dispatch id .cancel = e.retire id t := by
  have hr := Machine.resume_cancel hl e.results
  rw [dispatch_resumed h (by simp [Machine.expects, hl]) hr]
  simp only [Machine.isTerminal_cancelled, Machine.isCancelled_cancelled,
    Machine.result?_cancelled, ↓reduceIte]
  rw [← settle_releaseTimer, releaseTimer_performAll_release, releaseTimer_eq,
    settle_teardown (by exact hd)]
  simp [retire, Table.erase_erase, timersWithout, parentWake]

theorem dispatch_rejected (h : e.tasks.get? id = some t) {pdu : Pdu}
    (hx : t.machine.expects (.message pdu) = true) (hs : t.machine.Suspended) {r : Rejection}
    {delay : Duration} (hr : t.machine.rejection? pdu = some r) (hd : r.wait? = some delay)
    (hb : t.machine.retries = true) :
    e.dispatch id (.message pdu) = e.backOff id t r delay (.backoffStarted t.machine.id
      t.machine.nextAttempt (.ofNatClamp delay.millis)) := by
  have hw : t.machine.waitingFor = .response := by
    simp only [Machine.expects, Bool.and_eq_true, beq_iff_eq] at hx
    exact hx.1
  have hsus := hs.backedOff r hb
  rw [dispatch_resumed h hx (Machine.resume_rejection hw hr hd hb e.results)]
  simp [hsus.isTerminal, hsus.result?, Results.record, performAll, perform, emit, backOff,
    armTimer, releaseTimer_eq, timersWithout]

theorem dispatch_timerFired (h : e.tasks.get? id = some t) (hs : t.machine.Suspended)
    (hw : t.machine.waitingFor = .timer) (hid : t.machine.id = id) :
    ∃ message, t.machine.request? = some message ∧
      e.dispatch id .timerFired =
        e.transmit id { t with machine := t.machine.resent } message
          t.machine.resent.transmissions := by
  obtain ⟨message, hm, hr⟩ := Machine.resume_timerFired hs hw e.results
  have hsus := hs.resent hw
  refine ⟨message, hm, ?_⟩
  rw [dispatch_resumed h (by simp [Machine.expects, hw]) hr]
  simp [hsus.isTerminal, hsus.result?, Results.record, performAll, perform, emit, transmit, hid]

end

theorem run_of_wakes_nil {e : Engine γ} (h : e.wakes = []) : e.run = e := by
  unfold run
  split
  · rfl
  · simp_all

theorem run_of_wakes_cons {e : Engine γ} {id : ProcedureId} {w : Wake}
    {rest : List (ProcedureId × Wake)} (h : e.wakes = (id, w) :: rest) :
    e.run = ({ e with wakes := rest }.dispatch id w).run := by
  rw [run]
  split
  · simp_all
  · next id' w' rest' h' =>
    rw [h] at h'
    simp only [List.cons.injEq, Prod.mk.injEq] at h'
    obtain ⟨⟨rfl, rfl⟩, rfl⟩ := h'
    rfl

/-- what every dispatch of a queued wake keeps, a run keeps -/
theorem run_induction {P : Engine γ → Prop}
    (step : ∀ e id w rest, e.wakes = (id, w) :: rest → P e →
      P ({ e with wakes := rest }.dispatch id w)) {e : Engine γ} (h : P e) :
    P e.run ∧ e.run.wakes = [] := by
  induction e using run.induct with
  | case1 e hnil =>
    rw [run_of_wakes_nil hnil]
    exact ⟨h, hnil⟩
  | case2 e id w rest hcons ih =>
    rw [run_of_wakes_cons hcons]
    exact ih (step e id w rest hcons h)

theorem run_wake {e : Engine γ} (h : e.wakes = []) (id : ProcedureId) (w : Wake) :
    (e.wake id w).run = (e.dispatch id w).run := by
  have hcons : (e.wake id w).wakes = (id, w) :: [] := by simp [wake, h]
  have hback : { e.wake id w with wakes := [] } = e := by
    cases e
    simp_all [wake]
  rw [run_of_wakes_cons hcons, hback]

end Engine

end NgapProcedures
