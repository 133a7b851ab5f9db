import NgapProcedures.Proofs.Engine.Coherence

/-! How instances end outside a teardown: through a reply, a cancellation, the end of what they wait
for, or the removal of their entity. Nothing else of the engine changes, and the wakes that an end
leads to only lead to further ends. -/

namespace NgapProcedures

def Wake.Ending : Wake → Prop
  | .cancel | .procedureDone _ => True
  | _ => False

namespace Engine

variable {γ : Type}

structure Settled (e e' : Engine γ) (gone : ProcedureId → Prop) : Prop
    extends e.Without e' gone where
  ended : ∀ {q u}, e.tasks.get? q = some u → gone q → ∃ r, e'.results.get? u.slot = some r ∧
    (u.machine.waitingFor = .timer → r = u.machine.cancellation)

theorem Settled.refl (e : Engine γ) (ws : List (ProcedureId × Wake)) :
    e.Settled { e with wakes := ws } fun _ => False where
  toWithout := Without.refl e ws
  ended _ hf := hf.elim

theorem Settled.trans {a b c : Engine γ} {gone gone' : ProcedureId → Prop} (hb : b.Coherent [])
    (h : a.Settled b gone) (h' : b.Settled c gone') :
    a.Settled c fun q => gone q ∨ gone' q where
  toWithout := h.toWithout.trans h'.toWithout
  ended {q u} hu hg := by
    by_cases hq : gone q
    · obtain ⟨r, hr, hc⟩ := h.ended hu hq
      exact ⟨r, hb.result_without h'.toWithout hr, hc⟩
    · exact h'.ended (h.tasks.2 ⟨hu, hq⟩) (hg.resolve_left hq)

/-- How an instance ends: it is cancelled, it has its answer, or it is a connection and learns what
became of its setup. -/
inductive Closes (e : Engine γ) (t : Task) :
    Result → Event → List (ProcedureId × Wake) → Prop where
  | cancelled :
      Closes e t t.machine.cancellation (.procedureCancelled t.machine.id) t.machine.followUps
  | answered {r : Result} {event : Event} (hw : t.machine.waitingFor = .response)
      (hk : r.kind = t.machine.kind) (hr : r.isCancelled = false)
      (he : event.announced? = none) : Closes e t r event []
  | informed {c : AmfConnection} {slot : Nat} {outcome : RetryOutcome NgSetupResponse}
      (hm : t.machine = .connection c slot) (hr : e.results.get? slot = some (.setup outcome)) :
      Closes e t (.connection (AmfConnection.outcomeOf outcome))
        (AmfConnection.announcement c.amf outcome) []

section

variable {e : Engine γ}

theorem ending_followUps (m : Machine) : ∀ x ∈ m.followUps, x.2.Ending := by
  cases m <;> simp [Machine.followUps, Wake.Ending]

theorem Closes.ending {t : Task} {r : Result} {event : Event} {ws : List (ProcedureId × Wake)}
    (h : e.Closes t r event ws) : ∀ x ∈ ws, x.2.Ending := by
  cases h with
  | cancelled => exact ending_followUps t.machine
  | answered => simp
  | informed => simp

/-- an instance that waits out a backoff can only be cancelled -/
theorem Closes.of_timer {t : Task} {r : Result} {event : Event} {ws : List (ProcedureId × Wake)}
    (h : e.Closes t r event ws) (hw : t.machine.waitingFor = .timer) :
    r = t.machine.cancellation := by
  cases h with
  | cancelled => rfl
  | answered hw' => simp [hw'] at hw
  | informed hm => exact absurd (by rw [hm]; rfl) (Machine.kind_ne_of_timer hw)

theorem Coherent.settled_close (h : e.Coherent []) {id : ProcedureId} {t : Task}
    (ht : e.tasks.get? id = some t) {r : Result} {event : Event}
    {ws : List (ProcedureId × Wake)} (hc : e.Closes t r event ws) :
    e.Settled (e.close id t r event ws) (· = id) where
  toWithout := h.without_close ht r event ws
  ended {q u} hu hq := by
    subst hq
    rw [ht] at hu
    obtain rfl := Option.some.inj hu
    exact ⟨r, h.result_close ht r event ws, hc.of_timer⟩

theorem ending_parentWake (e : Engine γ) (id q : ProcedureId) :
    ∀ x ∈ e.parentWake id (.procedureDone q), x.2.Ending := by
  simp [parentWake, Wake.Ending]

/-- what the end of an instance leaves to be dispatched tells of ends -/
theorem Closes.ending_close {t : Task} {r : Result} {event : Event}
    {ws : List (ProcedureId × Wake)} (h : e.Closes t r event ws) (hw : e.wakes = [])
    (id : ProcedureId) : ∀ x ∈ (e.close id t r event ws).wakes, x.2.Ending := by
  intro x hx
  simp only [close, hw, List.nil_append, List.mem_append] at hx
  rcases hx with hx | hx
  · exact h.ending x hx
  · exact ending_parentWake _ _ _ x hx

theorem Coherent.of_recipient (h : e.Coherent []) {m : PeerMessage} {id : ProcedureId}
    (hr : e.recipient? m = some id) : ∃ t, e.tasks.get? id = some t ∧
      t.machine.entity = m.entity ∧ t.machine.expects (.message m.pdu) = true := by
  obtain ⟨t, ht, he⟩ := h.registered.1 (List.mem_of_find?_eq_some hr)
  have hx := List.find?_some hr
  exact ⟨t, ht, he, by simpa [ht] using hx⟩

/-- a message goes to the one instance that expects it -/
theorem Coherent.recipient?_eq (h : e.Coherent []) {m : PeerMessage} {id : ProcedureId} {t : Task}
    (ht : e.tasks.get? id = some t) (he : t.machine.entity = m.entity)
    (hx : t.machine.expects (.message m.pdu) = true) : e.recipient? m = some id := by
  cases hr : e.recipient? m with
  | none =>
    have hnone := List.find?_eq_none.1 hr id (h.registered.2 ⟨t, ht, he⟩)
    simp [ht, hx] at hnone
  | some q =>
    obtain ⟨u, hu, hu', hxu⟩ := h.of_recipient hr
    simp only [Machine.expects, Bool.and_eq_true] at hx hxu
    rw [h.single hu ht (hu'.trans he.symm) (Machine.kind_of_accepts hxu.2 hx.2)]

/-- a reply is dropped when nobody of its kind waits for one under the entity -/
theorem Coherent.recipient?_eq_none (h : e.Coherent []) {m : PeerMessage} {machine : Machine}
    (ha : machine.accepts m.pdu = true)
    (hdeaf : ∀ {q u}, e.tasks.get? q = some u → u.machine.entity = m.entity →
      u.machine.kind = machine.kind → u.machine.waitingFor ≠ .response) :
    e.recipient? m = none := by
  refine Option.eq_none_iff_forall_ne_some.2 fun q hq => ?_
  obtain ⟨u, hu, he, hx⟩ := h.of_recipient hq
  simp only [Machine.expects, Bool.and_eq_true, beq_iff_eq] at hx
  exact hdeaf hu he (Machine.kind_of_accepts hx.2 ha) hx.1

theorem foldl_forget (ids : List ProcedureId) (e : Engine γ) : ∃ tasks armed parents live,
    ids.foldl forget e = { e with tasks, armed, parents, timers := { e.timers with live } } ∧
    (∀ q, tasks.get? q = if q ∈ ids then none else e.tasks.get? q) ∧
    (∀ q, armed.get? q = if q ∈ ids then none else e.armed.get? q) ∧
    (∀ q, parents.get? q = if q ∈ ids then none else e.parents.get? q) ∧
    ∀ k, live.contains k = true ↔
      e.timers.isPending k = true ∧ ∀ q ∈ ids, e.armed.get? q ≠ some k := by
  induction ids generalizing e with
  | nil => exact ⟨e.tasks, e.armed, e.parents, e.timers.live, rfl, by simp, by simp, by simp,
      fun k => by simp [TimerService.isPending]⟩
  | cons id rest ih =>
    obtain ⟨tasks, armed, parents, live, he, ht, ha, hp, hl⟩ := ih (e.forget id)
    obtain ⟨live', htimers⟩ := e.timers_timersWithout id
    have hpend := isPending_timersWithout e id
    rw [forget_eq] at he ht ha hp hl
    simp only [Table.get?_erase] at ht ha hp hl
    refine ⟨tasks, armed, parents, live, ?_, fun q => ?_, fun q => ?_, fun q => ?_, fun k => ?_⟩
    · rw [List.foldl_cons, forget_eq, he, htimers]
    · rw [ht]
      by_cases hq : q = id <;> simp [hq]
    · rw [ha]
      by_cases hq : q = id <;> simp [hq]
    · rw [hp]
      by_cases hq : q = id <;> simp [hq]
    · rw [hl, hpend, List.forall_mem_cons, and_assoc]
      refine and_congr_right fun _ => and_congr_right fun hne => forall₂_congr fun q hq => ?_
      by_cases he : q = id
      · simp [he, hne]
      · simp [he]

theorem Coherent.without_remove (h : e.Coherent []) (entity : EntityId) :
    e.Without (e.remove entity).2 (· ∈ e.registry.ids entity) ∧
      (e.remove entity).2.results = e.results ∧ (e.remove entity).2.wakes = e.wakes := by
  obtain ⟨tasks, armed, parents, live, he, ht, ha, hp, hl⟩ := foldl_forget
    (e.registry.ids entity) { e with registry := (e.registry.remove entity).2 }
  have he' : (e.remove entity).2 = _ := he
  rw [he']
  refine ⟨?_, rfl, rfl⟩
  constructor
  case tearingDown => rfl
  case started => rfl
  case gateway => rfl
  case timers => exact ⟨live, rfl⟩
  case tasks =>
    intro q u
    rw [ht]
    by_cases hq : q ∈ e.registry.ids entity <;> simp [hq]
  case registry =>
    intro entity' q
    refine Registry.mem_ids_remove.trans (and_congr_right fun hq => ?_)
    constructor
    · intro hne hq'
      obtain ⟨t, hut, rfl⟩ := h.registered.1 hq
      obtain ⟨u, hu, rfl⟩ := h.registered.1 hq'
      rw [hut] at hu
      exact hne (Option.some.inj hu ▸ rfl)
    · rintro hn rfl
      exact hn hq
  case inhabited => exact fun hi => hi.remove entity
  case armed =>
    intro q k
    rw [ha]
    by_cases hq : q ∈ e.registry.ids entity <;> simp [hq]
  case parents =>
    intro s c hs
    rw [hp] at hs
    by_cases hq : s ∈ e.registry.ids entity <;> simp_all
  case results => exact fun _ => rfl
  case live => exact fun {k} => hl k

structure Backs (e : Engine γ) (m : PeerMessage) (id : ProcedureId) (t : Task) (r : Rejection)
    (delay : Duration) : Prop where
  recipient : e.recipient? m = some id
  task : e.tasks.get? id = some t
  rejection : t.machine.rejection? m.pdu = some r
  wait : r.wait? = some delay
  retries : t.machine.retries = true

theorem exists_backs {e : Engine γ} {m : PeerMessage} {id : ProcedureId} {r : Rejection}
    {delay : Duration} (hr : e.recipient? m = some id)
    (ht : (e.tasks.get? id).map (fun t => (t.machine.rejection? m.pdu, t.machine.retries)) =
      some (some r, true)) (hw : r.wait? = some delay) : ∃ t, e.Backs m id t r delay := by
  obtain ⟨t, ht, heq⟩ := Option.map_eq_some_iff.1 ht
  obtain ⟨hrejection, hretries⟩ := Prod.mk.inj heq
  exact ⟨t, hr, ht, hrejection, hw, hretries⟩

def backedOff (e : Engine γ) (id : ProcedureId) (t : Task) (r : Rejection) (delay : Duration) :
    Engine γ :=
  e.backOff id t r delay
    (.backoffStarted t.machine.id t.machine.nextAttempt (.ofNatClamp delay.millis))

theorem Coherent.of_backs (h : e.Coherent []) {m : PeerMessage} {id : ProcedureId} {t : Task}
    {r : Rejection} {delay : Duration} (hb : e.Backs m id t r delay) :
    t.machine.entity = m.entity ∧ t.machine.expects (.message m.pdu) = true ∧
      t.machine.waitingFor = .response ∧ e.armed.get? id = none := by
  obtain ⟨u, hu, he, hx⟩ := h.of_recipient hb.recipient
  rw [hb.task] at hu
  obtain rfl := Option.some.inj hu
  have hw : t.machine.waitingFor = .response := by
    simp only [Machine.expects, Bool.and_eq_true, beq_iff_eq] at hx
    exact hx.1
  exact ⟨he, hx, hw, (h.unarmed hb.task (by simp [hw])).1⟩

end

variable [Gateway γ] {e : Engine γ}

/-- A wake that tells of an end is discarded, or it cancels the instance it is for, or a connection
learns from it what became of its setup. -/
theorem Coherent.dispatch_ending_cases (h : e.Coherent []) (id : ProcedureId) {w : Wake}
    (hw : w.Ending) : e.dispatch id w = e ∨ ∃ t, e.tasks.get? id = some t ∧
      (w = .cancel ∧ e.dispatch id w = e.close id t t.machine.cancellation
        (.procedureCancelled t.machine.id) t.machine.followUps ∨
      ∃ c slot outcome, t.machine = .connection c slot ∧
        e.results.get? slot = some (.setup outcome) ∧
        e.dispatch id w = e.close id t (.connection (AmfConnection.outcomeOf outcome))
          (AmfConnection.announcement c.amf outcome) []) := by
  cases ht : e.tasks.get? id with
  | none => exact .inl (dispatch_unknown ht w)
  | some t =>
    cases hx : t.machine.expects w with
    | false => exact .inl (dispatch_unexpected ht hx)
    | true =>
      cases w with
      | cancel => exact .inr ⟨t, rfl, .inl ⟨rfl, dispatch_cancel ht (h.isTerminal ht) h.standing⟩⟩
      | procedureDone s =>
        obtain ⟨c, slot, hm, -, hr | ⟨m, outcome, hres, hr, hc⟩⟩ :=
          Machine.resume_procedureDone_cases hx e.results
        · exact .inl (dispatch_idle ht hx hr)
        · exact .inr ⟨t, rfl, .inr ⟨c, slot, outcome, hm, hres, dispatch_complete ht hx hr hc⟩⟩
      | launch => exact hw.elim
      | message pdu => exact hw.elim
      | timerFired => exact hw.elim

theorem Coherent.dispatch_ending (h : e.Coherent []) (id : ProcedureId) {w : Wake}
    (hw : w.Ending) : e.dispatch id w = e ∨ ∃ t r event ws, e.tasks.get? id = some t ∧
      e.Closes t r event ws ∧ e.dispatch id w = e.close id t r event ws := by
  rcases h.dispatch_ending_cases id hw with he | ⟨t, ht, ⟨-, he⟩ | ⟨c, slot, outcome, hm, hr, he⟩⟩
  · exact .inl he
  · exact .inr ⟨t, _, _, _, ht, .cancelled, he⟩
  · exact .inr ⟨t, _, _, _, ht, .informed hm hr, he⟩

theorem Coherent.dispatch_settled (h : e.Coherent []) (id : ProcedureId) {w : Wake}
    (hw : w.Ending) (hq : ∀ x ∈ e.wakes, x.2.Ending) :
    ∃ gone, e.Settled (e.dispatch id w) gone ∧ ∀ x ∈ (e.dispatch id w).wakes, x.2.Ending := by
  rcases h.dispatch_ending id hw with he | ⟨t, r, event, ws, ht, hcl, he⟩
  · rw [he]
    exact ⟨_, .refl e e.wakes, hq⟩
  · rw [he]
    refine ⟨_, h.settled_close ht hcl, fun x hx => ?_⟩
    simp only [close, List.mem_append] at hx
    rcases hx with (hx | hx) | hx
    · exact hq x hx
    · exact hcl.ending x hx
    · exact ending_parentWake _ _ _ x hx

/-- what every such dispatch keeps, the whole run keeps -/
theorem Coherent.ending_induction {P : Engine γ → Prop}
    (step : ∀ e id w rest, e.Coherent [] → e.wakes = (id, w) :: rest → w.Ending →
      (∀ x ∈ rest, x.2.Ending) → P e → P ({ e with wakes := rest }.dispatch id w))
    (h : e.Coherent []) (hq : ∀ x ∈ e.wakes, x.2.Ending) (hp : P e) :
    P e.run ∧ e.run.wakes = [] := by
  let Q (e : Engine γ) : Prop := e.Coherent [] ∧ (∀ x ∈ e.wakes, x.2.Ending) ∧ P e
  have hstep (e : Engine γ) (id : ProcedureId) (w : Wake) (rest : List (ProcedureId × Wake))
      (hcons : e.wakes = (id, w) :: rest) (hQ : Q e) :
      Q ({ e with wakes := rest }.dispatch id w) := by
    obtain ⟨h, hq, hp⟩ := hQ
    have hq' := hq
    rw [hcons, List.forall_mem_cons] at hq'
    obtain ⟨gone, hs, hwakes⟩ := (h.wakes rest).dispatch_settled id hq'.1 hq'.2
    exact ⟨(h.wakes rest).without hs.toWithout, hwakes, step e id w rest h hcons hq'.1 hq'.2 hp⟩
  obtain ⟨⟨-, -, hp⟩, hnil⟩ := run_induction (P := Q) hstep ⟨h, hq, hp⟩
  exact ⟨hp, hnil⟩

theorem Coherent.run_ending (h : e.Coherent []) (hq : ∀ x ∈ e.wakes, x.2.Ending) :
    ∃ gone, e.Settled e.run gone ∧ e.run.wakes = [] := by
  obtain ⟨⟨gone, hs⟩, hnil⟩ := h.ending_induction (P := fun e' => ∃ gone, e.Settled e' gone)
    (fun e' id w rest h' hcons hw hrest ⟨gone, hs⟩ => by
      have h'' := h'.wakes rest
      obtain ⟨gone', hs', -⟩ := h''.dispatch_settled id hw hrest
      exact ⟨_, (hs.trans h' (.refl e' rest)).trans h'' hs'⟩) hq ⟨_, .refl e e.wakes⟩
  exact ⟨gone, hs, hnil⟩

/-- the run that ends one instance and all that goes with it -/
theorem Coherent.run_close (h : e.Coherent []) (hw : e.wakes = []) {id : ProcedureId} {t : Task}
    (ht : e.tasks.get? id = some t) {r : Result} {event : Event}
    {ws : List (ProcedureId × Wake)} (hcl : e.Closes t r event ws) :
    ∃ gone, e.Settled (e.close id t r event ws).run gone ∧ gone id ∧
      (e.close id t r event ws).run.wakes = [] := by
  have hc := h.settled_close ht hcl
  have h' := h.without hc.toWithout
  obtain ⟨gone, hs, hnil⟩ := h'.run_ending (hcl.ending_close hw id)
  exact ⟨_, hc.trans h' hs, .inl rfl, hnil⟩

theorem cancel_unknown {id : ProcedureId} (ht : e.tasks.get? id = none) :
    e.cancel id = (false, e) := by
  simp [cancel, isLive, ht]

theorem Coherent.cancel_eq (h : e.Coherent []) (hw : e.wakes = []) {id : ProcedureId} {t : Task}
    (ht : e.tasks.get? id = some t) : e.cancel id = (true, (e.close id t t.machine.cancellation
      (.procedureCancelled t.machine.id) t.machine.followUps).run) := by
  have hl := h.isTerminal ht
  rw [cancel, if_pos (by simp [isLive, ht, hl]), run_wake hw, dispatch_cancel ht hl h.standing]

theorem Coherent.cancel_cases (h : e.Coherent []) (hw : e.wakes = []) (id : ProcedureId) :
    e.cancel id = (false, e) ∧ e.tasks.get? id = none ∨
    ∃ gone e', e.cancel id = (true, e') ∧ e.Settled e' gone ∧ gone id ∧ e'.wakes = [] := by
  cases ht : e.tasks.get? id with
  | none => exact .inl ⟨cancel_unknown ht, rfl⟩
  | some t =>
    obtain ⟨gone, hs, hg, hnil⟩ := h.run_close hw ht .cancelled
    exact .inr ⟨gone, _, h.cancel_eq hw ht, hs, hg, hnil⟩

theorem Coherent.handleMessage_backs (h : e.Coherent []) (hw : e.wakes = []) {m : PeerMessage}
    {id : ProcedureId} {t : Task} {r : Rejection} {delay : Duration}
    (hb : e.Backs m id t r delay) : e.handleMessage m = (true, e.backedOff id t r delay) := by
  obtain ⟨-, hx, -, ha⟩ := h.of_backs hb
  rw [handleMessage, hb.recipient]
  simp only
  rw [run_wake hw, dispatch_rejected hb.task hx (h.suspended hb.task) hb.rejection hb.wait
    hb.retries]
  have hnil : (e.backedOff id t r delay).wakes = [] := by
    rw [backedOff, backOff_eq ha, hw]
  exact congrArg _ (run_of_wakes_nil hnil)

/-- A message is dropped, is the answer for the instance that takes it, or sends that into a
backoff. -/
theorem Coherent.handleMessage_spec (h : e.Coherent []) (hw : e.wakes = []) (m : PeerMessage) :
    e.handleMessage m = (false, e) ∨
    (∃ id t r event, e.tasks.get? id = some t ∧ t.machine.waitingFor = .response ∧
      r.kind = t.machine.kind ∧ r.isCancelled = false ∧ event.announced? = none ∧
      e.handleMessage m = (true, (e.close id t r event []).run)) ∨
    ∃ id t r delay, e.Backs m id t r delay := by
  cases hr : e.recipient? m with
  | none => exact .inl (by simp [handleMessage, hr])
  | some id =>
    obtain ⟨t, ht, -, hx⟩ := h.of_recipient hr
    rcases Machine.resume_message_cases hx e.results with
      ⟨m', event, r, hres, hm, hk, hu, he⟩ | ⟨r, delay, hrej, hwait, hretry⟩
    · have hresponse : t.machine.waitingFor = .response := by
        simp only [Machine.expects, Bool.and_eq_true, beq_iff_eq] at hx
        exact hx.1
      refine .inr (.inl ⟨id, t, r, event, ht, hresponse, hk, hu, he, ?_⟩)
      simp only [handleMessage, hr]
      rw [run_wake hw, dispatch_complete ht hx hres hm]
    · exact .inr (.inr ⟨id, t, r, delay, hr, ht, hrej, hwait, hretry⟩)

theorem Coherent.handleMessage_cases (h : e.Coherent []) (hw : e.wakes = []) (m : PeerMessage) :
    e.handleMessage m = (false, e) ∨
    (∃ gone e', e.handleMessage m = (true, e') ∧ e.Settled e' gone ∧ e'.wakes = []) ∨
    ∃ id t r delay, e.Backs m id t r delay := by
  rcases h.handleMessage_spec hw m with hd | ⟨id, t, r, event, ht, hwait, hk, hu, he, hm⟩ | hb
  · exact .inl hd
  · obtain ⟨gone, hs, -, hnil⟩ := h.run_close hw ht (.answered hwait hk hu he)
    exact .inr (.inl ⟨gone, _, hm, hs, hnil⟩)
  · exact .inr (.inr hb)

end Engine

end NgapProcedures
