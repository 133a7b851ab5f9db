import NgapProcedures.Proofs.Engine.Log
import NgapProcedures.Proofs.Engine.Told
import NgapProcedures.Proofs.Engine.Waits

/-! What an operation makes of one instance, and what it tells of it. The instance stays as it is and
nothing is told, it takes a step of its own that is told by one event, or it goes. A name that nobody
has may be given to a new instance, and then its launch is told first. -/

namespace NgapProcedures

/-- what tells of the launch of a machine -/
def Machine.overture (m : Machine) : List Event :=
  .procedureLaunched m.id m.kind.name m.entity :: m.request?.toList.map fun _ => .requestSent m.id 1

namespace Engine

variable {γ : Type}

/-- the operation delivers a message to the instance -/
def Delivers (op : Operation) (e : Engine γ) (id : ProcedureId) : Prop :=
  ∃ m, op = .message m ∧ e.recipient? m = some id

inductive Settles (op : Operation) (e : Engine γ) (id : ProcedureId) (t : Task) :
    Result → List Event → Prop where
  | cancelled (hop : ¬Delivers op e id) :
      Settles op e id t t.machine.cancellation [.procedureCancelled id]
  | answered {m : PeerMessage} {outcome : RetryOutcome Unit} {r : Result} (hop : op = .message m)
      (hrec : e.recipient? m = some id) (hv : t.machine.verdict? m.pdu = some outcome)
      (hr : r.retryOutcome? = some outcome) : Settles op e id t r [outcome.farewell id]
  | informed {c : AmfConnection} {n : Nat} {outcome : RetryOutcome NgSetupResponse}
      (hm : t.machine = .connection c n) :
      Settles op e id t (.connection (AmfConnection.outcomeOf outcome)) []

inductive Becomes (op : Operation) (e e' : Engine γ) (id : ProcedureId) :
    Option Task → List Event → Prop where
  | absent (hn : e'.tasks.get? id = none) : Becomes op e e' id none []
  | launched {u : Task} (hu : e'.tasks.get? id = some u) (rest : List Event) :
      Becomes op e e' id none
        (.procedureLaunched id u.machine.kind.name u.machine.entity :: rest)
  | undone (hn : e'.tasks.get? id = none) (kind : String) (entity : EntityId)
      (rest : List Event) :
      Becomes op e e' id none (.procedureLaunched id kind entity :: rest)
  | kept {t : Task} (hop : ¬Delivers op e id) (ht : e'.tasks.get? id = some t) :
      Becomes op e e' id (some t) []
  | backedOff {t : Task} {m : PeerMessage} {r : Rejection} {delay : Duration}
      (hop : op = .message m) (hb : e.Backs m id t r delay)
      (ht : e'.tasks.get? id = some { t with machine := t.machine.backedOff r }) :
      Becomes op e e' id (some t)
        [.backoffStarted id t.machine.nextAttempt (.ofNatClamp delay.millis)]
  | resent {t : Task} (hop : op = .advance) (hd : id ∈ expiring e.armed e.timers.advance.1)
      (hw : t.machine.waitingFor = .timer)
      (ht : e'.tasks.get? id = some { t with machine := t.machine.resent }) :
      Becomes op e e' id (some t) [.requestSent id t.machine.resent.transmissions]
  | settled {t : Task} {r : Result} {events : List Event} (hend : Settles op e id t r events)
      (hn : e'.tasks.get? id = none) (hv : e'.Vacant t.slot (some r)) :
      Becomes op e e' id (some t) events
  | removed {t : Task} (hop : op = .remove t.machine.entity) (hn : e'.tasks.get? id = none)
      (hv : e'.Vacant t.slot none) : Becomes op e e' id (some t) []

section

variable {e e' : Engine γ} {id q : ProcedureId} {op : Operation} {t : Task}

/-- whoever has no task any more leaves a vacant slot -/
theorem Coherent.vacant_of_none (h : e.Coherent []) {gone : ProcedureId → Prop}
    (hw : e.Without e' gone) (ht : e.tasks.get? id = some t) (hn : e'.tasks.get? id = none) :
    e'.Vacant t.slot (e'.results.get? t.slot) := by
  refine h.vacant hw ht (Classical.byContradiction fun hg => ?_)
  have := hw.tasks.2 ⟨ht, hg⟩
  simp [hn] at this

theorem Undergoes.becomes {events : List Event} {e₁ : Engine γ} (hc : e₁.Coherent [])
    {gone : ProcedureId → Prop} (hw : e₁.Without e' gone) (hop : ¬Delivers op e id)
    (h : e'.Undergoes id (e₁.tasks.get? id) events) :
    Becomes op e e' id (e₁.tasks.get? id) events := by
  generalize ho : e₁.tasks.get? id = o at h
  cases h with
  | absent hn => exact .absent hn
  | kept ht => exact .kept hop ht
  | cancelled hn hr => exact .settled (.cancelled hop) hn (hr ▸ hc.vacant_of_none hw ho hn)
  | informed hm hn hr => exact .settled (.informed hm) hn (hr ▸ hc.vacant_of_none hw ho hn)

theorem Becomes.same {e₁ : Engine γ} (hop : ¬Delivers op e id)
    (ht : e'.tasks.get? id = e₁.tasks.get? id) : Becomes op e e' id (e₁.tasks.get? id) [] := by
  cases hget : e₁.tasks.get? id with
  | none => exact .absent (ht.trans hget)
  | some t => exact .kept hop (ht.trans hget)

theorem Coherent.vacant_close (h : e.Coherent []) (ht : e.tasks.get? q = some t) (r : Result)
    (event : Event) (ws : List (ProcedureId × Wake)) :
    (e.close q t r event ws).Vacant t.slot (some r) := by
  have hv := h.vacant (h.without_close ht r event ws) ht rfl
  rwa [h.result_close ht r event ws] at hv

theorem told_overture (id : ProcedureId) (m : Machine) :
    told id m.overture = if id = m.id then m.overture else [] := by
  have hs : ∀ event ∈ m.overture, event.subject? = some m.id := by
    intro event hm
    rcases List.mem_cons.1 hm with rfl | hm
    · rfl
    · obtain ⟨_, -, rfl⟩ := List.mem_map.1 hm
      rfl
  split
  · next he => exact List.filter_eq_self.2 fun event hm => by simp [hs event hm, he]
  · next he => exact List.filter_eq_nil_iff.2 fun event hm => by simp [hs event hm, Ne.symm he]

/-- a machine is taken in under a name that nobody has -/
theorem becomes_insert {e₁ : Engine γ} {m : Machine} {slot : Nat} (hop : ¬Delivers op e id)
    (hnew : e₁.tasks.get? m.id = none)
    (hget : e'.tasks.get? id = if id = m.id then some ⟨m.launched, slot⟩ else e₁.tasks.get? id) :
    Becomes op e e' id (e₁.tasks.get? id) (told id m.overture) := by
  rw [told_overture]
  split
  · next he =>
    subst he
    obtain ⟨-, hentity, hkind⟩ := m.static_launched
    rw [hnew, Machine.overture, ← hentity, ← hkind]
    exact .launched (hget.trans (if_pos rfl)) _
  · next he => exact .same hop (hget.trans (if_neg he))

theorem not_delivers (hop : ∀ m, op ≠ .message m) : ¬Delivers op e id :=
  fun ⟨m, he, _⟩ => hop m he

variable [Gateway γ]

theorem logged_eq {events : List Event} (hop : op ≠ .drainEvents)
    (h : (e.step op).2.log = e.log ++ events) : e.logged op = events :=
  List.append_cancel_left ((e.log_step hop).symm.trans h)

theorem log_enroll (e : Engine γ) (m : Machine) : (e.enroll m).log = e.log ++ m.overture := rfl

/-- who is cancelled ends, and so do those that go with it -/
theorem Coherent.becomes_cancel (h : e.Coherent []) (hw : e.wakes = [])
    (ht : e.tasks.get? q = some t) (op : Operation) (hop : ∀ m, op ≠ .message m) (e₀ : Engine γ)
    (id : ProcedureId) : ∃ new, (e.cancel q).2.log = e.log ++ new ∧
      Becomes op e₀ (e.cancel q).2 id (e.tasks.get? id) (told id new) := by
  obtain ⟨gone, hs, -⟩ := h.run_close hw ht .cancelled
  obtain ⟨new, hlog, hu⟩ := h.undergoes_cancel hw ht id
  rw [h.cancel_eq hw ht] at hlog hu ⊢
  exact ⟨new, hlog, hu.becomes h hs.toWithout (not_delivers hop)⟩

/-- who is cancelled and is not a connection is gone, and is told of once -/
theorem Coherent.told_cancel (h : e.Coherent []) (hw : e.wakes = [])
    (ht : e.tasks.get? q = some t) (hk : t.machine.kind ≠ .amfConnection) :
    (e.cancel q).2.tasks.get? q = none ∧
      (e.cancel q).2.Vacant t.slot (some t.machine.cancellation) ∧
      ∃ new, (e.cancel q).2.log = e.log ++ new ∧ told q new = [.procedureCancelled q] := by
  obtain ⟨gone, hs, hg, -⟩ := h.run_close hw ht .cancelled
  obtain ⟨new, hlog, hu⟩ := h.undergoes_cancel hw ht q
  rw [h.cancel_eq hw ht] at hlog hu ⊢
  generalize hnew : told q new = events at hu
  rw [ht] at hu
  cases hu with
  | kept ht' => exact absurd hg (hs.tasks.1 ht').2
  | cancelled hn hr => exact ⟨hn, hr ▸ h.vacant_of_none hs.toWithout ht hn, new, hlog, hnew⟩
  | informed hm => exact absurd (by rw [hm]; rfl) hk

/-- A connection that is not refused at once has launched its setup. Both are taken in, or the setup is
cancelled again. -/
theorem Steady.told_connect (h : e.Steady) {controller : EntityId}
    {request : ProcedureRequest NgSetupRequest} {setup : Handle}
    (hi : e.isActive controller .amfConnection = false)
    (hok : (e.launchSetup request).1 = .ok setup) :
    let s : Machine := .setup (.new setup.id request)
    let e' := (e.launchConnection controller request).2
    let events := told setup.id (e.logged (.connect controller request))
    e'.tasks.get? setup.id = some ⟨s.launched, setup.slot⟩ ∧ events = s.overture ∨
      e'.tasks.get? setup.id = none ∧ e'.Vacant setup.slot (some s.cancellation) ∧
        events = s.overture ++ [.procedureCancelled setup.id] := by
  rcases launchConnection_cases h.coherent h.quiet controller request with
    ⟨error, ids, -, hrefused⟩ | ⟨registry, hm, -, hok', hcase⟩
  · simp [hrefused hi] at hok
  obtain rfl := Except.ok.inj (hok'.symm.trans hok)
  intro s e' events
  have hlogged {new : List Event} (hl : e'.log = e.log ++ (s.overture ++ new)) :
      events = s.overture ++ told s.id new := by
    have hevents : events = told s.id (s.overture ++ new) :=
      congrArg (told s.id) (logged_eq (by simp) hl)
    rw [hevents, told_append, told_overture, if_pos rfl]
  have hget : (e.enrollSetup request registry).tasks.get? s.id = some ⟨s.launched, e.started⟩ :=
    Table.get?_insert_self ..
  have hlog : (e.enrollSetup request registry).log = e.log ++ s.overture := rfl
  have hc := h.coherent.enrollSetup hm
  have hwakes : (e.enrollSetup request registry).wakes = [] := h.quiet
  generalize e.enrollSetup request registry = e₁ at hcase hget hlog hc hwakes
  rcases hcase with ⟨error, he⟩ | ⟨registry', hm', he⟩
  · have he' : e' = ({ e₁ with ids := e₁.ids.draw.2 }.cancel s.id).2 := congrArg Prod.snd he
    obtain ⟨hn, hv, new, hnew, htold⟩ :=
      (hc.draw e₁.ids.draw.2).told_cancel hwakes hget nofun
    rw [← he'] at hn hv hnew
    have hevents := hlogged (by rw [hnew, ← List.append_assoc, ← hlog])
    exact .inr ⟨hn, hv, htold ▸ hevents⟩
  · let c : Machine := .connection ⟨e₁.ids.draw.1, controller, request.entity, e.ids.draw.1,
      .created, none⟩ e.started
    have he' : e' = { e₁.link s.id with registry := registry' }.enroll c := congrArg Prod.snd he
    have hne : s.id ≠ c.id := by
      intro heq
      have hnew : e₁.tasks.get? c.id = none := hm'.new
      rw [← heq, hget] at hnew
      simp at hnew
    refine .inl ⟨?_, ?_⟩
    · rw [he']
      exact (Table.get?_insert_other _ _ hne).trans hget
    · rw [hlogged ?_, told_overture, if_neg hne, List.append_nil]
      rw [he', ← List.append_assoc, ← hlog]
      rfl

theorem Steady.becomes_connect (h : e.Steady) (controller : EntityId)
    (request : ProcedureRequest NgSetupRequest) (id : ProcedureId) :
    Becomes (.connect controller request) e (e.launchConnection controller request).2 id
      (e.tasks.get? id) (told id (e.logged (.connect controller request))) := by
  let s : Machine := .setup (.new e.ids.draw.1 request)
  have hlogged (events : List Event)
      (hl : (e.launchConnection controller request).2.log = e.log ++ events) :
      e.logged (.connect controller request) = events := logged_eq (by simp) hl
  have hop : ¬Delivers (.connect controller request) e id := not_delivers (by simp)
  rcases launchConnection_cases h.coherent h.quiet controller request with
    ⟨error, ids, he, -⟩ | ⟨registry, hm, hi, hok, hcase⟩
  · rw [hlogged [] (by simp [he]), he]
    exact .same hop rfl
  by_cases hid : id = s.id
  · obtain ⟨-, hentity, hkind⟩ := s.static_launched
    have hnew : e.tasks.get? s.id = none := hm.new
    rw [hid, hnew]
    rcases h.told_connect hi hok with ⟨hget, hevents⟩ | ⟨hn, -, hevents⟩
    · rw [show told s.id _ = s.overture from hevents, Machine.overture, ← hentity, ← hkind]
      exact .launched hget _
    · rw [show told s.id _ = _ from hevents]
      exact .undone hn ..
  -- whoever has another name than the setup has it already when the setup is taken in
  have hget : (e.enrollSetup request registry).tasks.get? id = e.tasks.get? id :=
    Table.get?_insert_other _ _ hid
  have hself : (e.enrollSetup request registry).tasks.get? s.id =
    some ⟨s.launched, e.started⟩ := Table.get?_insert_self ..
  have hlog : (e.enrollSetup request registry).log = e.log ++ s.overture := rfl
  have hc := h.coherent.enrollSetup hm
  have hwakes : (e.enrollSetup request registry).wakes = [] := h.quiet
  generalize e.enrollSetup request registry = e₁ at hcase hget hself hlog hc hwakes
  rw [← hget]
  rcases hcase with ⟨error, he⟩ | ⟨registry', hm', he⟩
  · obtain ⟨new, hnew, hb⟩ := (hc.draw e₁.ids.draw.2).becomes_cancel hwakes hself
      (.connect controller request) (by simp) e id
    rw [hlogged (s.overture ++ new) ?_, he, told_append, told_overture, if_neg hid, List.nil_append]
    · exact hb
    · rw [he, ← List.append_assoc, ← hlog]
      exact hnew
  · let c : Machine := .connection ⟨e₁.ids.draw.1, controller, request.entity, e.ids.draw.1,
      .created, none⟩ e.started
    rw [hlogged (s.overture ++ c.overture) ?_, told_append, told_overture id s, if_neg hid,
      List.nil_append, he]
    · exact becomes_insert hop hm'.new (Table.get?_insert ..)
    · rw [he, ← List.append_assoc, ← hlog]
      rfl

theorem Coherent.handleMessage_verdict (h : e.Coherent []) (hw : e.wakes = []) {m : PeerMessage}
    (hrec : e.recipient? m = some q) (ht : e.tasks.get? q = some t) {outcome : RetryOutcome Unit}
    (hv : t.machine.verdict? m.pdu = some outcome) :
    ∃ r, r.retryOutcome? = some outcome ∧ e.Closes t r (outcome.farewell q) [] ∧
      e.handleMessage m = (true, (e.close q t r (outcome.farewell q) []).run) := by
  obtain ⟨u, hu, -, hx⟩ := h.of_recipient hrec
  obtain rfl := Option.some.inj (hu.symm.trans ht)
  obtain ⟨m', r, hres, hm, hr⟩ := Machine.resume_verdict hx hv e.results
  rw [h.named ht] at hres
  have hwait : u.machine.waitingFor = .response := by
    simp only [Machine.expects, Bool.and_eq_true, beq_iff_eq] at hx
    exact hx.1
  refine ⟨r, hr, ?_, ?_⟩
  · rcases Machine.resume_message_cases hx e.results with
      ⟨m'', event, r', hres', hm', hk, hc, he⟩ | hback
    · obtain ⟨rfl, hevent⟩ := Prod.mk.inj (Option.some.inj (hres.symm.trans hres'))
      obtain rfl := Option.some.inj (hm.result.symm.trans hm'.result)
      obtain rfl : outcome.farewell q = event := by simpa using hevent
      exact .answered hwait hk hc he
    · rw [Machine.verdict?, verdict?_eq_none_iff.2 hback] at hv
      simp at hv
  · simp only [handleMessage, hrec]
    rw [run_wake hw, dispatch_complete ht hx hres hm]

theorem Steady.becomes_message (h : e.Steady) (m : PeerMessage) (id : ProcedureId) :
    Becomes (.message m) e (e.handleMessage m).2 id (e.tasks.get? id)
      (told id (e.logged (.message m))) := by
  have hlogged (events : List Event) (hl : (e.handleMessage m).2.log = e.log ++ events) :
      e.logged (.message m) = events := logged_eq (by simp) hl
  cases hrec : e.recipient? m with
  | none =>
    have he : e.handleMessage m = (false, e) := by simp [handleMessage, hrec]
    rw [hlogged [] (by simp [he]), he]
    exact .same (by simp [Delivers, hrec]) rfl
  | some q =>
    obtain ⟨t, ht, -, -⟩ := h.coherent.of_recipient hrec
    have hother (hid : ¬id = q) : ¬Delivers (.message m) e id := by
      simpa [Delivers, hrec] using Ne.symm hid
    cases hv : t.machine.verdict? m.pdu with
    | none =>
      obtain ⟨r, delay, hr, hw, hb⟩ := verdict?_eq_none_iff.1 hv
      have hbacks : e.Backs m q t r delay := ⟨hrec, ht, hr, hw, hb⟩
      have he := h.coherent.handleMessage_backs h.quiet hbacks
      obtain ⟨-, -, -, ha⟩ := h.coherent.of_backs hbacks
      rw [hlogged [.backoffStarted q t.machine.nextAttempt (.ofNatClamp delay.millis)]
        (by rw [he, backedOff, backOff_eq ha, h.coherent.named ht]), he, backedOff, backOff_eq ha]
      have hget := Table.get?_insert e.tasks q id { t with machine := t.machine.backedOff r }
      by_cases hid : id = q
      · subst hid
        rw [told_cons_self rfl, ht]
        exact .backedOff rfl hbacks (hget.trans (if_pos rfl))
      · rw [told_cons_other (by simpa [Event.subject?] using Ne.symm hid)]
        exact .same (hother hid) (hget.trans (if_neg hid))
    | some outcome =>
      obtain ⟨r, hr, hcl, he⟩ := h.coherent.handleMessage_verdict h.quiet hrec ht hv
      have hsub := outcome.subject?_farewell q
      by_cases hid : id = q
      · subst hid
        have hgone : (e.close id t r (outcome.farewell id) []).Undergoes id none [] :=
          .absent (Table.get?_erase_self ..)
        obtain ⟨new, hlog, hu⟩ := hgone.run_close h.coherent h.quiet ht hcl
        have hc := h.coherent.without (h.coherent.without_close ht r (outcome.farewell id) [])
        obtain ⟨gone, hs, -⟩ := hc.run_ending (hcl.ending_close h.quiet id)
        have hv' := (h.coherent.vacant_close ht r (outcome.farewell id) []).without hs.toWithout
        rw [hlogged _ ((congrArg (·.2.log) he).trans hlog), he, told_cons_self hsub, ht]
        generalize hnew : told id new = toldNew at hu
        cases hu with
        | absent hn => exact .settled (.answered rfl hrec hv hr) hn hv'
      · obtain ⟨gone, hs, -, -⟩ := h.coherent.run_close h.quiet ht hcl
        obtain ⟨new, hlog, hu⟩ := ((Undergoes.start e id).close h.coherent ht hid _ _ _).run_close
          h.coherent h.quiet ht hcl
        rw [hlogged _ ((congrArg (·.2.log) he).trans hlog), he,
          told_cons_other (by simpa [hsub] using Ne.symm hid)]
        exact hu.becomes h.coherent hs.toWithout (hother hid)

theorem Steady.becomes_cancel (h : e.Steady) (q id : ProcedureId) :
    Becomes (.cancel q) e (e.cancel q).2 id (e.tasks.get? id)
      (told id (e.logged (.cancel q))) := by
  cases ht : e.tasks.get? q with
  | none =>
    have he := cancel_unknown ht
    rw [logged_eq (by simp) (show (e.step (.cancel q)).2.log = e.log ++ [] by simp [step, he]), he]
    exact .same (not_delivers (by simp)) rfl
  | some t =>
    obtain ⟨new, hlog, hb⟩ := h.coherent.becomes_cancel h.quiet ht (.cancel q) (by simp) e id
    have hlogged : e.logged (.cancel q) = new := logged_eq (by simp) hlog
    rw [hlogged]
    exact hb

theorem Steady.becomes_advance (h : e.Steady) (id : ProcedureId) :
    Becomes .advance e e.advance id (e.tasks.get? id) (told id (e.logged .advance)) := by
  obtain ⟨tasks, armed, he, -, htasks⟩ := h.coherent.advance_spec h.quiet
  have hlog : (e.step .advance).2.log = e.log ++
      e.resends (expiring e.armed e.timers.advance.1) := congrArg Engine.log he
  have hget : e.advance.tasks.get? id = _ := (congrArg (·.tasks.get? id) he).trans (htasks id)
  rw [logged_eq (by simp) hlog, resends, told_filterMap ?_ (expiring_nodup _ _)]
  · by_cases hd : id ∈ expiring e.armed e.timers.advance.1
    · obtain ⟨timer, -, -, hk⟩ := mem_expiring_iff.1 hd
      obtain ⟨⟨t, ht⟩, -⟩ := h.coherent.armed hk
      have hwait := (h.coherent.backoff ht).2 (.inl ⟨_, hk⟩)
      obtain ⟨message, hm, -⟩ := Machine.resume_timerFired (h.coherent.suspended ht) hwait e.results
      rw [if_pos hd, ht] at hget
      rw [if_pos hd, ht]
      simpa [hm] using Becomes.resent rfl hd hwait hget
    · rw [if_neg hd] at hget ⊢
      exact .same (not_delivers (by simp)) hget
  · intro q event hq
    obtain ⟨t, -, hq⟩ := Option.bind_eq_some_iff.1 hq
    obtain ⟨message, -, rfl⟩ := Option.map_eq_some_iff.1 hq
    rfl

theorem Steady.becomes_remove (h : e.Steady) (entity : EntityId) (id : ProcedureId) :
    Becomes (.remove entity) e (e.remove entity).2 id (e.tasks.get? id)
      (told id (e.logged (.remove entity))) := by
  have hw := (h.coherent.without_remove entity).1
  have hlog : (e.step (.remove entity)).2.log = e.log ++ [] :=
    (log_foldl_remove e [entity]).trans (List.append_nil _).symm
  rw [logged_eq (by simp) hlog]
  cases ht : e.tasks.get? id with
  | none =>
    refine .absent (Option.eq_none_iff_forall_ne_some.2 fun u hu => ?_)
    have := (hw.tasks.1 hu).1
    simp [ht] at this
  | some t =>
    by_cases hg : id ∈ e.registry.ids entity
    · obtain ⟨u, hu, rfl⟩ := h.coherent.registered.1 hg
      obtain rfl := Option.some.inj (ht.symm.trans hu)
      have hv := h.coherent.vacant_remove ht hg
      exact .removed rfl (Option.eq_none_iff_forall_ne_some.2 fun u hu => (hw.tasks.1 hu).2 hg) hv
    · exact .kept (not_delivers (by simp)) (hw.tasks.2 ⟨ht, hg⟩)

theorem Steady.becomes_transportLost (h : e.Steady) (id : ProcedureId) :
    Becomes .transportLost e e.transportLost.2 id (e.tasks.get? id)
      (told id (e.logged .transportLost)) := by
  obtain ⟨-, gone, ht⟩ := h.coherent.tornDown h.quiet
  have hn : e.transportLost.2.tasks.get? id = none := by simp [ht.tasks]
  have hlast : told id (if e.registry.entities = [] then []
      else [.transactionsLost e.registry.entities]) = [] := by
    split <;> rfl
  have hlogged : e.logged .transportLost = _ :=
    logged_eq (by simp) (ht.log.trans (List.append_assoc ..))
  rw [hlogged, told_append, hlast, List.append_nil, ← List.filterMap_eq_map,
    told_filterMap (by rintro q _ ⟨⟩; rfl) ht.nodup]
  cases hget : e.tasks.get? id with
  | none =>
    have hnot : id ∉ gone := fun hm => by
      obtain ⟨t, hm⟩ := (ht.gone_iff id).1 hm
      simp [hget] at hm
    rw [if_neg hnot]
    exact .absent hn
  | some t =>
    have hm := (ht.gone_iff id).2 ⟨t, hget⟩
    have hv := h.coherent.vacant (ht.without h.coherent) hget trivial
    rw [(ht.results _ _).2 (.inr ⟨id, hm, t, hget, rfl, rfl⟩)] at hv
    rw [if_pos hm]
    exact .settled (.cancelled (not_delivers (by simp))) hn hv

/-- What an operation makes of an instance is what it tells of it. -/
theorem Steady.becomes_step (h : e.Steady) (hop : ∀ k, op ≠ .advanceBy k) (id : ProcedureId) :
    Becomes op e (e.step op).2 id (e.tasks.get? id) (told id (e.logged op)) := by
  -- a launch is refused, or its machine taken in
  have hlaunch {m : Machine} {ids : IdSource} {registry : Registry} (hop : op ≠ .drainEvents)
      (hmsg : ∀ m, op ≠ .message m) (hnew : e.tasks.get? m.id = none)
      (he : (e.step op).2 = { e with ids, registry }.enroll m) :
      Becomes op e (e.step op).2 id (e.tasks.get? id) (told id (e.logged op)) := by
    rw [logged_eq hop (congrArg Engine.log he)]
    exact becomes_insert (not_delivers hmsg) hnew
      ((congrArg (·.tasks.get? id) he).trans (Table.get?_insert ..))
  have hsame {ids : IdSource} (hop : op ≠ .drainEvents) (hmsg : ∀ m, op ≠ .message m)
      (he : (e.step op).2 = { e with ids }) :
      Becomes op e (e.step op).2 id (e.tasks.get? id) (told id (e.logged op)) := by
    rw [logged_eq hop (show (e.step op).2.log = e.log ++ [] by simp [he])]
    exact .same (not_delivers hmsg) (by rw [he])
  cases op with
  | setup request =>
    rcases launchSetup_cases h.quiet request with ⟨error, he⟩ | ⟨registry, hm, he⟩
    · exact hsame (by simp) (by simp) (congrArg Prod.snd he)
    · exact hlaunch (by simp) (by simp) hm.new (congrArg Prod.snd he)
  | update request =>
    rcases launchConfigUpdate_cases h.quiet request with ⟨error, he⟩ | ⟨registry, hm, he⟩
    · exact hsame (by simp) (by simp) (congrArg Prod.snd he)
    · exact hlaunch (by simp) (by simp) hm.new (congrArg Prod.snd he)
  | connect controller request => exact h.becomes_connect controller request id
  | message m => exact h.becomes_message m id
  | advance => exact h.becomes_advance id
  | advanceBy k => exact absurd rfl (hop k)
  | cancel q => exact h.becomes_cancel q id
  | remove entity => exact h.becomes_remove entity id
  | transportLost => exact h.becomes_transportLost id
  | drainEvents => exact .same (not_delivers (by simp)) rfl

end

end Engine

end NgapProcedures
