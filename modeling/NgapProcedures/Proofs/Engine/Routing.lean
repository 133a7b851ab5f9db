import NgapProcedures.Proofs.Engine.Delivery

/-! Whom a message reaches. It is delivered when an instance under its entity waits for such a reply,
and that is one instance at most. Nobody else is touched by the delivery but the connection that
launched the recipient, which ends when the recipient does, and nothing is sent. -/

namespace NgapProcedures.Engine

variable {γ : Type}

structure Awaits (e : Engine γ) (m : PeerMessage) (q : ProcedureId) (t : Task) : Prop where
  registered : q ∈ e.registry.ids m.entity
  task : e.tasks.get? q = some t
  waits : t.machine.waitingFor = .response
  accepts : t.machine.accepts m.pdu = true

structure Past (e : Engine γ) (q : ProcedureId) (t : Task) : Prop where
  gone : e.tasks.get? q = none
  unregistered : ∀ entity, q ∉ e.registry.ids entity
  result : ∃ r, e.results.get? t.slot = some r

structure Retrying (e e' : Engine γ) (q : ProcedureId) (t : Task) : Prop where
  backoff : ∃ u, e'.tasks.get? q = some u ∧ u.slot = t.slot ∧ u.machine.waitingFor = .timer
  registered : ∀ entity, q ∈ e'.registry.ids entity ↔ q ∈ e.registry.ids entity
  result : e'.results.get? t.slot = none

/-- What a delivery to an instance comes to: the instance goes on to wait for a timer or ends, and
nobody else is touched but the connection that launched it, which ends if the instance does. -/
structure Confined (e e' : Engine γ) (q : ProcedureId) (t : Task) : Prop where
  recipient : e.Retrying e' q t ∨ e'.Past q t
  others : ∀ p u, e.tasks.get? p = some u → p ≠ q → u.machine.setupSlot? ≠ some t.slot →
    e.Spares e' p u
  launcher : ∀ p u, e.tasks.get? p = some u → u.machine.setupSlot? = some t.slot →
    (e'.Past p u ↔ e'.Past q t) ∧ (¬e'.Past q t → e.Spares e' p u)
  single : ∀ p p' u u', e.tasks.get? p = some u → e.tasks.get? p' = some u' →
    u.machine.setupSlot? = some t.slot → u'.machine.setupSlot? = some t.slot → p = p'
  slots : ∀ n, n ≠ t.slot → (∀ p u, e.tasks.get? p = some u →
    u.machine.setupSlot? = some t.slot → u.slot ≠ n) → e'.results.get? n = e.results.get? n
  newcomers : ∀ p, e.tasks.get? p = none →
    e'.tasks.get? p = none ∧ ∀ entity, p ∉ e'.registry.ids entity

section

variable {e e' : Engine γ} {m : PeerMessage} {q : ProcedureId} {t : Task}

theorem Coherent.recipient?_eq_some_iff (h : e.Coherent []) :
    e.recipient? m = some q ↔ ∃ t, e.Awaits m q t := by
  constructor
  · intro hr
    obtain ⟨t, ht, he, hx⟩ := h.of_recipient hr
    simp only [Machine.expects, Bool.and_eq_true, beq_iff_eq] at hx
    exact ⟨t, h.registered.2 ⟨t, ht, he⟩, ht, hx.1, hx.2⟩
  · rintro ⟨t, ha⟩
    obtain ⟨u, hu, he⟩ := h.registered.1 ha.registered
    obtain rfl := Option.some.inj (hu.symm.trans ha.task)
    exact h.recipient?_eq hu he (by simp [Machine.expects, ha.waits, ha.accepts])

theorem Past.not_spared (h : e'.Past q t) : ¬e.Spares e' q t := by
  intro hs
  have hget := hs.task
  simp [h.gone] at hget

/-- the connection that launched a setup is joined to it -/
theorem Attached.joined_of_setupSlot (ha : e.Attached) (hc : e.Coherent [])
    (ht : e.tasks.get? q = some t) {p : ProcedureId} {u : Task} (hu : e.tasks.get? p = some u)
    (hs : u.machine.setupSlot? = some t.slot) : ∃ c slot', u = ⟨.connection c t.slot, slot'⟩ ∧
      c.id = p ∧ c.setup = q ∧ e.Joined c t.slot slot' := by
  obtain ⟨machine, slot'⟩ := u
  cases machine with
  | setup p => simp [Machine.setupSlot?] at hs
  | update p => simp [Machine.setupSlot?] at hs
  | connection c slot =>
    obtain rfl : slot = t.slot := by simpa [Machine.setupSlot?] using hs
    rcases ha.connection hu with hj | hv
    · obtain ⟨v, hv, hslot, -⟩ := hj.setup
      exact ⟨c, slot', rfl, hc.named hu, hc.apart hv ht hslot, hj⟩
    · exact absurd rfl (hv.unoccupied ht)

theorem Delivery.past {xs : List Change} (h : e.Delivery m xs) (hc : e.Coherent [])
    (hc' : (e.changeAll xs).Coherent []) (ht : e.tasks.get? q = some t) {r : Result} {event : Event}
    (hx : .ended q t r event ∈ xs) : (e.changeAll xs).Past q t := by
  have hgone := e.changeAll_tasks_of_mem (h.pairwise hc) hx
  exact ⟨hgone, hc'.unregistered hgone,
    r, e.changeAll_results_of_mem (h.pairwise hc) hx rfl (hc.slot ht).2⟩

/-- whoever is neither the recipient nor the connection that launched it is not changed -/
theorem Delivery.avoids {xs : List Change} (h : e.Delivery m xs) (hc : e.Coherent [])
    (hr : e.recipient? m = some q) (ht : e.tasks.get? q = some t) {p : ProcedureId} {u : Task}
    (hu : e.tasks.get? p = some u) (hne : p ≠ q) (hs : u.machine.setupSlot? ≠ some t.slot) :
    ∀ x ∈ xs, p ≠ x.id ∧ u.slot ≠ x.slot := by
  intro x hx
  have hid : p ≠ x.id := by
    rintro rfl
    rcases h.subject_of_recipient hr ht hx with ⟨hid, -⟩ | ⟨c, hid, -, hj⟩
    · exact hne hid
    · obtain rfl := Option.some.inj (hu.symm.trans (hid ▸ hj.connection))
      exact hs rfl
  obtain ⟨v, hv, hslot⟩ := h.known hx
  exact ⟨hid, fun he => hid (hc.apart hu hv (he.trans hslot.symm))⟩

/-- the changes that a message comes to for its recipient -/
theorem Delivery.cases_of_recipient {xs : List Change} (h : e.Delivery m xs)
    (hr : e.recipient? m = some q) (ht : e.tasks.get? q = some t) :
    (∃ u delay event, xs = [.delayed q u delay event] ∧ u.slot = t.slot ∧
      u.machine.waitingFor = .timer) ∨
    (∃ r event, xs = [.ended q t r event] ∧ ∀ c slot', c.setup = q → ¬e.Joined c t.slot slot') ∨
    ∃ c slot' r r' event event', xs = [.ended q t r event,
        .ended c.id ⟨.connection c t.slot, slot'⟩ r' event'] ∧
      c.setup = q ∧ e.Joined c t.slot slot' := by
  cases h with
  | dropped hr' => simp [hr] at hr'
  | delayed hb =>
    obtain rfl := Option.some.inj (hb.recipient.symm.trans hr)
    obtain rfl := Option.some.inj (hb.task.symm.trans ht)
    exact .inl ⟨_, _, _, rfl, rfl, Machine.waitingFor_backedOff _ hb.retries⟩
  | alone hr' ht' _ hj =>
    obtain rfl := Option.some.inj (hr'.symm.trans hr)
    obtain rfl := Option.some.inj (ht'.symm.trans ht)
    exact .inr (.inl ⟨_, _, rfl, fun c slot' => hj c _ slot'⟩)
  | together hr' ht' _ hj =>
    obtain rfl := Option.some.inj (hr'.symm.trans hr)
    obtain rfl := Option.some.inj (ht'.symm.trans ht)
    exact .inr (.inr ⟨_, _, _, _, _, _, rfl, rfl, hj⟩)

theorem Delivery.confined {xs : List Change} (h : e.Delivery m xs) (ha : e.Attached)
    (hc : e.Coherent []) (hc' : (e.changeAll xs).Coherent []) (hr : e.recipient? m = some q)
    (ht : e.tasks.get? q = some t) : e.Confined (e.changeAll xs) q t where
  recipient := by
    rcases h.cases_of_recipient hr ht with
      ⟨u, delay, event, rfl, hslot, hw⟩ | ⟨r, event, rfl, -⟩ | ⟨c, slot', r, r', event, event', rfl, -⟩
    · exact .inl ⟨⟨u, Table.get?_insert_self .., hslot, hw⟩, fun _ => Iff.rfl, (hc.slot ht).2⟩
    · exact .inr (h.past hc hc' ht List.mem_cons_self)
    · exact .inr (h.past hc hc' ht List.mem_cons_self)
  others p u hu hne hs := e.changeAll_spares hu (h.avoids hc hr ht hu hne hs)
  launcher p u hu hs := by
    obtain ⟨c, slot', rfl, rfl, rfl, hj⟩ := ha.joined_of_setupSlot hc ht hu hs
    rcases h.cases_of_recipient hr ht with
      ⟨u, delay, event, rfl, hslot, -⟩ | ⟨r, event, rfl, hj'⟩ |
      ⟨c', slot'', r, r', event, event', rfl, hset, hj'⟩
    · have hne := hc.apart_of_parent hj.connection hj.parent
      have hspares : e.Spares (e.changeAll [.delayed c.setup u delay event]) c.id
          ⟨.connection c t.slot, slot'⟩ := by
        refine e.changeAll_spares hu (List.forall_mem_singleton.2 ⟨hne, fun he => ?_⟩)
        exact hne (hc.apart hu ht (he.trans hslot))
      refine ⟨iff_of_false (fun hp => hp.not_spared hspares) fun hp => ?_, fun _ => hspares⟩
      have hself : (e.tasks.insert c.setup u).get? c.setup = none := hp.gone
      simp at hself
    · exact absurd hj (hj' c slot' rfl)
    · have hid := hj'.parent
      rw [hset, hj.parent] at hid
      have hcon := hj'.connection
      rw [← Option.some.inj hid, hu] at hcon
      obtain ⟨rfl, rfl⟩ : c = c' ∧ slot' = slot'' := by simpa using hcon
      have hpast := h.past hc hc' ht List.mem_cons_self
      exact ⟨iff_of_true (h.past hc hc' hu (List.mem_cons_of_mem _ List.mem_cons_self)) hpast,
        fun hn => absurd hpast hn⟩
  single p p' u u' hu hu' hs hs' := by
    obtain ⟨c, _, -, rfl, rfl, hj⟩ := ha.joined_of_setupSlot hc ht hu hs
    obtain ⟨c', _, -, rfl, he, hj'⟩ := ha.joined_of_setupSlot hc ht hu' hs'
    have hp := hj'.parent
    rw [he, hj.parent] at hp
    exact Option.some.inj hp
  slots n hn hall := by
    refine e.changeAll_results_other fun x hx => ?_
    rcases h.subject_of_recipient hr ht hx with ⟨-, hslot⟩ | ⟨c, -, -, hj⟩
    · exact hslot ▸ hn
    · exact (hall c.id _ hj.connection rfl).symm
  newcomers p hp := by
    have hgone : (e.changeAll xs).tasks.get? p = none := by
      refine (e.changeAll_tasks_other ?_).trans hp
      rintro x hx rfl
      obtain ⟨u, hu, -⟩ := h.known hx
      simp [hp] at hu
    exact ⟨hgone, hc'.unregistered hgone⟩

end

/-- A message is delivered exactly if an instance under its entity waits for such a reply. There is one
such instance then, and the delivery is confined to it and the connection that launched it. A message
that is dropped changes nothing, and no message leads to another being sent. -/
theorem routing_exact [Gateway γ] (gateway : γ) (ids : IdSource) (config : EngineConfig)
    (history : List Operation) (m : PeerMessage) :
    let e := (Engine.new gateway ids config).after history
    let e' := (e.handleMessage m).2
    ((e.handleMessage m).1 = true ↔ ∃ q t, e.Awaits m q t) ∧
    (∀ q t, e.Awaits m q t → (∀ q' t', e.Awaits m q' t' → q' = q) ∧ e.Confined e' q t) ∧
    ((e.handleMessage m).1 = false → e' = e) ∧
    e'.gateway = e.gateway ∧ e.sends (.message m) = [] := by
  intro e e'
  have hs : e.Steady := steady_after gateway ids config history
  have hs' : e'.Steady := hs.after [.message m]
  have ha : e.Attached := attached_after gateway ids config history
  obtain ⟨xs, hx⟩ := hs.exists_delivery m
  have heq : e.handleMessage m = ((e.recipient? m).isSome, e.changeAll xs) :=
    hx.handleMessage_eq hs ha
  have he' : e' = e.changeAll xs := congrArg Prod.snd heq
  refine ⟨?_, fun q t haw => ⟨fun q' t' haw' => ?_, ?_⟩, fun hdropped => ?_, ?_, ?_⟩
  · rw [heq, Option.isSome_iff_exists]
    exact exists_congr fun q => hs.coherent.recipient?_eq_some_iff
  · have hr := hs.coherent.recipient?_eq_some_iff.2 ⟨t, haw⟩
    have hr' := hs.coherent.recipient?_eq_some_iff.2 ⟨t', haw'⟩
    exact Option.some.inj (hr'.symm.trans hr)
  · have hr := hs.coherent.recipient?_eq_some_iff.2 ⟨t, haw⟩
    rw [he'] at hs' ⊢
    exact hx.confined ha hs.coherent hs'.coherent hr haw.task
  · have hr : e.recipient? m = none := by simpa [heq] using hdropped
    simp [e', handleMessage, hr]
  · rw [he']
    exact e.changeAll_gateway
  · exact handleMessageSends_eq_nil hs.quiet m

end NgapProcedures.Engine
