import NgapProcedures.Proofs.Engine.Dispatch
import NgapProcedures.Proofs.Timer.Service

/-! What holds of an engine outside a teardown, also while its queue is being run: the tasks are
suspended, the registry lists exactly them, those in a backoff have an armed timer, and their slots
are their own and still empty. `due` names those whose timer has fired but which have not been woken
yet. -/

namespace NgapProcedures

theorem Results.get?_record {results : Results} {slot : Nat} (h : results.get? slot = none)
    (r : Result) (n : Nat) :
    (results.record slot (some r)).get? n = if n = slot then some r else results.get? n := by
  have hc : results.contains slot = false := (Table.contains_eq_false_iff _ _).2 h
  simp [Results.record, hc, Table.get?_insert]

structure Task.Keeps (t t' : Task) : Prop where
  id : t'.machine.id = t.machine.id
  entity : t'.machine.entity = t.machine.entity
  kind : t'.machine.kind = t.machine.kind
  slot : t'.slot = t.slot

namespace Task.Keeps

variable {tasks : Table ProcedureId Task} {id q : ProcedureId} {t t' u : Task}

theorem refl (t : Task) : t.Keeps t := ⟨rfl, rfl, rfl, rfl⟩

/-- Whoever is there after the step of an instance was there before it. -/
theorem of_insert (h : t.Keeps t') (ht : tasks.get? id = some t)
    (hq : (tasks.insert id t').get? q = some u) : ∃ v, tasks.get? q = some v ∧ v.Keeps u := by
  rcases Table.get?_insert_eq_some_iff.1 hq with ⟨rfl, rfl⟩ | ⟨-, hq⟩
  · exact ⟨t, ht, h⟩
  · exact ⟨u, hq, .refl u⟩

theorem insert (h : t.Keeps t') (ht : tasks.get? id = some t) (hq : tasks.get? q = some u) :
    ∃ v, (tasks.insert id t').get? q = some v ∧ u.Keeps v := by
  by_cases he : q = id
  · subst he
    obtain rfl := Option.some.inj (ht.symm.trans hq)
    exact ⟨t', Table.get?_insert_self .., h⟩
  · exact ⟨u, (Table.get?_insert_other _ _ he).trans hq, .refl u⟩

end Task.Keeps

namespace Engine

variable {γ : Type}

structure Coherent (e : Engine γ) (due : List ProcedureId) : Prop where
  standing : e.tearingDown = false
  named : ∀ {id t}, e.tasks.get? id = some t → t.machine.id = id
  suspended : ∀ {id t}, e.tasks.get? id = some t → t.machine.Suspended
  registered : ∀ {entity id}, id ∈ e.registry.ids entity ↔
    ∃ t, e.tasks.get? id = some t ∧ t.machine.entity = entity
  inhabited : e.registry.Inhabited
  single : ∀ {id id' t t'}, e.tasks.get? id = some t → e.tasks.get? id' = some t' →
    t.machine.entity = t'.machine.entity → t.machine.kind = t'.machine.kind → id = id'
  backoff : ∀ {id t}, e.tasks.get? id = some t →
    (t.machine.waitingFor = .timer ↔ (∃ k, e.armed.get? id = some k) ∨ id ∈ due)
  armed : ∀ {id k}, e.armed.get? id = some k → (∃ t, e.tasks.get? id = some t) ∧ id ∉ due
  due_known : ∀ {id}, id ∈ due → ∃ t, e.tasks.get? id = some t
  due_nodup : due.Nodup
  parent : ∀ {s c}, e.parents.get? s = some c →
    ∃ t, e.tasks.get? s = some t ∧ t.machine.kind = .ngSetup
  slot : ∀ {id t}, e.tasks.get? id = some t →
    t.slot < e.started ∧ e.results.get? t.slot = none
  fresh : ∀ {n}, e.started ≤ n → e.results.get? n = none
  apart : ∀ {id id' t t'}, e.tasks.get? id = some t → e.tasks.get? id' = some t' →
    t.slot = t'.slot → id = id'
  live : ∀ {k}, e.timers.isPending k = true → ∃ id, e.armed.get? id = some k

theorem coherent_new (gateway : γ) (ids : IdSource) (config : EngineConfig) :
    (Engine.new gateway ids config).Coherent [] := by
  constructor <;> simp [new, Registry.ids, Registry.find?, Registry.inhabited_empty,
    TimerService.new, TimerService.isPending, Table.contains]

/-- coherence is not about the queue, the log, the gateway or the supply of names -/
theorem Coherent.transfer {e e' : Engine γ} {due : List ProcedureId} (h : e.Coherent due)
    (hd : e'.tearingDown = e.tearingDown) (ht : e'.tasks = e.tasks)
    (hr : e'.registry = e.registry) (ha : e'.armed = e.armed) (hp : e'.parents = e.parents)
    (hs : e'.started = e.started) (hres : e'.results = e.results) (htm : e'.timers = e.timers) :
    e'.Coherent due := by
  constructor
  · rw [hd]; exact h.standing
  · rw [ht]; exact h.named
  · rw [ht]; exact h.suspended
  · rw [ht, hr]; exact h.registered
  · rw [hr]; exact h.inhabited
  · rw [ht]; exact h.single
  · rw [ht, ha]; exact h.backoff
  · rw [ht, ha]; exact h.armed
  · rw [ht]; exact h.due_known
  · exact h.due_nodup
  · rw [hp, ht]; exact h.parent
  · rw [ht, hs, hres]; exact h.slot
  · rw [hs, hres]; exact h.fresh
  · rw [ht]; exact h.apart
  · rw [htm, ha]; exact h.live

section

variable {e : Engine γ} {due : List ProcedureId}

theorem Coherent.wakes (h : e.Coherent due) (ws : List (ProcedureId × Wake)) :
    ({ e with wakes := ws }).Coherent due :=
  h.transfer rfl rfl rfl rfl rfl rfl rfl rfl

theorem Coherent.isTerminal (h : e.Coherent due) {id : ProcedureId} {t : Task}
    (ht : e.tasks.get? id = some t) : t.machine.isTerminal = false :=
  (h.suspended ht).isTerminal

/-- whoever has no task is registered nowhere -/
theorem Coherent.unregistered (h : e.Coherent []) {q : ProcedureId} (hq : e.tasks.get? q = none)
    (entity : EntityId) : q ∉ e.registry.ids entity := by
  intro hm
  obtain ⟨u, hu, -⟩ := h.registered.1 hm
  simp [hq] at hu

theorem isPending_timersWithout (e : Engine γ) (id : ProcedureId) (k : TimerId) :
    (e.timersWithout id).isPending k = true ↔
      e.timers.isPending k = true ∧ e.armed.get? id ≠ some k := by
  unfold timersWithout
  cases ha : e.armed.get? id with
  | none => simp
  | some timer =>
    rw [TimerService.isPending_cancel, ne_eq, ne_eq, Option.some.injEq, eq_comm (a := timer)]

/-- an engine without some of the instances it had: all that is kept of them is gone, and at most
their own slots have been written -/
structure Without (e e' : Engine γ) (gone : ProcedureId → Prop) : Prop where
  tearingDown : e'.tearingDown = e.tearingDown
  started : e'.started = e.started
  gateway : e'.gateway = e.gateway
  timers : ∃ live, e'.timers = { e.timers with live }
  tasks : ∀ {q u}, e'.tasks.get? q = some u ↔ e.tasks.get? q = some u ∧ ¬gone q
  registry : ∀ {entity q}, q ∈ e'.registry.ids entity ↔ q ∈ e.registry.ids entity ∧ ¬gone q
  inhabited : e.registry.Inhabited → e'.registry.Inhabited
  armed : ∀ {q k}, e'.armed.get? q = some k ↔ e.armed.get? q = some k ∧ ¬gone q
  parents : ∀ {s c}, e'.parents.get? s = some c → e.parents.get? s = some c ∧ ¬gone s
  results : ∀ {n}, (∀ q u, e.tasks.get? q = some u → gone q → u.slot ≠ n) →
    e'.results.get? n = e.results.get? n
  live : ∀ {k}, e'.timers.isPending k = true ↔
    e.timers.isPending k = true ∧ ∀ q, gone q → e.armed.get? q ≠ some k

theorem Without.refl (e : Engine γ) (ws : List (ProcedureId × Wake)) :
    e.Without { e with wakes := ws } fun _ => False := by
  constructor
  case timers => exact ⟨e.timers.live, rfl⟩
  all_goals simp

theorem Without.trans {a b c : Engine γ} {gone gone' : ProcedureId → Prop}
    (h : a.Without b gone) (h' : b.Without c gone') :
    a.Without c fun q => gone q ∨ gone' q where
  tearingDown := h'.tearingDown.trans h.tearingDown
  started := h'.started.trans h.started
  gateway := h'.gateway.trans h.gateway
  timers := by
    obtain ⟨l, hl⟩ := h.timers
    obtain ⟨l', hl'⟩ := h'.timers
    exact ⟨l', by rw [hl', hl]⟩
  tasks {_ _} := by rw [h'.tasks, h.tasks, not_or, and_assoc]
  registry {_ _} := by rw [h'.registry, h.registry, not_or, and_assoc]
  inhabited hi := h'.inhabited (h.inhabited hi)
  armed {_ _} := by rw [h'.armed, h.armed, not_or, and_assoc]
  parents hs := by
    obtain ⟨hs, hg'⟩ := h'.parents hs
    obtain ⟨hs, hg⟩ := h.parents hs
    exact ⟨hs, not_or.2 ⟨hg, hg'⟩⟩
  results {n} hn := by
    refine (h'.results fun q u hu hg => ?_).trans (h.results fun q u hu hg => hn q u hu (.inl hg))
    exact hn q u (h.tasks.1 hu).1 (.inr hg)
  live {k} := by
    rw [h'.live, h.live, and_assoc]
    refine and_congr_right fun _ => ⟨fun ⟨h1, h2⟩ q hg => ?_, fun h1 => ⟨fun q hg => h1 q (.inl hg),
      fun q hg ha => h1 q (.inr hg) (h.armed.1 ha).1⟩⟩
    intro ha
    by_cases hq : gone q
    · exact h1 q hq ha
    · exact h2 q (hg.resolve_left hq) (h.armed.2 ⟨ha, hq⟩)

theorem Coherent.without {e' : Engine γ} {gone : ProcedureId → Prop} (h : e.Coherent [])
    (hw : e.Without e' gone) : e'.Coherent [] where
  standing := hw.tearingDown.trans h.standing
  named hq := h.named (hw.tasks.1 hq).1
  suspended hq := h.suspended (hw.tasks.1 hq).1
  registered {entity q} := by
    rw [hw.registry, h.registered]
    constructor
    · rintro ⟨⟨u, hu, he⟩, hg⟩
      exact ⟨u, hw.tasks.2 ⟨hu, hg⟩, he⟩
    · rintro ⟨u, hu, he⟩
      obtain ⟨hu, hg⟩ := hw.tasks.1 hu
      exact ⟨⟨u, hu, he⟩, hg⟩
  inhabited := hw.inhabited h.inhabited
  single hq hq' := h.single (hw.tasks.1 hq).1 (hw.tasks.1 hq').1
  backoff {q u} hq := by
    obtain ⟨hq, hg⟩ := hw.tasks.1 hq
    rw [h.backoff hq]
    simp [hw.armed, hg]
  armed {q k} hq := by
    obtain ⟨hq, hg⟩ := hw.armed.1 hq
    obtain ⟨⟨u, hu⟩, hdue⟩ := h.armed hq
    exact ⟨⟨u, hw.tasks.2 ⟨hu, hg⟩⟩, hdue⟩
  due_known hq := by simp at hq
  due_nodup := .nil
  parent hq := by
    obtain ⟨hq, hg⟩ := hw.parents hq
    obtain ⟨u, hu, hkind⟩ := h.parent hq
    exact ⟨u, hw.tasks.2 ⟨hu, hg⟩, hkind⟩
  slot {q u} hq := by
    obtain ⟨hq, hg⟩ := hw.tasks.1 hq
    rw [hw.started, hw.results fun q' u' hq' hg' he => hg (h.apart hq' hq he ▸ hg')]
    exact h.slot hq
  fresh {n} hn := by
    rw [hw.started] at hn
    rw [hw.results fun q u hq _ he => absurd (h.slot hq).1 (by omega)]
    exact h.fresh hn
  apart hq hq' := h.apart (hw.tasks.1 hq).1 (hw.tasks.1 hq').1
  live {k} hk := by
    obtain ⟨hp, hg⟩ := hw.live.1 hk
    obtain ⟨q, hq⟩ := h.live hp
    exact ⟨q, hw.armed.2 ⟨hq, fun hgone => hg q hgone hq⟩⟩

theorem Coherent.result_without {e' : Engine γ} {gone : ProcedureId → Prop} (h : e.Coherent [])
    (hw : e.Without e' gone) {n : Nat} {r : Result} (hr : e.results.get? n = some r) :
    e'.results.get? n = some r := by
  refine (hw.results fun q u hu _ he => ?_).trans hr
  rw [← he, (h.slot hu).2] at hr
  simp at hr

theorem timers_timersWithout (e : Engine γ) (id : ProcedureId) :
    ∃ live, e.timersWithout id = { e.timers with live } := by
  unfold timersWithout
  split
  · exact ⟨_, rfl⟩
  · exact ⟨_, rfl⟩

theorem now_timersWithout (e : Engine γ) (id : ProcedureId) :
    (e.timersWithout id).now = e.timers.now := by
  obtain ⟨live, hl⟩ := e.timers_timersWithout id
  rw [hl]

theorem Coherent.without_close (h : e.Coherent []) {id : ProcedureId} {t : Task}
    (ht : e.tasks.get? id = some t) (r : Result) (event : Event)
    (ws : List (ProcedureId × Wake)) : e.Without (e.close id t r event ws) (· = id) where
  tearingDown := rfl
  started := rfl
  gateway := rfl
  timers := e.timers_timersWithout id
  tasks := Table.get?_erase_eq_some_iff
  registry {entity q} := by
    refine Registry.mem_ids_deregister.trans ⟨fun ⟨hq, hne⟩ => ⟨hq, fun he => hne ⟨?_, he⟩⟩,
      fun ⟨hq, hne⟩ => ⟨hq, fun hc => hne hc.2⟩⟩
    obtain ⟨u, hu, rfl⟩ := h.registered.1 hq
    rw [he, ht] at hu
    rw [Option.some.inj hu]
  inhabited hi := hi.deregister _ _
  armed := Table.get?_erase_eq_some_iff
  parents := Table.get?_erase_eq_some_iff.1
  results {n} hn :=
    (Results.get?_record (h.slot ht).2 r n).trans (if_neg (Ne.symm (hn id t ht rfl)))
  live {k} := by
    refine (isPending_timersWithout e id k).trans (and_congr_right fun _ => ?_)
    exact ⟨fun hne q hq => hq ▸ hne, fun hne => hne id rfl⟩

/-- one procedure fewer: its result is in its slot -/
theorem Coherent.result_close (h : e.Coherent []) {id : ProcedureId} {t : Task}
    (ht : e.tasks.get? id = some t) (r : Result) (event : Event)
    (ws : List (ProcedureId × Wake)) : (e.close id t r event ws).results.get? t.slot = some r :=
  (Results.get?_record (h.slot ht).2 r t.slot).trans (if_pos rfl)

/-- An instance takes its next step and keeps its place. -/
theorem Coherent.change {e' : Engine γ} {due' : List ProcedureId} (h : e.Coherent due)
    {id : ProcedureId} {t : Task} (ht : e.tasks.get? id = some t) {m : Machine} (hm : m.Suspended)
    (hstatic : m.id = t.machine.id ∧ m.entity = t.machine.entity ∧ m.kind = t.machine.kind)
    (hd : e'.tearingDown = e.tearingDown)
    (htasks : e'.tasks = e.tasks.insert id { t with machine := m })
    (hreg : e'.registry = e.registry) (hp : e'.parents = e.parents)
    (hs : e'.started = e.started) (hres : e'.results = e.results)
    (ha : ∀ q, q ≠ id → e'.armed.get? q = e.armed.get? q)
    (hdue : ∀ q, q ≠ id → (q ∈ due' ↔ q ∈ due)) (hnodup : due'.Nodup)
    (hself : m.waitingFor = .timer ↔ (∃ k, e'.armed.get? id = some k) ∨ id ∈ due')
    (hapart : ∀ k, e'.armed.get? id = some k → id ∉ due')
    (hlive : ∀ k, e'.timers.isPending k = true → ∃ q, e'.armed.get? q = some k) :
    e'.Coherent due' := by
  have hkeeps : t.Keeps { t with machine := m } := ⟨hstatic.1, hstatic.2.1, hstatic.2.2, rfl⟩
  have hback {q : ProcedureId} {u : Task} (hq : e'.tasks.get? q = some u) :
      ∃ v, e.tasks.get? q = some v ∧ v.Keeps u := hkeeps.of_insert ht (htasks ▸ hq)
  have hforth {q : ProcedureId} {v : Task} (hq : e.tasks.get? q = some v) :
      ∃ u, e'.tasks.get? q = some u ∧ v.Keeps u := htasks ▸ hkeeps.insert ht hq
  have hcases {q : ProcedureId} {u : Task} (hq : e'.tasks.get? q = some u) :
      q = id ∧ u = { t with machine := m } ∨ q ≠ id ∧ e.tasks.get? q = some u :=
    Table.get?_insert_eq_some_iff.1 (htasks ▸ hq)
  constructor
  case standing => exact hd.trans h.standing
  case named =>
    intro q u hq
    obtain ⟨v, hv, hk⟩ := hback hq
    exact hk.id.trans (h.named hv)
  case suspended =>
    intro q u hq
    rcases hcases hq with ⟨-, rfl⟩ | ⟨-, hq⟩
    · exact hm
    · exact h.suspended hq
  case registered =>
    intro entity q
    rw [hreg, h.registered]
    constructor
    · rintro ⟨v, hv, rfl⟩
      obtain ⟨u, hu, hk⟩ := hforth hv
      exact ⟨u, hu, hk.entity⟩
    · rintro ⟨u, hu, rfl⟩
      obtain ⟨v, hv, hk⟩ := hback hu
      exact ⟨v, hv, hk.entity.symm⟩
  case inhabited => exact hreg ▸ h.inhabited
  case single =>
    intro q q' u u' hq hq' he hkind
    obtain ⟨v, hv, hk⟩ := hback hq
    obtain ⟨v', hv', hk'⟩ := hback hq'
    exact h.single hv hv' (by rw [← hk.entity, ← hk'.entity, he])
      (by rw [← hk.kind, ← hk'.kind, hkind])
  case backoff =>
    intro q u hq
    rcases hcases hq with ⟨rfl, rfl⟩ | ⟨hne, hq⟩
    · exact hself
    · rw [h.backoff hq, ha q hne, hdue q hne]
  case armed =>
    intro q k hq
    by_cases he : q = id
    · subst he
      obtain ⟨u, hu, -⟩ := hforth ht
      exact ⟨⟨u, hu⟩, hapart k hq⟩
    · rw [ha q he] at hq
      obtain ⟨⟨v, hv⟩, hnot⟩ := h.armed hq
      obtain ⟨u, hu, -⟩ := hforth hv
      exact ⟨⟨u, hu⟩, fun hc => hnot ((hdue q he).1 hc)⟩
  case due_known =>
    intro q hq
    obtain ⟨v, hv⟩ : ∃ v, e.tasks.get? q = some v := by
      by_cases he : q = id
      · exact ⟨t, he ▸ ht⟩
      · exact h.due_known ((hdue q he).1 hq)
    obtain ⟨u, hu, -⟩ := hforth hv
    exact ⟨u, hu⟩
  case due_nodup => exact hnodup
  case parent =>
    intro s c hsc
    obtain ⟨v, hv, hsetup⟩ := h.parent (hp ▸ hsc)
    obtain ⟨u, hu, hk⟩ := hforth hv
    exact ⟨u, hu, hk.kind.trans hsetup⟩
  case slot =>
    intro q u hq
    obtain ⟨v, hv, hk⟩ := hback hq
    rw [hs, hres, hk.slot]
    exact h.slot hv
  case fresh =>
    rw [hs, hres]
    exact h.fresh
  case apart =>
    intro q q' u u' hq hq' he
    obtain ⟨v, hv, hk⟩ := hback hq
    obtain ⟨v', hv', hk'⟩ := hback hq'
    exact h.apart hv hv' (by rw [← hk.slot, ← hk'.slot, he])
  case live => exact fun {k} hk => hlive k hk

theorem Coherent.unarmed (h : e.Coherent due) {id : ProcedureId} {t : Task}
    (ht : e.tasks.get? id = some t) (hw : t.machine.waitingFor ≠ .timer) :
    e.armed.get? id = none ∧ id ∉ due := by
  have hn := mt (h.backoff ht).2 hw
  refine ⟨Option.eq_none_iff_forall_ne_some.2 fun k hk => hn (.inl ⟨k, hk⟩), fun hd => hn (.inr hd)⟩

theorem backOff_eq {id : ProcedureId} (ha : e.armed.get? id = none) (t : Task) (r : Rejection)
    (delay : Duration) (event : Event) :
    e.backOff id t r delay event = { e with
      tasks := e.tasks.insert id { t with machine := t.machine.backedOff r }
      timers := (e.timers.schedule id delay).2
      armed := e.armed.insert id e.timers.nextId
      log := e.log ++ [event] } := by
  simp [backOff, armTimer, releaseTimer_eq, timersWithout, ha, Table.erase_of_get? ha,
    TimerService.schedule, TimerService.scheduleTicks]

theorem Coherent.backOff (h : e.Coherent []) {id : ProcedureId} {t : Task}
    (ht : e.tasks.get? id = some t) (hw : t.machine.waitingFor = .response)
    (hb : t.machine.retries = true) (r : Rejection) (delay : Duration) (event : Event) :
    (e.backOff id t r delay event).Coherent [] := by
  have ha := (h.unarmed ht (by simp [hw])).1
  rw [backOff_eq ha]
  have harm (q : ProcedureId) : (e.armed.insert id e.timers.nextId).get? q =
      if q = id then some e.timers.nextId else e.armed.get? q := Table.get?_insert ..
  refine h.change ht ((h.suspended ht).backedOff r hb) (t.machine.static_backedOff r) rfl rfl rfl
    rfl rfl rfl (fun q hq => (harm q).trans (if_neg hq)) (by simp) .nil ?_ (by simp) (fun k hk => ?_)
  · simp [Machine.waitingFor_backedOff r hb, harm]
  · rcases (TimerService.isPending_scheduleTicks ..).1 hk with rfl | hk
    · exact ⟨id, (harm id).trans (if_pos rfl)⟩
    · obtain ⟨q, hq⟩ := h.live hk
      refine ⟨q, (harm q).trans ((if_neg fun he => ?_).trans hq)⟩
      rw [he, ha] at hq
      simp at hq

theorem Coherent.transmit [Gateway γ] {id : ProcedureId} (h : e.Coherent (id :: due)) {t : Task}
    (ht : e.tasks.get? id = some t) (hw : t.machine.waitingFor = .timer) (message : PeerMessage)
    (attempt : UInt32) :
    (e.transmit id { t with machine := t.machine.resent } message attempt).Coherent due := by
  have hs := h.suspended ht
  have hnodup := List.nodup_cons.1 h.due_nodup
  have ha : e.armed.get? id = none := Option.eq_none_iff_forall_ne_some.2 fun k hk =>
    (h.armed hk).2 (by simp)
  refine h.change ht (hs.resent hw) t.machine.static_resent rfl rfl rfl rfl rfl rfl
    (fun q _ => rfl) (fun q hq => by simp [hq]) hnodup.2 ?_ (fun k _ => hnodup.1)
    (fun k hk => h.live hk)
  simp [Machine.waitingFor_resent hs hw, ha, hnodup.1, Engine.transmit]

end

end Engine

end NgapProcedures
