import NgapProcedures.Proofs.Engine.Coherence

/-! Launches. One that is refused costs a name, and a connection that cannot follow its setup takes
the setup with it. One that is accepted adds a task under a fresh name to an entity without a live
procedure of the kind. -/

namespace NgapProcedures.Engine

variable {γ : Type}

section

variable {e : Engine γ}

theorem Coherent.inactive_iff (h : e.Coherent []) {entity : EntityId} {kind : Kind} :
    e.isActive entity kind = false ↔ ∀ q t, e.tasks.get? q = some t →
      t.machine.entity = entity → t.machine.kind ≠ kind := by
  simp only [isActive, List.any_eq_false]
  constructor
  · intro hn q t ht he hk
    have := hn q (h.registered.2 ⟨t, ht, he⟩)
    simp [ht, hk, h.isTerminal ht] at this
  · intro hn q hq
    obtain ⟨t, ht, he⟩ := h.registered.1 hq
    simp [ht, hn q t ht he]

theorem Coherent.draw (h : e.Coherent []) (ids : IdSource) : ({ e with ids }).Coherent [] :=
  h.transfer rfl rfl rfl rfl rfl rfl rfl rfl

theorem Coherent.link (h : e.Coherent []) {s : ProcedureId} {t : Task}
    (ht : e.tasks.get? s = some t) (hk : t.machine.kind = .ngSetup) (c : ProcedureId) :
    ({ e with parents := e.parents.insert s c }).Coherent [] := by
  refine { h with parent := fun {s' c'} hs => ?_ }
  rcases Table.get?_insert_eq_some_iff.1 hs with ⟨rfl, -⟩ | ⟨-, hs⟩
  · exact ⟨t, ht, hk⟩
  · exact h.parent hs

/-- a task is the new one, or it was there before under another name -/
theorem get?_tasks_start {m : Machine} {q : ProcedureId} {u : Task}
    (h : (e.start m).2.tasks.get? q = some u) :
    q = m.id ∧ u = ⟨m, e.started⟩ ∨ q ≠ m.id ∧ e.tasks.get? q = some u :=
  Table.get?_insert_eq_some_iff.1 h

end

/-- a fresh machine in its place, before its launch -/
def seat (e : Engine γ) (m : Machine) : Engine γ :=
  { e with
    tasks := e.tasks.insert m.id ⟨m, e.started⟩
    started := e.started + 1
    log := e.log ++ [.procedureLaunched m.id m.kind.name m.entity] }

variable [Gateway γ]

def enroll (e : Engine γ) (m : Machine) : Engine γ :=
  { e with
    tasks := e.tasks.insert m.id ⟨m.launched, e.started⟩
    started := e.started + 1
    gateway := m.request?.elim e.gateway fun message => (Gateway.send e.gateway message).2
    log := e.log ++ .procedureLaunched m.id m.kind.name m.entity ::
      m.request?.toList.map fun _ => .requestSent m.id 1 }

theorem dispatch_launch (e : Engine γ) {m : Machine} (hm : m.Fresh) :
    (e.seat m).dispatch m.id .launch = e.enroll m := by
  have hget : (e.seat m).tasks.get? m.id = some ⟨m, e.started⟩ := Table.get?_insert_self ..
  rw [dispatch_resumed hget hm.unlaunched (hm.opens _)]
  simp only [hm.suspended.isTerminal, hm.suspended.result?, Results.record, Bool.false_eq_true,
    ↓reduceIte, seat, Table.insert_insert]
  cases hr : m.request? <;> simp [Machine.opening, hr, performAll, perform, emit, enroll]

theorem run_start {e : Engine γ} {m : Machine} (hw : e.wakes = []) (hm : m.Fresh) :
    (e.start m).2.run = e.enroll m := by
  have hstart : (e.start m).2 = (e.seat m).wake m.id .launch := rfl
  rw [hstart, run_wake (show (e.seat m).wakes = [] from hw), e.dispatch_launch hm,
    run_of_wakes_nil (show (e.enroll m).wakes = [] from hw)]

structure Admissible (e : Engine γ) (m : Machine) (registry : Registry) : Prop where
  fresh : m.Fresh
  new : e.tasks.get? m.id = none
  inactive : e.isActive m.entity m.kind = false
  registered : e.registry.register m.entity m.id = .ok registry

section

variable {e : Engine γ} {m : Machine} {q : ProcedureId} {t : Task}

theorem get?_enroll_cases (hq : (e.enroll m).tasks.get? q = some t) :
    q = m.id ∧ t = ⟨m.launched, e.started⟩ ∨ q ≠ m.id ∧ e.tasks.get? q = some t :=
  Table.get?_insert_eq_some_iff.1 hq

theorem get?_enroll_of_new (hnew : e.tasks.get? m.id = none) (hq : e.tasks.get? q = some t) :
    (e.enroll m).tasks.get? q = some t :=
  Table.get?_insert_of_new hnew hq

end

theorem Coherent.enroll {e : Engine γ} (h : e.Coherent []) {m : Machine} {registry : Registry}
    (hadm : e.Admissible m registry) : ({ e with registry }.enroll m).Coherent [] := by
  obtain ⟨hm, hnew, hidle, hreg⟩ := hadm
  obtain ⟨hid, hentity, hkind⟩ := m.static_launched
  have hcases {q : ProcedureId} {t : Task}
      (hq : ({ e with registry }.enroll m).tasks.get? q = some t) :
      q = m.id ∧ t = ⟨m.launched, e.started⟩ ∨ q ≠ m.id ∧ e.tasks.get? q = some t :=
    get?_enroll_cases hq
  have hold {q : ProcedureId} {t : Task} (hq : e.tasks.get? q = some t) :
      ({ e with registry }.enroll m).tasks.get? q = some t := get?_enroll_of_new hnew hq
  have hidle' := h.inactive_iff.1 hidle
  constructor
  case standing => exact h.standing
  case named =>
    intro q t hq
    rcases hcases hq with ⟨rfl, rfl⟩ | ⟨-, hq⟩
    · exact hid
    · exact h.named hq
  case suspended =>
    intro q t hq
    rcases hcases hq with ⟨rfl, rfl⟩ | ⟨-, hq⟩
    · exact hm.suspended
    · exact h.suspended hq
  case registered =>
    intro entity q
    refine (Registry.mem_ids_register hreg).trans ?_
    rw [h.registered]
    constructor
    · rintro (⟨t, ht, he⟩ | ⟨rfl, rfl⟩)
      · exact ⟨t, hold ht, he⟩
      · exact ⟨⟨m.launched, e.started⟩, Table.get?_insert_self .., hentity⟩
    · rintro ⟨t, ht, he⟩
      rcases hcases ht with ⟨rfl, rfl⟩ | ⟨-, ht⟩
      · exact .inr ⟨he ▸ hentity, rfl⟩
      · exact .inl ⟨t, ht, he⟩
  case inhabited => exact h.inhabited.register hreg
  case single =>
    -- nobody else of the kind is at work for the entity
    intro q q' t t' hq hq' he hk
    rcases hcases hq with ⟨rfl, rfl⟩ | ⟨-, hq⟩ <;> rcases hcases hq' with ⟨rfl, rfl⟩ | ⟨-, hq'⟩
    · rfl
    · exact absurd (hk.symm.trans hkind) (hidle' _ _ hq' (he.symm.trans hentity))
    · exact absurd (hk.trans hkind) (hidle' _ _ hq (he.trans hentity))
    · exact h.single hq hq' he hk
  case backoff =>
    intro q t hq
    rcases hcases hq with ⟨rfl, rfl⟩ | ⟨-, hq⟩
    · refine iff_of_false hm.untimed ?_
      rintro (⟨k, hk⟩ | hd)
      · obtain ⟨⟨u, hu⟩, -⟩ := h.armed hk
        simp [hnew] at hu
      · simp at hd
    · exact h.backoff hq
  case armed =>
    intro q k hq
    obtain ⟨⟨u, hu⟩, hd⟩ := h.armed hq
    exact ⟨⟨u, hold hu⟩, hd⟩
  case due_known => simp
  case due_nodup => exact .nil
  case parent =>
    intro s c hs
    obtain ⟨u, hu, hk⟩ := h.parent hs
    exact ⟨u, hold hu, hk⟩
  case slot =>
    intro q t hq
    show t.slot < e.started + 1 ∧ _
    rcases hcases hq with ⟨rfl, rfl⟩ | ⟨-, hq⟩
    · exact ⟨Nat.lt_succ_self _, h.fresh (Nat.le_refl _)⟩
    · exact ⟨Nat.lt_succ_of_lt (h.slot hq).1, (h.slot hq).2⟩
  case fresh => exact fun {n} hn => h.fresh (Nat.le_of_succ_le hn)
  case apart =>
    -- the new slot is the first that was never given out
    intro q q' t t' hq hq' he
    rcases hcases hq with ⟨rfl, rfl⟩ | ⟨-, hq⟩ <;> rcases hcases hq' with ⟨rfl, rfl⟩ | ⟨-, hq'⟩
    · rfl
    · exact absurd he (Nat.ne_of_gt (h.slot hq').1)
    · exact absurd he (Nat.ne_of_lt (h.slot hq).1)
    · exact h.apart hq hq' he
  case live => exact h.live

def enrollSetup (e : Engine γ) (request : ProcedureRequest NgSetupRequest) (registry : Registry) :
    Engine γ :=
  { e with ids := e.ids.draw.2, registry }.enroll (.setup (.new e.ids.draw.1 request))

def link (e : Engine γ) (setup : ProcedureId) : Engine γ :=
  { e with ids := e.ids.draw.2, parents := e.parents.insert setup e.ids.draw.1 }

section

variable {e : Engine γ}

/-- an admissible machine is taken in -/
theorem launchRetry_eq (hw : e.wakes = []) {entity : EntityId} {kind : Kind}
    {machine : ProcedureId → Machine} (hf : ∀ id, (machine id).id = id ∧
      (machine id).entity = entity ∧ (machine id).kind = kind) {registry : Registry}
    (hm : e.Admissible (machine e.ids.draw.1) registry) :
    e.launchRetry entity kind machine = (.ok ⟨e.ids.draw.1, e.started⟩,
      { e with ids := e.ids.draw.2, registry }.enroll (machine e.ids.draw.1)) := by
  obtain ⟨hid, hentity, hkind⟩ := hf e.ids.draw.1
  have hc := (Table.contains_eq_false_iff _ _).2 hm.new
  have hi : ({ e with ids := e.ids.draw.2 }).isActive entity kind = false := by
    rw [← hentity, ← hkind]
    exact hm.inactive
  have hr := hm.registered
  rw [hid] at hc
  rw [hentity, hid] at hr
  have hrun := run_start (e := { e with ids := e.ids.draw.2, registry }) hw hm.fresh
  have hhandle : (({ e with ids := e.ids.draw.2, registry }).start
      (machine e.ids.draw.1)).1 = ⟨e.ids.draw.1, e.started⟩ := by simp [start, hid]
  rw [← hrun, ← hhandle]
  simp [launchRetry, allocateId, hc, hi, hr]

/-- A launch is refused, or the machine made for the fresh name is taken in. -/
theorem launchRetry_cases (hw : e.wakes = []) {entity : EntityId} {kind : Kind}
    {machine : ProcedureId → Machine} (hf : ∀ id, (machine id).Fresh ∧ (machine id).id = id ∧
      (machine id).entity = entity ∧ (machine id).kind = kind) :
    (∃ error, e.launchRetry entity kind machine = (.error error, { e with ids := e.ids.draw.2 })) ∨
    ∃ registry, e.Admissible (machine e.ids.draw.1) registry ∧
      e.launchRetry entity kind machine = (.ok ⟨e.ids.draw.1, e.started⟩,
        { e with ids := e.ids.draw.2, registry }.enroll (machine e.ids.draw.1)) := by
  obtain ⟨hm, hid, hentity, hkind⟩ := hf e.ids.draw.1
  cases hc : e.tasks.contains e.ids.draw.1 with
  | true => exact .inl ⟨.duplicateId e.ids.draw.1, by simp [launchRetry, allocateId, hc]⟩
  | false =>
    have hnew := (Table.contains_eq_false_iff _ _).1 hc
    cases hi : e.isActive entity kind with
    | true =>
      have hi' : ({ e with ids := e.ids.draw.2 }).isActive entity kind = true := hi
      exact .inl ⟨.alreadyActive entity kind, by simp [launchRetry, allocateId, hc, hi']⟩
    | false =>
      have hi' : ({ e with ids := e.ids.draw.2 }).isActive entity kind = false := hi
      cases hr : e.registry.register entity e.ids.draw.1 with
      | error error =>
        exact .inl ⟨.registry error, by simp [launchRetry, allocateId, hc, hi', hr]⟩
      | ok registry =>
        have hm : e.Admissible (machine e.ids.draw.1) registry := ⟨hm, by rw [hid, hnew],
          by rw [hentity, hkind, hi], by rw [hentity, hid, hr]⟩
        exact .inr ⟨registry, hm, launchRetry_eq hw (fun id => (hf id).2) hm⟩

theorem launchSetup_eq (hw : e.wakes = []) {request : ProcedureRequest NgSetupRequest}
    {registry : Registry} (hm : e.Admissible (.setup (.new e.ids.draw.1 request)) registry) :
    e.launchSetup request = (.ok ⟨e.ids.draw.1, e.started⟩, e.enrollSetup request registry) := by
  have hf (id : ProcedureId) : (Machine.setup (.new id request)).id = id ∧
      (Machine.setup (.new id request)).entity = request.entity ∧
      (Machine.setup (.new id request)).kind = ngSetup.kind := ⟨rfl, rfl, rfl⟩
  exact launchRetry_eq hw hf hm

theorem launchSetup_cases (hw : e.wakes = []) (request : ProcedureRequest NgSetupRequest) :
    (∃ error, e.launchSetup request = (.error error, { e with ids := e.ids.draw.2 })) ∨
    ∃ registry, e.Admissible (.setup (.new e.ids.draw.1 request)) registry ∧
      e.launchSetup request = (.ok ⟨e.ids.draw.1, e.started⟩, e.enrollSetup request registry) :=
  launchRetry_cases hw fun id => ⟨Machine.fresh_setup id request, rfl, rfl, rfl⟩

theorem launchConfigUpdate_cases (hw : e.wakes = [])
    (request : ProcedureRequest RanConfigurationUpdate) :
    (∃ error, e.launchConfigUpdate request = (.error error, { e with ids := e.ids.draw.2 })) ∨
    ∃ registry, e.Admissible (.update (.new e.ids.draw.1 request)) registry ∧
      e.launchConfigUpdate request = (.ok ⟨e.ids.draw.1, e.started⟩,
        { e with ids := e.ids.draw.2, registry }.enroll (.update (.new e.ids.draw.1 request))) :=
  launchRetry_cases hw fun id => ⟨Machine.fresh_update id request, rfl, rfl, rfl⟩

theorem Coherent.enrollSetup (h : e.Coherent []) {request : ProcedureRequest NgSetupRequest}
    {registry : Registry} (hadm : e.Admissible (.setup (.new e.ids.draw.1 request)) registry) :
    (e.enrollSetup request registry).Coherent [] :=
  (h.draw e.ids.draw.2).enroll ⟨hadm.fresh, hadm.new, hadm.inactive, hadm.registered⟩

theorem Coherent.inactive_enrollSetup (h : e.Coherent [])
    {request : ProcedureRequest NgSetupRequest} {registry : Registry}
    (hadm : e.Admissible (.setup (.new e.ids.draw.1 request)) registry) {controller : EntityId}
    (hi : e.isActive controller .amfConnection = false) :
    (e.enrollSetup request registry).isActive controller .amfConnection = false := by
  refine (h.enrollSetup hadm).inactive_iff.2 fun q t hq he => ?_
  rcases get?_enroll_cases hq with ⟨-, rfl⟩ | ⟨-, hq⟩
  · simp [Machine.launched, Machine.kind, ngSetup]
  · exact h.inactive_iff.1 hi q t hq he

/-- an admissible setup is taken in, and an admissible connection that waits for it -/
theorem Coherent.launchConnection_eq (h : e.Coherent []) (hw : e.wakes = [])
    {controller : EntityId} {request : ProcedureRequest NgSetupRequest}
    {registry : Registry} (registry' : Registry) (hi : e.isActive controller .amfConnection = false)
    (hm : e.Admissible (.setup (.new e.ids.draw.1 request)) registry) :
    let e₁ := e.enrollSetup request registry
    let m : Machine := .connection ⟨e₁.ids.draw.1, controller, request.entity, e.ids.draw.1,
      .created, none⟩ e.started
    (e₁.link e.ids.draw.1).Admissible m registry' →
      e.launchConnection controller request = (.ok ⟨e₁.ids.draw.1, e₁.started⟩,
        { e₁.link e.ids.draw.1 with registry := registry' }.enroll m) := by
  intro e₁ m hm'
  have hs : e.launchSetup request = (.ok ⟨e.ids.draw.1, e.started⟩, e₁) :=
    launchSetup_eq hw hm
  have hw₁ : e₁.wakes = [] := hw
  have hempty : e₁.results.get? e.started = none := h.fresh (Nat.le_refl _)
  have hc : e₁.tasks.contains e₁.ids.draw.1 = false := (Table.contains_eq_false_iff _ _).2 hm'.new
  have hr : e₁.registry.register controller e₁.ids.draw.1 = .ok registry' := hm'.registered
  have hrun := run_start (e := { e₁.link e.ids.draw.1 with registry := registry' }) hw₁ hm'.fresh
  rw [← hrun]
  simp [launchConnection, hi, hs, allocateId, hc, hr, ready, result?, start, wake, emit,
    hempty, Engine.link, Machine.id, m]

/-- A launch is refused before anything was launched, or with the setup alone, which is cancelled
again, or both are taken in. -/
theorem launchConnection_cases (h : e.Coherent []) (hw : e.wakes = []) (controller : EntityId)
    (request : ProcedureRequest NgSetupRequest) :
    (∃ error ids, e.launchConnection controller request = (.error error, { e with ids }) ∧
      (e.isActive controller .amfConnection = false →
        (e.launchSetup request).1 = .error error)) ∨
    ∃ registry, e.Admissible (.setup (.new e.ids.draw.1 request)) registry ∧
      e.isActive controller .amfConnection = false ∧
      (e.launchSetup request).1 = .ok ⟨e.ids.draw.1, e.started⟩ ∧
      let e₁ := e.enrollSetup request registry
      (∃ error, e.launchConnection controller request =
        (.error error, ({ e₁ with ids := e₁.ids.draw.2 }.cancel e.ids.draw.1).2)) ∨
      ∃ registry',
        let m := .connection ⟨e₁.ids.draw.1, controller, request.entity, e.ids.draw.1, .created,
          none⟩ e.started
        (e₁.link e.ids.draw.1).Admissible m registry' ∧
          e.launchConnection controller request = (.ok ⟨e₁.ids.draw.1, e₁.started⟩,
            { e₁.link e.ids.draw.1 with registry := registry' }.enroll m) := by
  cases hi : e.isActive controller .amfConnection with
  | true =>
    exact .inl ⟨.alreadyActive controller .amfConnection, e.ids, by simp [launchConnection, hi],
      nofun⟩
  | false =>
    rcases launchSetup_cases hw request with ⟨error, hs⟩ | ⟨registry, hadm, hs⟩
    · exact .inl ⟨error, e.ids.draw.2, by simp [launchConnection, hi, hs], by simp [hs]⟩
    · refine .inr ⟨registry, hadm, rfl, by rw [hs], ?_⟩
      have hi₁ := h.inactive_enrollSetup hadm hi
      have heq := fun registry' => h.launchConnection_eq hw registry' hi hadm
      generalize e.enrollSetup request registry = e₁ at hs hi₁ heq
      cases hc : e₁.tasks.contains e₁.ids.draw.1 with
      | true =>
        exact .inl ⟨.duplicateId e₁.ids.draw.1, by
          simp [launchConnection, hi, hs, allocateId, hc]⟩
      | false =>
        have hnew := (Table.contains_eq_false_iff _ _).1 hc
        cases hr : e₁.registry.register controller e₁.ids.draw.1 with
        | error error =>
          exact .inl ⟨.registry error, by simp [launchConnection, hi, hs, allocateId, hc, hr]⟩
        | ok registry' =>
          have hm := Machine.fresh_connection e₁.ids.draw.1 e.ids.draw.1 controller request.entity
            e.started
          exact .inr ⟨registry', ⟨hm, hnew, hi₁, hr⟩, heq registry' ⟨hm, hnew, hi₁, hr⟩⟩

end

end NgapProcedures.Engine
