import NgapProcedures.Proofs.Engine.History
import NgapProcedures.Proofs.Engine.Joined

/-! What an operation does to setups and connections that are joined. It leaves them joined or ends
both, and those that it adds are joined; only the removal of an entity may take one of the two and
leave the other. -/

namespace NgapProcedures.Engine

variable {γ : Type}

inductive Fate (op : Operation) (e e' : Engine γ) (c : AmfConnection) (slot slot' : Nat) :
    Prop where
  | joined (h : e'.Joined c slot slot')
  | ended (hs : e'.tasks.get? c.setup = none) (hc : e'.tasks.get? c.id = none)
  | setupRemoved {entity : EntityId} (hop : op = .remove entity)
      (hs : c.setup ∈ e.registry.ids entity) (hc : c.id ∉ e.registry.ids entity)
      (hgone : e'.tasks.get? c.setup = none)
  | connectionRemoved {entity : EntityId} (hop : op = .remove entity)
      (hs : c.setup ∉ e.registry.ids entity) (hc : c.id ∈ e.registry.ids entity)
      (hgone : e'.tasks.get? c.id = none)

structure Carries (op : Operation) (e e' : Engine γ) : Prop where
  joined : ∀ {c slot slot'}, e.Joined c slot slot' → Fate op e e' c slot slot'
  connection : ∀ {q c slot slot'}, e'.tasks.get? q = some ⟨.connection c slot, slot'⟩ →
    e.tasks.get? q = some ⟨.connection c slot, slot'⟩ ∨ e'.Joined c slot slot'
  parent : ∀ {s q}, e'.parents.get? s = some q →
    (e.parents.get? s = some q ∧ ∃ t t', e.tasks.get? s = some t ∧ e'.tasks.get? s = some t' ∧
      t'.slot = t.slot) ∨ ∃ c slot slot', e'.Joined c slot slot' ∧ c.setup = s ∧ c.id = q

structure Proceeds (e e' : Engine γ) : Prop where
  parents : e'.parents = e.parents
  tasks : ∀ q, e'.tasks.get? q = e.tasks.get? q ∨ ∃ t m, e.tasks.get? q = some t ∧
    e'.tasks.get? q = some { t with machine := m } ∧ m.entity = t.machine.entity ∧
    m.kind = t.machine.kind ∧ t.machine.kind ≠ .amfConnection

section

variable {op : Operation} {e e' e'' : Engine γ} {c : AmfConnection} {slot slot' : Nat}

theorem Carries.refl (h : e.Coherent []) : Carries op e e where
  joined h := .joined h
  connection hc := .inl hc
  parent {s _} hs := by
    obtain ⟨t, ht, -⟩ := h.parent hs
    exact .inl ⟨hs, t, t, ht, ht, rfl⟩

theorem Joined.proceeds (h : e.Joined c slot slot') (hp : e.Proceeds e') :
    e'.Joined c slot slot' where
  setup := by
    obtain ⟨t, ht, hslot, hk, he⟩ := h.setup
    rcases hp.tasks c.setup with hs | ⟨u, m, hu, hm, hme, hmk, -⟩
    · exact ⟨t, hs.trans ht, hslot, hk, he⟩
    · obtain rfl := Option.some.inj (ht.symm.trans hu)
      exact ⟨_, hm, hslot, hmk.trans hk, hme.trans he⟩
  connection := by
    rcases hp.tasks c.id with hs | ⟨u, m, hu, -, -, -, hk⟩
    · exact hs.trans h.connection
    · obtain rfl := Option.some.inj (h.connection.symm.trans hu)
      exact absurd rfl hk
  parent := hp.parents ▸ h.parent

theorem Proceeds.none_iff (hp : e.Proceeds e') (q : ProcedureId) :
    e'.tasks.get? q = none ↔ e.tasks.get? q = none := by
  rcases hp.tasks q with hq | ⟨t, m, ht, hm, -⟩
  · rw [hq]
  · simp [ht, hm]

theorem Carries.proceeds (h : Carries op e e') (hp : e'.Proceeds e'') : Carries op e e'' where
  joined hj := by
    cases h.joined hj with
    | joined hj' => exact .joined (hj'.proceeds hp)
    | ended hs hc => exact .ended ((hp.none_iff _).2 hs) ((hp.none_iff _).2 hc)
    | setupRemoved hop hs hc hg => exact .setupRemoved hop hs hc ((hp.none_iff _).2 hg)
    | connectionRemoved hop hs hc hg => exact .connectionRemoved hop hs hc ((hp.none_iff _).2 hg)
  connection {q c slot slot'} hq := by
    have hq' : e'.tasks.get? q = some ⟨.connection c slot, slot'⟩ := by
      rcases hp.tasks q with hs | ⟨t, m, ht, hm, -, hk, hne⟩
      · rwa [hs] at hq
      · obtain heq := Option.some.inj (hm.symm.trans hq)
        obtain rfl : m = .connection c slot := congrArg Task.machine heq
        exact absurd hk.symm hne
    exact (h.connection hq').imp id (·.proceeds hp)
  parent {s q} hs := by
    rw [hp.parents] at hs
    refine (h.parent hs).imp ?_ fun ⟨c, slot, slot', hj, hrest⟩ =>
      ⟨c, slot, slot', hj.proceeds hp, hrest⟩
    rintro ⟨hs, t, t', ht, ht', hslot⟩
    refine ⟨hs, t, ?_⟩
    rcases hp.tasks s with he | ⟨u, m, hu, hm, -⟩
    · exact ⟨t', ht, he.trans ht', hslot⟩
    · obtain rfl := Option.some.inj (ht'.symm.trans hu)
      exact ⟨_, ht, hm, hslot⟩

/-- instances go, and of two that are joined both or neither -/
theorem Carries.without {gone : ProcedureId → Prop} (h : Carries op e e') (hc : e'.Coherent [])
    (hw : e'.Without e'' gone) (hj : ∀ {c slot slot'}, e'.Joined c slot slot' →
      e''.Joined c slot slot' ∨ e''.tasks.get? c.setup = none ∧ e''.tasks.get? c.id = none) :
    Carries op e e'' := by
  have hnone {q : ProcedureId} (hq : e'.tasks.get? q = none) : e''.tasks.get? q = none := by
    refine Option.eq_none_iff_forall_ne_some.2 fun u hu => ?_
    have := (hw.tasks.1 hu).1
    simp [hq] at this
  constructor
  case joined =>
    intro c slot slot' hjoined
    cases h.joined hjoined with
    | joined hj' => exact (hj hj').elim .joined fun ⟨hs, hc⟩ => .ended hs hc
    | ended hs hc => exact .ended (hnone hs) (hnone hc)
    | setupRemoved hop hs hc hg => exact .setupRemoved hop hs hc (hnone hg)
    | connectionRemoved hop hs hc hg => exact .connectionRemoved hop hs hc (hnone hg)
  case connection =>
    intro q c slot slot' hq
    have hq' := (hw.tasks.1 hq).1
    refine (h.connection hq').imp id fun hjoined => (hj hjoined).resolve_right fun hend => ?_
    obtain rfl : c.id = q := hc.named hq'
    simp [hq] at hend
  case parent =>
    intro s q hs
    obtain ⟨hs, hg⟩ := hw.parents hs
    rcases h.parent hs with ⟨hs, t, t', ht, ht', hslot⟩ | ⟨c, slot, slot', hjoined, rfl, rfl⟩
    · exact .inl ⟨hs, t, t', ht, hw.tasks.2 ⟨ht', hg⟩, hslot⟩
    · refine .inr ⟨c, slot, slot', (hj hjoined).resolve_right fun hend => ?_, rfl, rfl⟩
      obtain ⟨t, ht, -⟩ := hjoined.setup
      have := hw.tasks.2 ⟨ht, hg⟩
      simp [this] at hend

theorem Coherent.proceeds_backedOff (h : e.Coherent []) {m : PeerMessage} {id : ProcedureId}
    {t : Task} {r : Rejection} {delay : Duration} (hb : e.Backs m id t r delay) :
    e.Proceeds (e.backedOff id t r delay) := by
  obtain ⟨-, -, -, ha⟩ := h.of_backs hb
  rw [backedOff, backOff_eq ha]
  refine ⟨rfl, fun q => ?_⟩
  have hget := Table.get?_insert e.tasks id q { t with machine := t.machine.backedOff r }
  by_cases hq : q = id
  · subst hq
    obtain ⟨-, hentity, hkind⟩ := t.machine.static_backedOff r
    refine .inr ⟨t, _, hb.task, hget.trans (if_pos rfl), hentity, hkind, fun hk => ?_⟩
    have := hb.retries
    cases hm : t.machine <;> simp_all [Machine.kind, Machine.retries, ngSetup,
      ranConfigurationUpdate]
  · exact .inl (hget.trans (if_neg hq))

theorem Steady.carries_remove (h : e.Steady) (entity : EntityId) :
    Carries (.remove entity) e (e.remove entity).2 := by
  obtain ⟨tasks, armed, parents, live, he, ht, -, hp, -⟩ := foldl_forget
    (e.registry.ids entity) { e with registry := (e.registry.remove entity).2 }
  have he' : (e.remove entity).2 = _ := he
  rw [he']
  constructor
  case joined =>
    intro c slot slot' hj
    by_cases hs : c.setup ∈ e.registry.ids entity <;> by_cases hc : c.id ∈ e.registry.ids entity
    · exact .ended ((ht _).trans (if_pos hs)) ((ht _).trans (if_pos hc))
    · exact .setupRemoved rfl hs hc ((ht _).trans (if_pos hs))
    · exact .connectionRemoved rfl hs hc ((ht _).trans (if_pos hc))
    · obtain ⟨t, hget, hrest⟩ := hj.setup
      exact .joined ⟨⟨t, (ht _).trans ((if_neg hs).trans hget), hrest⟩,
        (ht _).trans ((if_neg hc).trans hj.connection), (hp _).trans ((if_neg hs).trans hj.parent)⟩
  case connection =>
    intro q c slot slot' hq
    have hq : tasks.get? q = some _ := hq
    rw [ht] at hq
    split at hq
    · simp at hq
    · exact .inl hq
  case parent =>
    intro s q hs
    have hs : parents.get? s = some q := hs
    rw [hp] at hs
    split at hs
    · simp at hs
    · next hn =>
      obtain ⟨t, hget, -⟩ := h.coherent.parent hs
      exact .inl ⟨hs, t, t, hget, (ht s).trans ((if_neg hn).trans hget), rfl⟩

theorem Coherent.carries_insert (h : e.Coherent []) {q : ProcedureId} {t : Task}
    (hq : e.tasks.get? q = none) (hk : t.machine.kind ≠ .amfConnection)
    (htasks : e'.tasks = e.tasks.insert q t) (hparents : e'.parents = e.parents) :
    Carries op e e' := by
  have hold {q' : ProcedureId} {u : Task} (hu : e.tasks.get? q' = some u) :
      e'.tasks.get? q' = some u := htasks ▸ Table.get?_insert_of_new hq hu
  constructor
  case joined =>
    intro c slot slot' hj
    obtain ⟨u, hu, hrest⟩ := hj.setup
    exact .joined ⟨⟨u, hold hu, hrest⟩, hold hj.connection, hparents ▸ hj.parent⟩
  case connection =>
    intro q' c slot slot' hc
    rcases Table.get?_insert_eq_some_iff.1 (htasks ▸ hc) with ⟨-, rfl⟩ | ⟨-, hc⟩
    · exact absurd rfl hk
    · exact .inl hc
  case parent =>
    intro s c hs
    rw [hparents] at hs
    obtain ⟨u, hu, -⟩ := h.parent hs
    exact .inl ⟨hs, u, u, hu, hold hu, rfl⟩

/-- a setup and a connection more, under fresh names, are joined -/
theorem joined_of_insert {c : AmfConnection} {slot slot' : Nat} {t : Task}
    (hc : (e.tasks.insert c.setup t).get? c.id = none)
    (ht : t.slot = slot ∧ t.machine.kind = .ngSetup ∧ t.machine.entity = c.amf)
    (htasks : e'.tasks = (e.tasks.insert c.setup t).insert c.id ⟨.connection c slot, slot'⟩)
    (hparents : e'.parents = e.parents.insert c.setup c.id) : e'.Joined c slot slot' := by
  have hne : c.setup ≠ c.id := by
    intro he
    rw [← he, Table.get?_insert_self] at hc
    simp at hc
  exact ⟨⟨t, by rw [htasks, Table.get?_insert_other _ _ hne, Table.get?_insert_self], ht⟩,
    by rw [htasks, Table.get?_insert_self], by rw [hparents, Table.get?_insert_self]⟩

theorem Coherent.carries_joined (h : e.Coherent []) {c : AmfConnection} {slot slot' : Nat}
    {t : Task} (hs : e.tasks.get? c.setup = none)
    (hc : (e.tasks.insert c.setup t).get? c.id = none)
    (ht : t.slot = slot ∧ t.machine.kind = .ngSetup ∧ t.machine.entity = c.amf)
    (htasks : e'.tasks = (e.tasks.insert c.setup t).insert c.id ⟨.connection c slot, slot'⟩)
    (hparents : e'.parents = e.parents.insert c.setup c.id) : Carries op e e' := by
  have hnew := joined_of_insert hc ht htasks hparents
  have hold {q : ProcedureId} {u : Task} (hu : e.tasks.get? q = some u) :
      e'.tasks.get? q = some u :=
    htasks ▸ Table.get?_insert_of_new hc (Table.get?_insert_of_new hs hu)
  constructor
  case joined =>
    intro d n n' hj
    obtain ⟨u, hu, hrest⟩ := hj.setup
    refine .joined ⟨⟨u, hold hu, hrest⟩, hold hj.connection, ?_⟩
    rw [hparents, Table.get?_insert_other, hj.parent]
    intro he
    simp [he, hs] at hu
  case connection =>
    intro q d n n' hq
    rcases Table.get?_insert_eq_some_iff.1 (htasks ▸ hq) with ⟨-, he⟩ | ⟨-, hq⟩
    · obtain ⟨⟨rfl, rfl⟩, rfl⟩ : (d = c ∧ n = slot) ∧ n' = slot' := by simpa using he
      exact .inr hnew
    · rcases Table.get?_insert_eq_some_iff.1 hq with ⟨-, rfl⟩ | ⟨-, hq⟩
      · simp [Machine.kind] at ht
      · exact .inl hq
  case parent =>
    intro s q hq
    rcases Table.get?_insert_eq_some_iff.1 (hparents ▸ hq) with ⟨rfl, rfl⟩ | ⟨-, hq⟩
    · exact .inr ⟨c, slot, slot', hnew, rfl, rfl⟩
    · obtain ⟨u, hu, -⟩ := h.parent hq
      exact .inl ⟨hq, u, u, hu, hold hu, rfl⟩

end

variable [Gateway γ]

section

variable {op : Operation} {e e' : Engine γ}

theorem Steady.proceeds_advance (h : e.Steady) : e.Proceeds e.advance := by
  obtain ⟨tasks, armed, he, -, ht⟩ := h.coherent.advance_spec h.quiet
  rw [he]
  refine ⟨rfl, fun q => ?_⟩
  by_cases hq : q ∈ expiring e.armed e.timers.advance.1
  · obtain ⟨timer, -, -, hk⟩ := mem_expiring_iff.1 hq
    obtain ⟨⟨t, hget⟩, -⟩ := h.coherent.armed hk
    have hwait := (h.coherent.backoff hget).2 (.inl ⟨_, hk⟩)
    obtain ⟨-, hentity, hkind⟩ := t.machine.static_resent
    exact .inr ⟨t, _, hget, (ht q).trans (by rw [if_pos hq, hget]; rfl), hentity, hkind,
      Machine.kind_ne_of_timer hwait⟩
  · exact .inl ((ht q).trans (if_neg hq))

theorem Steady.carries_close (h : e.Steady) {id : ProcedureId} {t : Task}
    (ht : e.tasks.get? id = some t) {r : Result} {event : Event}
    {ws : List (ProcedureId × Wake)} (hcl : e.Closes t r event ws) :
    Carries op e (e.close id t r event ws).run := by
  obtain ⟨gone, hs, -, -⟩ := h.coherent.run_close h.quiet ht hcl
  exact (Carries.refl h.coherent).without h.coherent hs.toWithout fun hj =>
    hj.run_close h.coherent h.quiet ht hcl

theorem Steady.carries_transportLost (h : e.Steady) : Carries op e e.transportLost.2 := by
  obtain ⟨-, gone, ht⟩ := h.coherent.tornDown h.quiet
  exact (Carries.refl h.coherent).without h.coherent (ht.without h.coherent) fun _ =>
    .inr ⟨by simp [ht.tasks], by simp [ht.tasks]⟩

theorem Steady.carries_connect (h : e.Steady) (controller : EntityId)
    (request : ProcedureRequest NgSetupRequest) :
    Carries op e (e.launchConnection controller request).2 := by
  rcases launchConnection_cases h.coherent h.quiet controller request with
    ⟨error, ids, he, -⟩ | ⟨registry, hm, -, -, ⟨error, he⟩ | ⟨registry', hm', he⟩⟩
  · rw [he]
    exact (Carries.refl h.coherent).proceeds ⟨rfl, fun _ => .inl rfl⟩
  · let e₁ := e.enrollSetup request registry
    have h₁ : ({ e₁ with ids := e₁.ids.draw.2 }).Steady :=
      ⟨(h.coherent.enrollSetup hm).draw _, h.quiet⟩
    have hinsert : Carries op e { e₁ with ids := e₁.ids.draw.2 } :=
      h.coherent.carries_insert hm.new (by simp [Machine.launched, Machine.kind, ngSetup]) rfl rfl
    have hget : ({ e₁ with ids := e₁.ids.draw.2 }).tasks.get? e.ids.draw.1 = some
        ⟨(Machine.setup (.new e.ids.draw.1 request)).launched, e.started⟩ :=
      Table.get?_insert_self ..
    obtain ⟨gone, hs, -, -⟩ := h₁.coherent.run_close h₁.quiet hget .cancelled
    rw [he, h₁.coherent.cancel_eq h₁.quiet hget]
    exact hinsert.without h₁.coherent hs.toWithout fun hj =>
      hj.run_close h₁.coherent h₁.quiet hget .cancelled
  · rw [he]
    exact h.coherent.carries_joined (c := AmfConnection.launched
      ⟨(e.enrollSetup request registry).ids.draw.1, controller, request.entity, e.ids.draw.1,
        .created, none⟩) hm.new hm'.new ⟨rfl, rfl, rfl⟩ rfl rfl

/-- what any operation does to links -/
theorem Steady.carries_step (h : e.Steady) (op : Operation) : Carries op e (e.step op).2 := by
  have hrefl : Carries op e e := .refl h.coherent
  have hsame {e' : Engine γ} (ht : e'.tasks = e.tasks) (hp : e'.parents = e.parents) :
      Carries op e e' := hrefl.proceeds ⟨hp, fun q => .inl (by rw [ht])⟩
  cases op with
  | setup request =>
    rcases launchSetup_cases h.quiet request with ⟨error, he⟩ | ⟨registry, hm, he⟩
    · simp only [step, he]
      exact hsame rfl rfl
    · simp only [step, he]
      exact h.coherent.carries_insert hm.new (by simp [Machine.launched, Machine.kind, ngSetup])
        rfl rfl
  | update request =>
    rcases launchConfigUpdate_cases h.quiet request with ⟨error, he⟩ | ⟨registry, hm, he⟩
    · simp only [step, he]
      exact hsame rfl rfl
    · simp only [step, he]
      exact h.coherent.carries_insert hm.new
        (by simp [Machine.launched, Machine.kind, ranConfigurationUpdate]) rfl rfl
  | connect controller request => exact h.carries_connect controller request
  | message m =>
    rcases h.coherent.handleMessage_spec h.quiet m with
      he | ⟨id, t, r, event, ht, hwait, hk, hu, hev, he⟩ | ⟨id, t, r, delay, hb⟩
    · simp only [step, he]
      exact hrefl
    · simp only [step, he]
      exact h.carries_close ht (.answered hwait hk hu hev)
    · simp only [step, h.coherent.handleMessage_backs h.quiet hb]
      exact hrefl.proceeds (h.coherent.proceeds_backedOff hb)
  | advance => exact hrefl.proceeds h.proceeds_advance
  | advanceBy ticks =>
    show Carries _ e (e.advanceBy ticks)
    rw [advanceBy_eq]
    generalize ticks.toNat = n
    induction n with
    | zero => exact hrefl
    | succ n ih =>
      rw [List.replicate_succ', after_append]
      exact ih.proceeds (h.after _).proceeds_advance
  | cancel id =>
    cases ht : e.tasks.get? id with
    | none =>
      simp only [step, cancel_unknown ht]
      exact hrefl
    | some t =>
      simp only [step, h.coherent.cancel_eq h.quiet ht]
      exact h.carries_close ht .cancelled
  | remove entity => exact h.carries_remove entity
  | transportLost => exact h.carries_transportLost
  | drainEvents => exact hsame rfl rfl

end

end NgapProcedures.Engine
