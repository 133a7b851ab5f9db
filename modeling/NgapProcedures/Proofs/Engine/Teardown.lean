import NgapProcedures.Proofs.Engine.Settling

/-! The loss of the transport. Every instance is cancelled, whichever order the cancellations reach
them in, and keeps its place until all are; then the entities are reported and dropped. -/

namespace NgapProcedures.Engine

variable {γ : Type}

structure Cancelling (e₀ e : Engine γ) (gone : List ProcedureId) : Prop where
  nodup : gone.Nodup
  tearingDown : e.tearingDown = true
  registry : e.registry = e₀.registry
  gateway : e.gateway = e₀.gateway
  started : e.started = e₀.started
  commonClosures : e.commonClosures = e₀.commonClosures
  timers : ∃ live, e.timers = { e₀.timers with live }
  log : e.log = e₀.log ++ gone.map .procedureCancelled
  tasks : ∀ q, e.tasks.get? q = if q ∈ gone then
    (e₀.tasks.get? q).map fun t => { t with machine := t.machine.cancelled } else e₀.tasks.get? q
  armed : ∀ q, e.armed.get? q = if q ∈ gone then none else e₀.armed.get? q
  parents : ∀ q, e.parents.get? q = if q ∈ gone then none else e₀.parents.get? q
  results : ∀ n r, e.results.get? n = some r ↔ e₀.results.get? n = some r ∨
    ∃ q ∈ gone, ∃ t, e₀.tasks.get? q = some t ∧ t.slot = n ∧ r = t.machine.cancellation
  known : ∀ q ∈ gone, ∃ t, e₀.tasks.get? q = some t
  live : ∀ k, e.timers.isPending k = true → ∃ q, e.armed.get? q = some k

section

variable {e₀ e : Engine γ} {gone : List ProcedureId}

theorem Coherent.cancelling (h : e.Coherent []) :
    Cancelling e { e with tearingDown := true } [] := by
  constructor
  case nodup => exact .nil
  case timers => exact ⟨e.timers.live, rfl⟩
  case live => exact fun _ hk => h.live hk
  all_goals simp

theorem Cancelling.wakes (h : Cancelling e₀ e gone) (ws : List (ProcedureId × Wake)) :
    Cancelling e₀ { e with wakes := ws } gone :=
  ⟨h.nodup, h.tearingDown, h.registry, h.gateway, h.started, h.commonClosures, h.timers, h.log,
    h.tasks, h.armed, h.parents, h.results, h.known, h.live⟩

/-- whoever has not been cancelled has no result -/
theorem Cancelling.unresolved (h : Cancelling e₀ e gone) (h₀ : e₀.Coherent []) {id : ProcedureId}
    {t : Task} (ht : e₀.tasks.get? id = some t) (hid : id ∉ gone) :
    e.results.get? t.slot = none := by
  refine Option.eq_none_iff_forall_ne_some.2 fun r hr => ?_
  rcases (h.results t.slot r).1 hr with hr | ⟨q, hq, u, hu, he, -⟩
  · simp [(h₀.slot ht).2] at hr
  · exact hid (h₀.apart hu ht he ▸ hq)

theorem Cancelling.results_retire (h : Cancelling e₀ e gone) (h₀ : e₀.Coherent [])
    {id : ProcedureId} {t : Task} (ht : e₀.tasks.get? id = some t) (hid : id ∉ gone) (n : Nat)
    (r : Result) : (e.retire id t).results.get? n = some r ↔ e₀.results.get? n = some r ∨
      ∃ q ∈ gone ++ [id], ∃ t, e₀.tasks.get? q = some t ∧ t.slot = n ∧
        r = t.machine.cancellation := by
  have hrec : (e.retire id t).results.get? n =
      if n = t.slot then some t.machine.cancellation else e.results.get? n :=
    Results.get?_record (h.unresolved h₀ ht hid) _ n
  rw [hrec]
  by_cases hn : n = t.slot
  · subst hn
    rw [if_pos rfl, (h₀.slot ht).2]
    constructor
    · intro he
      exact .inr ⟨id, by simp, t, ht, rfl, (Option.some.inj he).symm⟩
    · rintro (hc | ⟨q, -, u, hu, he, rfl⟩)
      · simp at hc
      · obtain rfl := h₀.apart hu ht he
        rw [ht] at hu
        rw [Option.some.inj hu]
  · rw [if_neg hn, h.results]
    refine or_congr_right ⟨fun ⟨q, hq, hrest⟩ => ⟨q, by simp [hq], hrest⟩, ?_⟩
    rintro ⟨q, hq, u, hu, he, hr⟩
    refine ⟨q, (List.mem_append.1 hq).resolve_right fun hq => hn ?_, u, hu, he, hr⟩
    rw [List.mem_singleton.1 hq, ht] at hu
    rw [← he, Option.some.inj hu]

theorem Cancelling.retire (h : Cancelling e₀ e gone) (h₀ : e₀.Coherent []) {id : ProcedureId}
    {t : Task} (ht : e₀.tasks.get? id = some t) (hid : id ∉ gone) :
    Cancelling e₀ (e.retire id t) (gone ++ [id]) where
  nodup := by
    refine List.nodup_append.2 ⟨h.nodup, by simp, fun q hq q' hq' he => hid ?_⟩
    rw [← List.mem_singleton.1 hq', ← he]
    exact hq
  tearingDown := h.tearingDown
  registry := h.registry
  gateway := h.gateway
  started := h.started
  commonClosures := h.commonClosures
  timers := by
    obtain ⟨live, hlive⟩ := h.timers
    obtain ⟨live', hlive'⟩ := e.timers_timersWithout id
    exact ⟨live', hlive'.trans (by rw [hlive])⟩
  log := by
    show e.log ++ [.procedureCancelled t.machine.id] = _
    rw [h.log, h₀.named ht, List.map_append, List.append_assoc]
    rfl
  tasks q := by
    refine (Table.get?_insert ..).trans ?_
    by_cases hq : q = id
    · simp [hq, ht]
    · simp [hq, h.tasks]
  armed q := by
    refine (Table.get?_erase ..).trans ?_
    by_cases hq : q = id <;> simp [hq, h.armed]
  parents q := by
    refine (Table.get?_erase ..).trans ?_
    by_cases hq : q = id <;> simp [hq, h.parents]
  results n r := h.results_retire h₀ ht hid n r
  known q hq := by
    rcases List.mem_append.1 hq with hq | hq
    · exact h.known q hq
    · exact ⟨t, List.mem_singleton.1 hq ▸ ht⟩
  live k hk := by
    obtain ⟨hp, hne⟩ := (isPending_timersWithout e id k).1 hk
    obtain ⟨q, hq⟩ := h.live k hp
    exact ⟨q, Table.get?_erase_eq_some_iff.2 ⟨hq, fun he => hne (he ▸ hq)⟩⟩

theorem cancel_of_mem_retire {id : ProcedureId} {t : Task} (hw : ∀ x ∈ e.wakes, x.2 = .cancel) :
    ∀ x ∈ (e.retire id t).wakes, x.2 = .cancel := by
  have hfollow : ∀ x ∈ t.machine.followUps, x.2 = .cancel := by
    cases t.machine <;> simp [Machine.followUps]
  intro x hx
  simp only [retire, List.mem_append] at hx
  rcases hx with (hx | hx) | hx
  · exact hw x hx
  · exact hfollow x hx
  · obtain ⟨q, -, rfl⟩ := List.mem_map.1 hx
    rfl

end

section

variable [Gateway γ] {e₀ e : Engine γ} {gone : List ProcedureId}

theorem Cancelling.dispatch_cancel (h : Cancelling e₀ e gone) (h₀ : e₀.Coherent [])
    (id : ProcedureId) :
    e.dispatch id .cancel = e ∧ (∀ t, e₀.tasks.get? id = some t → id ∈ gone) ∨
    ∃ t, e₀.tasks.get? id = some t ∧ id ∉ gone ∧ e.dispatch id .cancel = e.retire id t := by
  cases ht : e₀.tasks.get? id with
  | none =>
    have hnone : e.tasks.get? id = none := by simp [h.tasks, ht]
    exact .inl ⟨dispatch_unknown hnone _, by simp⟩
  | some t =>
    by_cases hid : id ∈ gone
    · have hget : e.tasks.get? id = some { t with machine := t.machine.cancelled } := by
        simp [h.tasks, hid, ht]
      exact .inl ⟨dispatch_unexpected hget
        (by simp [Machine.expects, Machine.isTerminal_cancelled]), fun _ _ => hid⟩
    · have hget : e.tasks.get? id = some t := by simp [h.tasks, hid, ht]
      exact .inr ⟨t, rfl, hid, dispatch_cancel_teardown hget (h₀.isTerminal ht) h.tearingDown⟩

theorem Cancelling.run (h : Cancelling e₀ e gone) (h₀ : e₀.Coherent [])
    (hw : ∀ x ∈ e.wakes, x.2 = .cancel) :
    ∃ gone', gone ⊆ gone' ∧ Cancelling e₀ e.run gone' ∧ e.run.wakes = [] := by
  let P (e' : Engine γ) : Prop :=
    (∀ x ∈ e'.wakes, x.2 = .cancel) ∧ ∃ gone', gone ⊆ gone' ∧ Cancelling e₀ e' gone'
  have hstep (e' : Engine γ) (id : ProcedureId) (w : Wake) (rest : List (ProcedureId × Wake))
      (hcons : e'.wakes = (id, w) :: rest) (hp : P e') :
      P ({ e' with wakes := rest }.dispatch id w) := by
    obtain ⟨hw', gone', hsub, h'⟩ := hp
    rw [hcons, List.forall_mem_cons] at hw'
    obtain ⟨rfl, hrest⟩ : w = .cancel ∧ _ := hw'
    rcases (h'.wakes rest).dispatch_cancel h₀ id with ⟨he, -⟩ | ⟨t, ht, hid, he⟩
    · rw [he]
      exact ⟨hrest, gone', hsub, h'.wakes rest⟩
    · rw [he]
      refine ⟨cancel_of_mem_retire hrest, _, fun q hq => ?_, (h'.wakes rest).retire h₀ ht hid⟩
      exact List.mem_append_left _ (hsub hq)
  obtain ⟨⟨-, gone', hsub, h'⟩, hnil⟩ := run_induction (P := P) hstep ⟨hw, gone, by simp, h⟩
  exact ⟨gone', hsub, h', hnil⟩

theorem Cancelling.cancel (h : Cancelling e₀ e gone) (h₀ : e₀.Coherent []) (hw : e.wakes = [])
    (id : ProcedureId) : ∃ gone', gone ⊆ gone' ∧
      (∀ t, e₀.tasks.get? id = some t → id ∈ gone') ∧
      Cancelling e₀ (e.cancel id).2 gone' ∧ (e.cancel id).2.wakes = [] := by
  unfold Engine.cancel
  split
  · rw [run_wake hw]
    rcases h.dispatch_cancel h₀ id with ⟨he, hid⟩ | ⟨t, ht, hid, he⟩
    · rw [he, run_of_wakes_nil hw]
      exact ⟨gone, by simp, hid, h, hw⟩
    · rw [he]
      obtain ⟨gone', hsub, h', hnil⟩ := (h.retire h₀ ht hid).run h₀
        (cancel_of_mem_retire (by simp [hw]))
      exact ⟨gone', fun q hq => hsub (List.mem_append_left _ hq), fun _ _ => hsub (by simp), h',
        hnil⟩
  · next hl =>
    refine ⟨gone, by simp, fun t ht => ?_, h, hw⟩
    by_contra hid
    have hget : e.tasks.get? id = some t := by rw [h.tasks, if_neg hid, ht]
    simp [isLive, hget, h₀.isTerminal ht] at hl

theorem Cancelling.foldl_cancel (ids : List ProcedureId) (h : Cancelling e₀ e gone)
    (h₀ : e₀.Coherent []) (hw : e.wakes = []) : ∃ gone', gone ⊆ gone' ∧
      (∀ id ∈ ids, ∀ t, e₀.tasks.get? id = some t → id ∈ gone') ∧
      Cancelling e₀ (ids.foldl (fun e id => (e.cancel id).2) e) gone' ∧
      (ids.foldl (fun e id => (e.cancel id).2) e).wakes = [] := by
  induction ids generalizing e gone with
  | nil => exact ⟨gone, by simp, by simp, h, hw⟩
  | cons id rest ih =>
    obtain ⟨gone₁, hsub, hid, h₁, hw₁⟩ := h.cancel h₀ hw id
    obtain ⟨gone₂, hsub', hrest, h₂, hw₂⟩ := ih h₁ hw₁
    refine ⟨gone₂, fun q hq => hsub' (hsub hq), ?_, h₂, hw₂⟩
    exact List.forall_mem_cons.2 ⟨fun t ht => hsub' (hid t ht), hrest⟩

theorem Cancelling.foldl_cancelEntity (entities : List EntityId) (h : Cancelling e₀ e gone)
    (h₀ : e₀.Coherent []) (hw : e.wakes = []) : ∃ gone', gone ⊆ gone' ∧
      (∀ id t, e₀.tasks.get? id = some t → t.machine.entity ∈ entities → id ∈ gone') ∧
      Cancelling e₀ (entities.foldl cancelEntity e) gone' ∧
      (entities.foldl cancelEntity e).wakes = [] := by
  induction entities generalizing e gone with
  | nil => exact ⟨gone, by simp, by simp, h, hw⟩
  | cons entity rest ih =>
    obtain ⟨gone₁, hsub, hids, h₁, hw₁⟩ := h.foldl_cancel (e.registry.ids entity) h₀ hw
    obtain ⟨gone₂, hsub', hrest, h₂, hw₂⟩ := ih h₁ hw₁
    refine ⟨gone₂, fun q hq => hsub' (hsub hq), fun id t ht hm => ?_, h₂, hw₂⟩
    rcases List.mem_cons.1 hm with he | hm
    · refine hsub' (hids id ?_ t ht)
      rw [h.registry]
      exact h₀.registered.2 ⟨t, ht, he⟩
    · exact hrest id t ht hm

end

theorem foldl_remove (entities : List EntityId) (e : Engine γ) :
    ∃ tasks armed parents live registry,
      entities.foldl (fun e entity => (e.remove entity).2) e = { e with
        tasks, armed, parents, registry, timers := { e.timers with live } } ∧
      (∀ entity, registry.find? entity =
        if entity ∈ entities then none else e.registry.find? entity) ∧
      (∀ q t, tasks.get? q = some t → e.tasks.get? q = some t ∧
        ∀ entity ∈ entities, q ∉ e.registry.ids entity) ∧
      (∀ q k, armed.get? q = some k → e.armed.get? q = some k) ∧
      (∀ s c, parents.get? s = some c → e.parents.get? s = some c) ∧
      ∀ k, live.contains k = true → e.timers.isPending k = true := by
  induction entities generalizing e with
  | nil => exact ⟨e.tasks, e.armed, e.parents, e.timers.live, e.registry, rfl, by simp, by simp,
      by simp, by simp, fun k hk => hk⟩
  | cons entity rest ih =>
    obtain ⟨tasks₁, armed₁, parents₁, live₁, he₁, ht₁, ha₁, hp₁, hl₁⟩ := foldl_forget
      (e.registry.ids entity) { e with registry := (e.registry.remove entity).2 }
    have he₁ : (e.remove entity).2 = _ := he₁
    obtain ⟨tasks, armed, parents, live, registry, he, hr, ht, ha, hp, hl⟩ :=
      ih (e.remove entity).2
    rw [he₁] at he hr ht ha hp hl
    refine ⟨tasks, armed, parents, live, registry, ?_, fun entity' => ?_, fun q t hq => ?_,
      fun q k hq => ?_, fun s c hs => ?_, fun k hk => ?_⟩
    · rw [List.foldl_cons, he₁, he]
    · rw [hr, Registry.find?_remove]
      by_cases h1 : entity' = entity <;> simp [h1]
    · obtain ⟨hq, hrest⟩ := ht q t hq
      have hq : tasks₁.get? q = some t := hq
      rw [ht₁] at hq
      split at hq
      · simp at hq
      · next hn =>
        refine ⟨hq, List.forall_mem_cons.2 ⟨hn, fun entity' hm hc => ?_⟩⟩
        by_cases hee : entity' = entity
        · exact hn (hee ▸ hc)
        · exact hrest entity' hm (Registry.mem_ids_remove.2 ⟨hc, hee⟩)
    · have hq : armed₁.get? q = some k := ha q k hq
      rw [ha₁] at hq
      split at hq
      · simp at hq
      · exact hq
    · have hs : parents₁.get? s = some c := hp s c hs
      rw [hp₁] at hs
      split at hs
      · simp at hs
      · exact hs
    · exact ((hl₁ k).1 (hl k hk)).1

/-- Once all entities are dropped nothing is left of the instances that were registered. -/
theorem foldl_remove_entities {e : Engine γ}
    (htasks : ∀ q t, e.tasks.get? q = some t →
      ∃ entity ∈ e.registry.entities, q ∈ e.registry.ids entity)
    (harmed : ∀ q k, e.armed.get? q ≠ some k) (hparents : ∀ s c, e.parents.get? s ≠ some c)
    (hlive : ∀ k, e.timers.isPending k = true → ∃ q, e.armed.get? q = some k) :
    e.registry.entities.foldl (fun e entity => (e.remove entity).2) e = { e with
      tasks := ∅, armed := ∅, parents := ∅, registry := {}
      timers := { e.timers with live := ∅ } } := by
  obtain ⟨tasks, armed, parents, live, registry, he, hr, ht, ha, hp, hl⟩ :=
    foldl_remove e.registry.entities e
  obtain rfl : tasks = ∅ := Table.eq_empty_of_forall_ne fun q t hq => by
    obtain ⟨hq, hnot⟩ := ht q t hq
    obtain ⟨entity, hm, hids⟩ := htasks q t hq
    exact hnot entity hm hids
  obtain rfl : armed = ∅ := Table.eq_empty_of_forall_ne fun q k hq => harmed q k (ha q k hq)
  obtain rfl : parents = ∅ := Table.eq_empty_of_forall_ne fun s c hs => hparents s c (hp s c hs)
  obtain rfl : live = ∅ := Table.eq_empty_of_forall_ne fun k _ hk => by
    obtain ⟨q, hq⟩ := hlive k (hl k ((Table.contains_iff _ _).2 ⟨_, hk⟩))
    exact harmed q k hq
  obtain rfl : registry = {} := by
    obtain ⟨entries⟩ := registry
    refine congrArg Registry.mk (Table.eq_empty_of_forall_ne fun entity known hk => ?_)
    have hfind := (hr entity).symm.trans hk
    split at hfind
    · simp at hfind
    · next hn => exact hn ((Table.mem_keys_iff _ _).2 ⟨known, hfind⟩)
  exact he

section

variable {e₀ e : Engine γ} {gone : List ProcedureId}

/-- once all are cancelled no timer is armed -/
theorem Cancelling.unarmed (h : Cancelling e₀ e gone) (h₀ : e₀.Coherent [])
    (hall : ∀ q t, e₀.tasks.get? q = some t → q ∈ gone) (q : ProcedureId) (k : TimerId) :
    e.armed.get? q ≠ some k := by
  intro hq
  rw [h.armed] at hq
  split at hq
  · simp at hq
  · next hn =>
    obtain ⟨⟨t, ht⟩, -⟩ := h₀.armed hq
    exact hn (hall q t ht)

/-- once all are cancelled nobody waits for another -/
theorem Cancelling.childless (h : Cancelling e₀ e gone) (h₀ : e₀.Coherent [])
    (hall : ∀ q t, e₀.tasks.get? q = some t → q ∈ gone) (s c : ProcedureId) :
    e.parents.get? s ≠ some c := by
  intro hs
  rw [h.parents] at hs
  split at hs
  · simp at hs
  · next hn =>
    obtain ⟨t, ht, -⟩ := h₀.parent hs
    exact hn (hall s t ht)

theorem Cancelling.registered (h : Cancelling e₀ e gone) (h₀ : e₀.Coherent []) {q : ProcedureId}
    {t : Task} (hq : e.tasks.get? q = some t) :
    ∃ entity ∈ e.registry.entities, q ∈ e.registry.ids entity := by
  obtain ⟨u, hu⟩ : ∃ u, e₀.tasks.get? q = some u := by
    rw [h.tasks] at hq
    split at hq
    · next hm => exact h.known q hm
    · exact ⟨t, hq⟩
  have hids : q ∈ e₀.registry.ids u.machine.entity := h₀.registered.2 ⟨u, hu, rfl⟩
  rw [h.registry]
  exact ⟨u.machine.entity, h₀.inhabited.mem_entities_iff.2 ⟨q, hids⟩, hids⟩

end

structure TornDown (e e' : Engine γ) (gone : List ProcedureId) : Prop where
  nodup : gone.Nodup
  gone_iff : ∀ q, q ∈ gone ↔ ∃ t, e.tasks.get? q = some t
  standing : e'.tearingDown = false
  quiet : e'.wakes = []
  registry : e'.registry = {}
  tasks : e'.tasks = ∅
  parents : e'.parents = ∅
  armed : e'.armed = ∅
  live : e'.timers.live = ∅
  timers : ∃ live, e'.timers = { e.timers with live }
  gateway : e'.gateway = e.gateway
  started : e'.started = e.started
  commonClosures : e'.commonClosures = e.commonClosures + 1
  results : ∀ n r, e'.results.get? n = some r ↔ e.results.get? n = some r ∨
    ∃ q ∈ gone, ∃ t, e.tasks.get? q = some t ∧ t.slot = n ∧ r = t.machine.cancellation
  log : e'.log = e.log ++ gone.map .procedureCancelled ++
    if e.registry.entities = [] then [] else [.transactionsLost e.registry.entities]

def reportLost (e : Engine γ) (lost : List EntityId) : Engine γ :=
  { e with
    tearingDown := false
    log := e.log ++ if lost = [] then [] else [.transactionsLost lost] }

theorem transportLost_eq [Gateway γ] {e e₁ : Engine γ} (hreg : e₁.registry = e.registry)
    (he₁ : e.registry.entities.foldl cancelEntity { e with tearingDown := true } = e₁) :
    e.transportLost = (e.registry.entities,
      let e₂ := e.registry.entities.foldl (fun e entity => (e.remove entity).2)
        (e₁.reportLost e.registry.entities)
      { e₂ with commonClosures := e₂.commonClosures + 1 }) := by
  have hlost : e.registry.entities.filter e₁.registry.contains = e.registry.entities := by
    rw [hreg]
    exact List.filter_eq_self.2 fun _ hm => Registry.contains_of_mem_entities hm
  have hemit : (if e.registry.entities = [] then { e₁ with tearingDown := false } else
      ({ e₁ with tearingDown := false } : Engine γ).emit
        (.transactionsLost e.registry.entities)) = e₁.reportLost e.registry.entities := by
    by_cases hnil : e.registry.entities = [] <;> simp [hnil, emit, reportLost]
  unfold transportLost
  simp only [he₁, hlost, List.isEmpty_iff]
  rw [hemit]

theorem Coherent.tornDown [Gateway γ] {e : Engine γ} (h : e.Coherent []) (hw : e.wakes = []) :
    e.transportLost.1 = e.registry.entities ∧ ∃ gone, TornDown e e.transportLost.2 gone := by
  obtain ⟨gone, -, hall, hc, hquiet⟩ := h.cancelling.foldl_cancelEntity e.registry.entities h hw
  generalize he₁ : e.registry.entities.foldl cancelEntity { e with tearingDown := true } = e₁
    at hc hquiet
  have hgone (q : ProcedureId) (t : Task) (ht : e.tasks.get? q = some t) : q ∈ gone :=
    hall q t ht (h.inhabited.mem_entities_iff.2 ⟨q, h.registered.2 ⟨t, ht, rfl⟩⟩)
  have hswept := foldl_remove_entities (e := e₁.reportLost e.registry.entities)
    (fun _ _ hq => hc.registered h hq) (hc.unarmed h hgone) (hc.childless h hgone) hc.live
  have hentities : (e₁.reportLost e.registry.entities).registry.entities = e.registry.entities :=
    congrArg Registry.entities hc.registry
  rw [hentities] at hswept
  rw [transportLost_eq hc.registry he₁, hswept]
  refine ⟨rfl, gone, ?_⟩
  constructor
  case nodup => exact hc.nodup
  case gone_iff => exact fun q => ⟨hc.known q, fun ⟨t, ht⟩ => hgone q t ht⟩
  case quiet => exact hquiet
  case timers =>
    obtain ⟨live, hlive⟩ := hc.timers
    exact ⟨∅, by simp [reportLost, hlive]⟩
  case gateway => exact hc.gateway
  case started => exact hc.started
  case commonClosures => exact congrArg (· + 1) hc.commonClosures
  case results => exact hc.results
  case log => exact congrArg (· ++ _) hc.log
  all_goals rfl

theorem TornDown.without {e e' : Engine γ} {gone : List ProcedureId} (h : TornDown e e' gone)
    (hc : e.Coherent []) : e.Without e' fun _ => True where
  tearingDown := h.standing.trans hc.standing.symm
  started := h.started
  gateway := h.gateway
  timers := h.timers
  tasks := by simp [h.tasks]
  registry := by simp [h.registry, Registry.ids, Registry.find?]
  inhabited _ := h.registry ▸ Registry.inhabited_empty
  armed := by simp [h.armed]
  parents hs := by simp [h.parents] at hs
  results {n} hn := by
    refine Option.ext fun r => (h.results n r).trans ⟨fun hr => hr.resolve_right ?_, .inl⟩
    rintro ⟨q, -, t, ht, he, -⟩
    exact hn q t ht trivial he
  live {k} := by
    simp only [TimerService.isPending, h.live, forall_const]
    refine iff_of_false (by simp [Table.contains]) fun hlive => ?_
    obtain ⟨q, hq⟩ := hc.live hlive.1
    exact hlive.2 q hq

end NgapProcedures.Engine
