import NgapProcedures.Proofs.Engine.Silence

/-! The loss of the transport. Every live instance is cancelled and reported once, whatever the order
in which the instances that wait for each other come, and nothing of them is left but their
results. -/

namespace NgapProcedures.Engine

variable {γ : Type} [Gateway γ]

structure Reported (e : Engine γ) (lost : List EntityId) (e' : Engine γ) : Prop where
  lost_eq : lost = e.registry.entities
  ascending : lost.Pairwise fun a b => compare a b = .lt
  mem_lost_iff : ∀ {entity}, entity ∈ lost ↔
    ∃ id t, e.tasks.get? id = some t ∧ t.machine.entity = entity
  cancelled : ∀ {id t}, e.tasks.get? id = some t → e.ready ⟨id, t.slot⟩ = false ∧
    e'.result? ⟨id, t.slot⟩ = some t.machine.cancellation ∧ e'.isCancelled ⟨id, t.slot⟩ = true
  kept : ∀ {h}, e.ready h = true → e'.result? h = e.result? h
  published : ∀ {h r}, e.ready h = false → e'.result? h = some r → r.isCancelled = true
  registry : e'.registry = {}
  tasks : e'.tasks = ∅
  parents : e'.parents = ∅
  armed : e'.armed = ∅
  pendingTimers : e'.pendingTimers = 0
  quiet : e'.wakes = [] ∧ e'.tearingDown = false
  log : ∃ cancelled : List ProcedureId, cancelled.Perm e.tasks.keys ∧
    e'.log = e.log ++ cancelled.map .procedureCancelled ++
      if lost = [] then [] else [.transactionsLost lost]
  unsent : e.sends .transportLost = [] ∧ e'.gateway = e.gateway
  commonClosures : e'.commonClosures = e.commonClosures + 1

theorem TornDown.reported {e e' : Engine γ} {gone : List ProcedureId} (ht : TornDown e e' gone)
    (h : e.Steady) : e.Reported e.registry.entities e' where
  lost_eq := rfl
  ascending := e.registry.entries.keys_ascending
  mem_lost_iff := by
    intro entity
    rw [h.coherent.inhabited.mem_entities_iff]
    exact exists_congr fun id => h.coherent.registered
  cancelled {id t} hid := by
    have hnone := (h.coherent.slot hid).2
    have hresult := (ht.results t.slot t.machine.cancellation).2
      (.inr ⟨id, (ht.gone_iff id).2 ⟨t, hid⟩, t, hid, rfl, rfl⟩)
    refine ⟨by simp [ready, result?, hnone], hresult, ?_⟩
    simp [isCancelled, result?, hresult, Machine.isCancelled_cancellation]
  kept {h} hready := by
    obtain ⟨r, hr⟩ := Option.isSome_iff_exists.1 hready
    exact ((ht.results h.slot r).2 (.inl hr)).trans hr.symm
  published {h r} hready hr := by
    rcases (ht.results h.slot r).1 hr with hold | ⟨q, -, t, -, -, rfl⟩
    · simp [ready, result?, hold] at hready
    · exact t.machine.isCancelled_cancellation
  registry := ht.registry
  tasks := ht.tasks
  parents := ht.parents
  armed := ht.armed
  pendingTimers := by
    rw [pendingTimers, TimerService.pending, ht.live]
    rfl
  quiet := ⟨ht.quiet, ht.standing⟩
  log := by
    refine ⟨gone, (List.perm_ext_iff_of_nodup ht.nodup e.tasks.keys_nodup).2 fun id => ?_, ht.log⟩
    rw [ht.gone_iff, Table.mem_keys_iff]
  unsent := ⟨sends_transportLost h.quiet, ht.gateway⟩
  commonClosures := ht.commonClosures

theorem Steady.reported {e : Engine γ} (h : e.Steady) :
    e.Reported e.transportLost.1 e.transportLost.2 := by
  obtain ⟨hlost, gone, ht⟩ := h.coherent.tornDown h.quiet
  rw [hlost]
  exact ht.reported h

/-- After any operations the loss of the transport is reported as a whole. -/
theorem transportLost_after (gateway : γ) (ids : IdSource) (config : EngineConfig)
    (history : List Operation) :
    let e := (Engine.new gateway ids config).after history
    e.Reported e.transportLost.1 e.transportLost.2 := by
  intro e
  have h : e.Steady := steady_after gateway ids config history
  exact h.reported

end NgapProcedures.Engine
