import NgapProcedures.Proofs.Engine.Frame
import NgapProcedures.Proofs.Engine.Lifecycle

/-! What a launch returns. A name that a live procedure has is refused, then an entity that has a live
procedure of the kind, and otherwise the launch succeeds: the registry, which lists live procedures
only, never has a say. -/

namespace NgapProcedures.Engine

variable {γ : Type}

def Engaged (e : Engine γ) (entity : EntityId) (kind : Kind) : Prop :=
  ∃ q t, q ∈ e.registry.ids entity ∧ e.tasks.get? q = some t ∧ t.machine.kind = kind ∧
    e.isLive q = true

section

variable {e : Engine γ}

theorem engaged_iff {entity : EntityId} {kind : Kind} :
    e.Engaged entity kind ↔ e.isActive entity kind = true := by
  simp only [Engaged, isActive, List.any_eq_true, isLive]
  refine exists_congr fun q => ?_
  cases e.tasks.get? q with
  | none => simp
  | some t => simp

instance (entity : EntityId) (kind : Kind) : Decidable (e.Engaged entity kind) :=
  decidable_of_iff _ engaged_iff.symm

/-- whoever is known is live -/
theorem Coherent.contains_eq_isLive (h : e.Coherent []) (id : ProcedureId) :
    e.tasks.contains id = e.isLive id := by
  cases ht : e.tasks.get? id with
  | none => simp [Table.contains, isLive, ht]
  | some t => simp [Table.contains, isLive, ht, h.isTerminal ht]

theorem Coherent.get?_eq_none (h : e.Coherent []) {id : ProcedureId} (hid : e.isLive id = false) :
    e.tasks.get? id = none :=
  (Table.contains_eq_false_iff _ _).1 ((h.contains_eq_isLive id).trans hid)

/-- the registry takes every name that is not in use -/
theorem Coherent.register_ok (h : e.Coherent []) (entity : EntityId) {id : ProcedureId}
    (hid : e.isLive id = false) : ∃ registry, e.registry.register entity id = .ok registry :=
  ⟨_, Registry.register_eq_ok_iff.2 ⟨h.unregistered (h.get?_eq_none hid) entity, rfl⟩⟩

theorem Coherent.unknown_of_ready (hc : e.Coherent []) {h : Handle} (hr : e.ready h = true) :
    e.Unknown h := by
  intro q t ht hslot
  have hempty := (hc.slot ht).2
  rw [hslot] at hempty
  simp [ready, result?, hempty] at hr

variable [Gateway γ]

theorem Coherent.launchRetry_fst (h : e.Coherent []) (entity : EntityId) (kind : Kind)
    {machine : ProcedureId → Machine} (hf : ∀ id, (machine id).id = id) :
    (e.launchRetry entity kind machine).1 =
      if e.isLive e.ids.draw.1 then .error (.duplicateId e.ids.draw.1)
      else if e.Engaged entity kind then .error (.alreadyActive entity kind)
      else .ok ⟨e.ids.draw.1, e.started⟩ := by
  have hc := h.contains_eq_isLive e.ids.draw.1
  cases hl : e.isLive e.ids.draw.1 with
  | true => simp [launchRetry, allocateId, hc, hl]
  | false =>
    by_cases ha : e.Engaged entity kind
    · have hi : ({ e with ids := e.ids.draw.2 }).isActive entity kind = true := engaged_iff.1 ha
      simp [launchRetry, allocateId, hc, hl, hi, ha]
    · have hi : ({ e with ids := e.ids.draw.2 }).isActive entity kind = false :=
        Bool.eq_false_iff.2 fun hi => ha (engaged_iff.2 hi)
      obtain ⟨registry, hr⟩ := h.register_ok entity hl
      simp [launchRetry, allocateId, hc, hl, hi, ha, hr, start, hf]

theorem Coherent.isLive_enrollSetup (h : e.Coherent []) {request : ProcedureRequest NgSetupRequest}
    {registry : Registry} (hm : e.Admissible (.setup (.new e.ids.draw.1 request)) registry)
    (id : ProcedureId) : (e.enrollSetup request registry).isLive id = true ↔
      e.isLive id = true ∨ id = e.ids.draw.1 := by
  have hget : (e.enrollSetup request registry).tasks.get? id = if id = e.ids.draw.1 then
      some ⟨(Machine.setup (.new e.ids.draw.1 request)).launched, e.started⟩
    else e.tasks.get? id := Table.get?_insert ..
  by_cases hid : id = e.ids.draw.1
  · rw [if_pos hid] at hget
    exact iff_of_true ((h.enrollSetup hm).isLive_of_get? hget) (.inr hid)
  · rw [if_neg hid] at hget
    simp [isLive, hget, hid]

theorem Coherent.launchConnection_fst (h : e.Coherent []) (hw : e.wakes = [])
    (controller : EntityId) (request : ProcedureRequest NgSetupRequest) :
    (e.launchConnection controller request).1 =
      if e.Engaged controller .amfConnection then
        .error (.alreadyActive controller .amfConnection)
      else match (e.launchSetup request).1 with
        | .error error => .error error
        | .ok _ =>
          if e.isLive e.ids.draw.2.draw.1 ∨ e.ids.draw.2.draw.1 = e.ids.draw.1 then
            .error (.duplicateId e.ids.draw.2.draw.1)
          else .ok ⟨e.ids.draw.2.draw.1, e.started + 1⟩ := by
  by_cases ha : e.Engaged controller .amfConnection
  · simp [launchConnection, engaged_iff.1 ha, ha]
  have hi : e.isActive controller .amfConnection = false :=
    Bool.eq_false_iff.2 fun hi => ha (engaged_iff.2 hi)
  rcases launchSetup_cases hw request with ⟨error, hs⟩ | ⟨registry, hm, hs⟩
  · simp [launchConnection, hi, hs, ha]
  · have hc := h.enrollSetup hm
    have hlive := h.isLive_enrollSetup hm e.ids.draw.2.draw.1
    have hknown := hc.contains_eq_isLive e.ids.draw.2.draw.1
    have hids : (e.enrollSetup request registry).ids = e.ids.draw.2 := rfl
    have hstarted : (e.enrollSetup request registry).started = e.started + 1 := rfl
    generalize e.enrollSetup request registry = e₁ at *
    by_cases hl : e.isLive e.ids.draw.2.draw.1 = true ∨ e.ids.draw.2.draw.1 = e.ids.draw.1
    · have hlive := hlive.2 hl
      simp [launchConnection, hi, hs, allocateId, hids, hknown, hlive, ha, hl]
    · have hlive := Bool.eq_false_iff.2 fun hlive' => hl (hlive.1 hlive')
      obtain ⟨registry', hr⟩ := hc.register_ok controller hlive
      simp [launchConnection, hi, hs, allocateId, hids, hknown, hlive, ha, hl, hr, start, hstarted,
        Machine.id]

theorem Coherent.launchSetup_fst (h : e.Coherent []) (request : ProcedureRequest NgSetupRequest) :
    (e.launchSetup request).1 =
      if e.isLive e.ids.draw.1 then .error (.duplicateId e.ids.draw.1)
      else if e.Engaged request.entity .ngSetup then .error (.alreadyActive request.entity .ngSetup)
      else .ok ⟨e.ids.draw.1, e.started⟩ :=
  h.launchRetry_fst request.entity .ngSetup fun _ => rfl

theorem Coherent.launchConfigUpdate_fst (h : e.Coherent [])
    (request : ProcedureRequest RanConfigurationUpdate) :
    (e.launchConfigUpdate request).1 =
      if e.isLive e.ids.draw.1 then .error (.duplicateId e.ids.draw.1)
      else if e.Engaged request.entity .ranConfigurationUpdate then
        .error (.alreadyActive request.entity .ranConfigurationUpdate)
      else .ok ⟨e.ids.draw.1, e.started⟩ :=
  h.launchRetry_fst request.entity .ranConfigurationUpdate fun _ => rfl

theorem Steady.answer_ne_registry (hs : e.Steady) (op : Operation) (error : RegistryError) :
    (e.step op).1 ≠ .refused (.registry error) := by
  have hlaunched {launched : Except LaunchError Handle} (h : launched ≠ .error (.registry error)) :
      Answer.ofLaunch launched ≠ .refused (.registry error) := by
    cases launched with
    | ok h' => simp [Answer.ofLaunch]
    | error error' => simpa [Answer.ofLaunch] using h
  have hsetup (request : ProcedureRequest NgSetupRequest) :
      (e.launchSetup request).1 ≠ .error (.registry error) := by
    rw [hs.coherent.launchSetup_fst]
    split_ifs <;> simp
  cases op with
  | setup request => exact hlaunched (hsetup request)
  | update request =>
    have hupdate : (e.launchConfigUpdate request).1 ≠ .error (.registry error) := by
      rw [hs.coherent.launchConfigUpdate_fst]
      split_ifs <;> simp
    exact hlaunched hupdate
  | connect controller request =>
    have hconnect : (e.launchConnection controller request).1 ≠ .error (.registry error) := by
      have hne := hsetup request
      rw [hs.coherent.launchConnection_fst hs.quiet]
      cases hl : (e.launchSetup request).1 with
      | error error' =>
        rw [hl] at hne
        dsimp only
        split_ifs
        · simp
        · exact hne
      | ok setup =>
        dsimp only
        split_ifs <;> simp
    exact hlaunched hconnect
  | _ => simp [Engine.step]

/-- nobody is left after the loss of the transport -/
theorem Steady.idle_transportLost (hs : e.Steady) (id : ProcedureId) :
    e.transportLost.2.isLive id = false := by
  obtain ⟨-, gone, ht⟩ := hs.coherent.tornDown hs.quiet
  simp [isLive, ht.tasks]

theorem Steady.isLive_cancel (hs : e.Steady) (x : ProcedureId) :
    (e.cancel x).2.isLive x = false := by
  cases hx : e.tasks.get? x with
  | none => simp [cancel_unknown hx, isLive, hx]
  | some t => simp [isLive, (hs.coherent.cancelled hs.quiet hx).1]

end

/-- What a launch returns after any history. Only live procedures stand in its way: one that has its
result holds no place, one that is cancelled is not live, and after the loss of the transport nobody
is. -/
theorem launch_results_exact [Gateway γ] (gateway : γ) (ids : IdSource) (config : EngineConfig)
    (history : List Operation) :
    let e := (Engine.new gateway ids config).after history
    let i := e.ids.draw.1
    let j := e.ids.draw.2.draw.1
    (∀ request, (e.launchSetup request).1 =
      if e.isLive i then .error (.duplicateId i)
      else if e.Engaged request.entity .ngSetup then .error (.alreadyActive request.entity .ngSetup)
      else .ok ⟨i, e.started⟩) ∧
    (∀ request, (e.launchConfigUpdate request).1 =
      if e.isLive i then .error (.duplicateId i)
      else if e.Engaged request.entity .ranConfigurationUpdate then
        .error (.alreadyActive request.entity .ranConfigurationUpdate)
      else .ok ⟨i, e.started⟩) ∧
    (∀ controller request, (e.launchConnection controller request).1 =
      if e.Engaged controller .amfConnection then
        .error (.alreadyActive controller .amfConnection)
      else match (e.launchSetup request).1 with
        | .error error => .error error
        | .ok _ =>
          if e.isLive j ∨ j = i then .error (.duplicateId j) else .ok ⟨j, e.started + 1⟩) ∧
    (∀ op error, (e.step op).1 ≠ .refused (.registry error)) ∧
    (∀ h, e.ready h = true → e.Unknown h) ∧
    (∀ x, (e.step (.cancel x)).2.isLive x = false) ∧
    let down := (e.step .transportLost).2
    (∀ id, down.isLive id = false) ∧ ∀ entity kind, ¬down.Engaged entity kind := by
  intro e i j
  have hs : e.Steady := steady_after gateway ids config history
  have hc := hs.coherent
  refine ⟨hc.launchSetup_fst, hc.launchConfigUpdate_fst, hc.launchConnection_fst hs.quiet,
    hs.answer_ne_registry, fun h => hc.unknown_of_ready, hs.isLive_cancel, hs.idle_transportLost, ?_⟩
  rintro entity kind ⟨q, -, -, -, -, hq⟩
  exact absurd (hq.symm.trans (hs.idle_transportLost q)) (by simp)

end NgapProcedures.Engine
