import NgapProcedures.Proofs.Engine.Admission

/-! What a refused launch leaves behind. Most cost a name and nothing else. A connection that is
refused when its setup is under way takes the setup back: the request has gone out and three events
tell of it, and everything else is as it was. -/

namespace NgapProcedures

theorem Answer.ofLaunch_eq_refused {launched : Except LaunchError Handle} {error : LaunchError}
    (h : Answer.ofLaunch launched = .refused error) : launched = .error error := by
  cases launched with
  | ok h' => simp [Answer.ofLaunch] at h
  | error error' => simpa [Answer.ofLaunch] using h

namespace Engine

variable {γ : Type} [Gateway γ]

/-- a setup was launched and cancelled again -/
def withdrawn (e : Engine γ) (request : ProcedureRequest NgSetupRequest) : Engine γ :=
  { e with
    ids := e.ids.draw.2.draw.2
    gateway := (Gateway.send e.gateway ⟨request.entity, .ngSetupRequest request.message⟩).2
    log := e.log ++ [.procedureLaunched e.ids.draw.1 Kind.ngSetup.name request.entity,
      .requestSent e.ids.draw.1 1, .procedureCancelled e.ids.draw.1]
    started := e.started + 1
    results := e.results.insert e.started (.setup .cancelled) }

/-- the refusal is that of a place already taken, or the first name drawn is in use -/
def Early (e : Engine γ) (error : LaunchError) : Prop :=
  (∃ entity kind, error = .alreadyActive entity kind) ∨ e.isLive e.ids.draw.1 = true

structure Undisturbed (e e' : Engine γ) : Prop where
  registry : e'.registry = e.registry
  tasks : e'.tasks = e.tasks
  parents : e'.parents = e.parents
  armed : e'.armed = e.armed
  timers : e'.timers = e.timers

/-- the handle was returned by a launch of the history -/
def Issued (e : Engine γ) (history : List Operation) (h : Handle) : Prop :=
  ∃ before op rest, history = before ++ op :: rest ∧ ((e.after before).step op).1 = .handle h

section

variable {e : Engine γ}

theorem Steady.slot_lt_of_issued (hs : e.Steady) {history : List Operation} {h : Handle}
    (hi : e.Issued history h) : h.slot < (e.after history).started := by
  obtain ⟨before, op, rest, rfl, hh⟩ := hi
  have hs₁ := hs.after before
  have hs₂ : ((e.after before).step op).2.Steady := hs₁.after [op]
  have hafter : e.after (before ++ op :: rest) = ((e.after before).step op).2.after rest := by
    rw [after_append]
    rfl
  rw [hafter]
  rcases (hs₁.alive_step hh).after hs₂ rest with ha | ⟨r, hv⟩ | ⟨hv, -⟩
  · obtain ⟨t, ht, hslot⟩ := ha.known
    exact hslot ▸ ((hs₂.after rest).coherent.slot ht).1
  · exact hv.issued
  · exact hv.issued

/-- the setup of a refused connection is taken back -/
theorem Steady.cancel_enrollSetup (hs : e.Steady) {request : ProcedureRequest NgSetupRequest}
    {registry : Registry} (hm : e.Admissible (.setup (.new e.ids.draw.1 request)) registry) :
    ({ e.enrollSetup request registry with ids := e.ids.draw.2.draw.2 }.cancel e.ids.draw.1).2 =
      e.withdrawn request := by
  have hc := hs.coherent
  have hnew : e.tasks.get? e.ids.draw.1 = none := hm.new
  have hp : e.parents.get? e.ids.draw.1 = none := by
    refine Option.eq_none_iff_forall_ne_some.2 fun c hq => ?_
    obtain ⟨t, ht, -⟩ := hc.parent hq
    simp [hnew] at ht
  have ha : e.armed.get? e.ids.draw.1 = none := by
    refine Option.eq_none_iff_forall_ne_some.2 fun k hk => ?_
    obtain ⟨⟨t, ht⟩, -⟩ := hc.armed hk
    simp [hnew] at ht
  let e₁ : Engine γ := { e.enrollSetup request registry with ids := e.ids.draw.2.draw.2 }
  let m : Machine := .setup (.new e.ids.draw.1 request)
  have hget : e₁.tasks.get? e.ids.draw.1 = some ⟨m.launched, e.started⟩ := Table.get?_insert_self ..
  have hclosed : (e₁.cancel e.ids.draw.1).2 = e₁.close e.ids.draw.1 ⟨m.launched, e.started⟩
      (.setup .cancelled) (.procedureCancelled e.ids.draw.1) [] := by
    refine (congrArg Prod.snd (((hc.enrollSetup hm).draw _).cancel_eq hs.quiet hget)).trans ?_
    exact run_close_alone (e := e₁) hs.quiet hp ..
  -- every trace of it is taken back but its result, what was sent and what was told
  have htasks : e₁.tasks.erase e.ids.draw.1 = e.tasks :=
    (Table.erase_insert ..).trans (Table.erase_of_get? hnew)
  have hparents : e₁.parents.erase e.ids.draw.1 = e.parents := Table.erase_of_get? hp
  have harmed : e₁.armed.erase e.ids.draw.1 = e.armed := Table.erase_of_get? ha
  have htimers : e₁.timersWithout e.ids.draw.1 = e.timers := timersWithout_of_get? (e := e₁) ha
  have hregistry : (e₁.registry.deregister m.launched.entity e.ids.draw.1).2 = e.registry :=
    hc.inhabited.deregister_register hm.registered
  have hresults : e₁.results.record e.started (some (.setup .cancelled)) =
      e.results.insert e.started (.setup .cancelled) := by
    have hempty := (Table.contains_eq_false_iff _ _).2 (hc.fresh (Nat.le_refl e.started))
    exact if_neg (Bool.eq_false_iff.1 hempty)
  have hlog : e₁.log ++ [.procedureCancelled e.ids.draw.1] = (e.withdrawn request).log :=
    List.append_assoc ..
  have hwakes : e₁.wakes ++ [] ++ e₁.parentWake e.ids.draw.1 (.procedureDone e.ids.draw.1) =
      e.wakes := by
    rw [parentWake, show e₁.parents.get? _ = none from hp]
    simp [show e₁.wakes = e.wakes from rfl]
  refine hclosed.trans ?_
  rw [Engine.close, htasks, hparents, harmed, htimers, hregistry, hresults, hlog, hwakes]
  rfl

theorem launchConnection_engaged {controller : EntityId} (h : e.Engaged controller .amfConnection)
    (request : ProcedureRequest NgSetupRequest) : e.launchConnection controller request =
      (.error (.alreadyActive controller .amfConnection), e) := by
  simp [launchConnection, engaged_iff.1 h]

theorem launchConnection_of_launchSetup {controller : EntityId}
    (h : ¬e.Engaged controller .amfConnection) {request : ProcedureRequest NgSetupRequest}
    {error : LaunchError} {e' : Engine γ} (he : e.launchSetup request = (.error error, e')) :
    e.launchConnection controller request = (.error error, e') := by
  have hi : e.isActive controller .amfConnection = false :=
    Bool.eq_false_iff.2 fun hi => h (engaged_iff.2 hi)
  simp [launchConnection, hi, he]

theorem Steady.launchSetup_refused (hs : e.Steady) {request : ProcedureRequest NgSetupRequest}
    {error : LaunchError} (hr : (e.launchSetup request).1 = .error error) :
    e.launchSetup request = (.error error, { e with ids := e.ids.draw.2 }) ∧
      e.Early error := by
  constructor
  · rcases launchSetup_cases hs.quiet request with ⟨error', he⟩ | ⟨registry, hm, he⟩
    · obtain rfl : error' = error := by simpa [he] using hr
      exact he
    · simp [he] at hr
  · rw [hs.coherent.launchSetup_fst] at hr
    split_ifs at hr with hlive hactive
    · exact .inr hlive
    · exact .inl ⟨_, _, (Except.error.inj hr).symm⟩

theorem Steady.launchConfigUpdate_refused (hs : e.Steady)
    {request : ProcedureRequest RanConfigurationUpdate} {error : LaunchError}
    (hr : (e.launchConfigUpdate request).1 = .error error) :
    (e.launchConfigUpdate request).2 = { e with ids := e.ids.draw.2 } := by
  rcases launchConfigUpdate_cases hs.quiet request with ⟨error', he⟩ | ⟨registry, hm, he⟩
  · rw [he]
  · simp [he] at hr

/-- A connection is refused before its setup is launched, or with it. What it is refused with tells
which. -/
theorem Steady.launchConnection_refused (hs : e.Steady) {controller : EntityId}
    {request : ProcedureRequest NgSetupRequest} {error : LaunchError}
    (hr : (e.launchConnection controller request).1 = .error error) :
    let e' := (e.launchConnection controller request).2
    e.Early error ∧ (e' = e ∨ e' = { e with ids := e.ids.draw.2 }) ∨
      ¬e.Early error ∧ e' = e.withdrawn request := by
  intro e'
  have hc := hs.coherent
  have hexact := hc.launchConnection_fst hs.quiet controller request
  by_cases ha : e.Engaged controller .amfConnection
  · have he := launchConnection_engaged ha request
    obtain rfl : _ = error := Except.error.inj ((congrArg Prod.fst he).symm.trans hr)
    exact .inl ⟨.inl ⟨_, _, rfl⟩, .inl (congrArg Prod.snd he)⟩
  cases hsetup : (e.launchSetup request).1 with
  | error error' =>
    obtain ⟨he, hwhy⟩ := hs.launchSetup_refused hsetup
    replace he := launchConnection_of_launchSetup ha he
    obtain rfl : error' = error := Except.error.inj ((congrArg Prod.fst he).symm.trans hr)
    exact .inl ⟨hwhy, .inr (congrArg Prod.snd he)⟩
  | ok setup =>
    rw [hr, if_neg ha, hsetup] at hexact
    dsimp only at hexact
    split_ifs at hexact
    obtain rfl := Except.error.inj hexact
    rcases launchConnection_cases hc hs.quiet controller request with
      ⟨error, ids, -, hnone⟩ | ⟨registry, hm, -, -, ⟨error, he⟩ | ⟨registry', -, he⟩⟩
    · have hrefused := hnone (Bool.eq_false_iff.2 fun hi => ha (engaged_iff.2 hi))
      simp [hsetup] at hrefused
    · have hnew : e.tasks.get? e.ids.draw.1 = none := hm.new
      refine .inr ⟨by simp [Early, isLive, hnew], ?_⟩
      exact (congrArg Prod.snd he).trans (hs.cancel_enrollSetup hm)
    · simp [he] at hr

/-- what a refused launch leaves, of any kind -/
theorem Steady.step_refused (hs : e.Steady) {op : Operation} {error : LaunchError}
    (hr : (e.step op).1 = .refused error) : (∃ ids, (e.step op).2 = { e with ids }) ∨
      ∃ request, (e.step op).2 = e.withdrawn request := by
  cases op with
  | setup request =>
    have he := (hs.launchSetup_refused (Answer.ofLaunch_eq_refused hr)).1
    exact .inl ⟨_, congrArg Prod.snd he⟩
  | update request =>
    exact .inl ⟨_, hs.launchConfigUpdate_refused (Answer.ofLaunch_eq_refused hr)⟩
  | connect controller request =>
    rcases hs.launchConnection_refused (Answer.ofLaunch_eq_refused hr) with
      ⟨-, he | he⟩ | ⟨-, he⟩
    · exact .inl ⟨e.ids, he⟩
    · exact .inl ⟨_, he⟩
    · exact .inr ⟨request, he⟩
  | _ => simp [Engine.step] at hr

end

/-- A launch that is refused after any history disturbs nobody, and every handle returned before
reads what it read before. It costs a name at most and has no other effect, unless it is that of a
connection whose setup was launched: that has gone to the gateway and is told of, and is not known
any more. -/
theorem refused_launch (gateway : γ) (ids : IdSource) (config : EngineConfig)
    (history : List Operation) :
    let start := Engine.new gateway ids config
    let e := start.after history
    let i := e.ids.draw.1
    (∀ op error, (e.step op).1 = .refused error → e.Undisturbed (e.step op).2 ∧
      ∀ h, start.Issued history h → (e.step op).2.result? h = e.result? h) ∧
    (∀ request error, (e.launchSetup request).1 = .error error →
      (e.launchSetup request).2 = { e with ids := e.ids.draw.2 }) ∧
    (∀ request error, (e.launchConfigUpdate request).1 = .error error →
      (e.launchConfigUpdate request).2 = { e with ids := e.ids.draw.2 }) ∧
    ∀ controller request error, (e.launchConnection controller request).1 = .error error →
      let e' := (e.launchConnection controller request).2
      (e.Early error → e' = e ∨ e' = { e with ids := e.ids.draw.2 }) ∧
      (¬e.Early error → e' = e.withdrawn request ∧ e'.tasks.get? i = none ∧
        ∀ entity, i ∉ e'.registry.ids entity) := by
  intro start e i
  have hs : e.Steady := steady_after gateway ids config history
  refine ⟨fun op error hr => ?_, fun request error hr => ?_,
    fun request error hr => hs.launchConfigUpdate_refused hr,
    fun controller request error hr => ?_⟩
  · rcases hs.step_refused hr with ⟨ids, he⟩ | ⟨request, he⟩
    · rw [he]
      exact ⟨⟨rfl, rfl, rfl, rfl, rfl⟩, fun _ _ => rfl⟩
    · rw [he]
      refine ⟨⟨rfl, rfl, rfl, rfl, rfl⟩, fun h hi => Table.get?_insert_other _ _ ?_⟩
      exact Nat.ne_of_lt ((steady_new gateway ids config).slot_lt_of_issued hi)
  · exact congrArg Prod.snd (hs.launchSetup_refused hr).1
  · rcases hs.launchConnection_refused hr with ⟨hearly, he⟩ | ⟨hlate, he⟩
    · exact ⟨fun _ => he, fun hlate => absurd hearly hlate⟩
    · have hgone : (e.withdrawn request).tasks.get? i = none :=
        hs.coherent.get?_eq_none (Bool.eq_false_iff.2 fun hlive => hlate (.inr hlive))
      refine ⟨fun hearly => absurd hearly hlate, fun _ => ⟨he, ?_⟩⟩
      rw [he]
      exact ⟨hgone, hs.coherent.unregistered hgone⟩

/-- a supply that repeats itself names the connection as it named the setup -/
example :
    let request : ProcedureRequest NgSetupRequest :=
      ⟨⟨"amf-1"⟩, ⟨⟨"00101", 411, 22⟩, none, [⟨7, ["00101"]⟩], .v128⟩, 1⟩
    let e := Engine.new (⟨⟩ : NoGateway) (.listed "a" []) {}
    (e.step (.connect ⟨"amf-2"⟩ request)).1 = .refused (.duplicateId ⟨"a"⟩) ∧
      ¬e.Early (.duplicateId ⟨"a"⟩) := by
  refine ⟨by decide +kernel, ?_⟩
  rintro (⟨entity, kind, h⟩ | h)
  · cases h
  · exact absurd h (by decide +kernel)

end Engine

end NgapProcedures
