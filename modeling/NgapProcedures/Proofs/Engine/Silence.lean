import NgapProcedures.Proofs.Engine.Sends

/-! What makes instances send. Launches make the new instance send, ticks those whose wait is over;
replies, cancellations, removals and the loss of the transport make nobody send. -/

namespace NgapProcedures

/-- wakes that make no instance send -/
def Wake.Silent : Wake → Prop
  | launch | timerFired => False
  | _ => True

theorem Wake.Ending.silent {w : Wake} (h : w.Ending) : w.Silent := by
  cases w <;> simp_all [Wake.Ending, Wake.Silent]

/-- only a launch and the end of a wait make a retry procedure send -/
theorem RetryProcedure.messages_transition {ρ σ : Type} (P : RetryProtocol ρ σ)
    (p : RetryProcedure ρ σ) {event : RetryEvent σ} (hl : event ≠ .launch)
    (ht : event ≠ .timerFired) : (p.transition P event).2.filterMap Effect.message? = [] := by
  unfold transition
  split
  all_goals try simp_all [List.filterMap_cons, Effect.message?]
  unfold onFailure
  split
  · simp
  · split <;> simp [exhausted]

theorem AmfConnection.messages_transition (c : AmfConnection) (event : ConnectionEvent) :
    (c.transition event).2.filterMap Effect.message? = [] := by
  unfold transition
  split
  all_goals try simp [List.filterMap_cons, Effect.message?]
  next setup _ => cases setup <;> simp [report, outcomeOf]

theorem Machine.messages_resume {m m' : Machine} {results : Results} {w : Wake}
    {effects : List Effect} (h : m.resume results w = some (m', effects)) (hw : w.Silent) :
    effects.filterMap Effect.message? = [] := by
  have hevent {ρ σ : Type} {P : RetryProtocol ρ σ} {event : RetryEvent σ}
      (he : P.eventOf w = some event) : event ≠ .launch ∧ event ≠ .timerFired := by
    cases w <;> simp_all [RetryProtocol.eventOf, Wake.Silent]
    · obtain ⟨reply, -, rfl⟩ := he
      simp
    · subst he
      simp
  cases m with
  | setup p =>
    simp only [resume, Option.map_eq_some_iff, Prod.mk.injEq] at h
    obtain ⟨event, he, rfl, rfl⟩ := h
    exact p.messages_transition ngSetup (hevent he).1 (hevent he).2
  | update p =>
    simp only [resume, Option.map_eq_some_iff, Prod.mk.injEq] at h
    obtain ⟨event, he, rfl, rfl⟩ := h
    exact p.messages_transition ranConfigurationUpdate (hevent he).1 (hevent he).2
  | connection c slot =>
    simp only [resume, Option.map_eq_some_iff, Prod.mk.injEq] at h
    obtain ⟨event, he, rfl, rfl⟩ := h
    exact c.messages_transition event

namespace Engine

variable {γ : Type}

theorem dispatchSends_silent (e : Engine γ) (id : ProcedureId) {w : Wake} (hw : w.Silent) :
    e.dispatchSends id w = [] := by
  unfold dispatchSends
  cases e.tasks.get? id with
  | none => rfl
  | some t =>
    dsimp only
    split
    · unfold Task.resume
      split
      · rfl
      · next hr => simp [Machine.messages_resume hr hw]
    · rfl

theorem sendsAlong_eq_nil {α : Type} {f : Engine γ → α → Engine γ}
    {sends : Engine γ → α → List (Nat × PeerMessage)}
    (hf : ∀ e a, e.wakes = [] → (f e a).wakes = [] ∧ sends e a = []) {e : Engine γ}
    (hw : e.wakes = []) (l : List α) :
    sendsAlong f sends e l = [] ∧ (l.foldl f e).wakes = [] := by
  induction l generalizing e with
  | nil => exact ⟨rfl, hw⟩
  | cons a rest ih =>
    obtain ⟨hwa, hsa⟩ := hf e a hw
    obtain ⟨hrest, hnil⟩ := ih hwa
    exact ⟨by rw [sendsAlong, hsa, hrest]; rfl, hnil⟩

variable [Gateway γ]

/-- the wakes that effects queue tell of ends -/
theorem ending_of_mem_performAll {owner : ProcedureId} {effects : List Effect} {e : Engine γ}
    {x : ProcedureId × Wake} (hx : x ∈ (e.performAll owner effects).wakes) :
    x ∈ e.wakes ∨ x.2.Ending := by
  unfold performAll at hx
  induction effects generalizing e with
  | nil => exact .inl hx
  | cons effect rest ih =>
    rcases ih hx with hx | hx
    · cases effect <;>
        simp_all [perform, armTimer, releaseTimer_eq, wake, emit]
      rcases hx with hx | rfl
      · exact .inl hx
      · exact .inr trivial
    · exact .inr hx

omit [Gateway γ] in
theorem ending_of_mem_settle {e : Engine γ} {id : ProcedureId} {c : Bool}
    {x : ProcedureId × Wake} (hx : x ∈ (e.settle id c).wakes) : x ∈ e.wakes ∨ x.2.Ending := by
  have hparent : x ∈ ((e.releaseTimer id).notifyParent id c).wakes →
      x ∈ e.wakes ∨ x.2.Ending := by
    rw [notifyParent_eq, releaseTimer_eq]
    intro hx
    rcases List.mem_append.1 hx with hx | hx
    · exact .inl hx
    · obtain ⟨q, -, rfl⟩ := List.mem_map.1 hx
      dsimp only
      split <;> exact .inr trivial
  unfold settle at hx
  dsimp only at hx
  split at hx
  · exact hparent hx
  · refine hparent ?_
    rw [forget_eq] at hx
    unfold deregister at hx
    split at hx <;> exact hx

theorem ending_of_mem_dispatch {e : Engine γ} {id : ProcedureId} {w : Wake}
    {x : ProcedureId × Wake} (hx : x ∈ (e.dispatch id w).wakes) :
    x ∈ e.wakes ∨ x.2.Ending := by
  unfold dispatch at hx
  split at hx
  · exact .inl hx
  · split at hx
    · dsimp only at hx
      split at hx
      · rcases ending_of_mem_settle hx with hx | hx
        · have := ending_of_mem_performAll hx
          exact this
        · exact .inr hx
      · have := ending_of_mem_performAll hx
        exact this
    · exact .inl hx

theorem runSends_silent {e : Engine γ} (h : ∀ x ∈ e.wakes, x.2.Silent) : e.runSends = [] := by
  induction e using run.induct with
  | case1 e hnil => exact runSends_of_wakes_nil hnil
  | case2 e id w rest hcons ih =>
    rw [hcons, List.forall_mem_cons] at h
    rw [runSends_of_wakes_cons hcons, dispatchSends_silent _ id h.1, List.nil_append]
    refine ih fun x hx => ?_
    rcases ending_of_mem_dispatch hx with hx | hx
    · exact h.2 x hx
    · exact hx.silent

theorem wakes_run (e : Engine γ) : e.run.wakes = [] :=
  (run_induction (P := fun _ => True) (fun _ _ _ _ _ _ => trivial) trivial).2

theorem cancelSends_eq_nil {e : Engine γ} (hw : e.wakes = []) (id : ProcedureId) :
    (e.cancel id).2.wakes = [] ∧ e.cancelSends id = [] := by
  constructor
  · unfold cancel
    split
    · exact wakes_run _
    · exact hw
  · unfold cancelSends
    split
    · exact runSends_silent (by simp [wake, hw, Wake.Silent])
    · rfl

theorem handleMessageSends_eq_nil {e : Engine γ} (hw : e.wakes = []) (m : PeerMessage) :
    e.handleMessageSends m = [] := by
  unfold handleMessageSends
  split
  · exact runSends_silent (by simp [wake, hw, Wake.Silent])
  · rfl

/-- nothing is sent while the transport is lost -/
theorem sends_transportLost {e : Engine γ} (hw : e.wakes = []) : e.sends .transportLost = [] := by
  have hentity (e : Engine γ) (entity : EntityId) (hw : e.wakes = []) :
      (e.cancelEntity entity).wakes = [] ∧ e.cancelEntitySends entity = [] :=
    (sendsAlong_eq_nil (fun e id hw => cancelSends_eq_nil hw id) hw _).symm
  exact (sendsAlong_eq_nil hentity (e := { e with tearingDown := true }) hw _).1

theorem runSends_start {e : Engine γ} {m : Machine} (hw : e.wakes = []) (hm : m.Fresh) :
    (e.start m).2.runSends = m.request?.toList.map (e.started, ·) := by
  have hstart : (e.start m).2 = (e.seat m).wake m.id .launch := rfl
  have hcons : ((e.seat m).wake m.id .launch).wakes = [(m.id, .launch)] := by
    simp [wake, seat, hw]
  have hseat : { (e.seat m).wake m.id .launch with wakes := [] } = e.seat m := by
    simp [wake, seat, hw]
  have hget : (e.seat m).tasks.get? m.id = some ⟨m, e.started⟩ := Table.get?_insert_self ..
  rw [hstart, runSends_of_wakes_cons hcons, hseat, e.dispatch_launch hm,
    runSends_of_wakes_nil (show (e.enroll m).wakes = [] from hw), List.append_nil]
  simp only [dispatchSends, hget, hm.unlaunched, ↓reduceIte, Task.resume, hm.opens]
  cases hr : m.request? <;> simp [Machine.opening, hr, List.filterMap_cons, Effect.message?]

theorem launchRetrySends_eq {e : Engine γ} (hw : e.wakes = []) {entity : EntityId} {kind : Kind}
    {machine : ProcedureId → Machine} (hf : ∀ id, (machine id).Fresh) :
    e.launchRetrySends entity kind machine =
      match (e.launchRetry entity kind machine).1 with
      | .ok _ => (machine e.ids.draw.1).request?.toList.map (e.started, ·)
      | .error _ => [] := by
  unfold launchRetrySends launchRetry allocateId
  cases hc : e.tasks.contains e.ids.draw.1 with
  | true => simp [hc]
  | false =>
    cases hi : ({ e with ids := e.ids.draw.2 }).isActive entity kind with
    | true => simp [hc, hi]
    | false =>
      cases hr : e.registry.register entity e.ids.draw.1 with
      | error error => simp [hc, hi, hr]
      | ok registry =>
        simp only [hc, hi, hr, Bool.false_eq_true, ↓reduceIte]
        exact runSends_start (e := { e with ids := e.ids.draw.2, registry }) hw (hf _)

theorem launchSetupSends_eq {e : Engine γ} (hw : e.wakes = [])
    (request : ProcedureRequest NgSetupRequest) :
    e.launchSetupSends request =
      match (e.launchSetup request).1 with
      | .ok _ => (Machine.setup (.new e.ids.draw.1 request)).request?.toList.map (e.started, ·)
      | .error _ => [] :=
  launchRetrySends_eq hw fun id => Machine.fresh_setup id request

/-- A connection sends nothing, and neither does the end of its setup when it cannot follow. -/
theorem Steady.launchConnectionSends_eq {e : Engine γ} (h : e.Steady) (controller : EntityId)
    (request : ProcedureRequest NgSetupRequest) : e.launchConnectionSends controller request =
      if e.isActive controller .amfConnection then [] else e.launchSetupSends request := by
  unfold launchConnectionSends
  split
  · rfl
  · refine List.append_right_eq_self.2 ?_
    rcases launchSetup_cases h.quiet request with ⟨error, he⟩ | ⟨registry, hm, he⟩
    · simp [he]
    · have h₁ := h.moves (moves_enrollSetup hm .drainEvents)
      have hempty : (e.enrollSetup request registry).results.get? e.started = none :=
        h.coherent.fresh (Nat.le_refl _)
      generalize e.enrollSetup request registry = e₁ at he h₁ hempty
      have hcancel : ({ e₁ with ids := e₁.ids.draw.2 }).cancelSends e.ids.draw.1 = [] :=
        (cancelSends_eq_nil (e := { e₁ with ids := e₁.ids.draw.2 }) h₁.quiet _).2
      unfold allocateId
      cases hc : e₁.tasks.contains e₁.ids.draw.1 with
      | true => simp [he, hc, hcancel]
      | false =>
        cases hr : e₁.registry.register controller e₁.ids.draw.1 with
        | error error => simp [he, hc, hr, hcancel]
        | ok registry' =>
          have hstart := runSends_start (e := { e₁ with
              ids := e₁.ids.draw.2
              registry := registry'
              parents := e₁.parents.insert e.ids.draw.1 e₁.ids.draw.1 }) h₁.quiet
            (Machine.fresh_connection e₁.ids.draw.1 e.ids.draw.1 controller request.entity
              e.started)
          simp only [start, wake, emit, Machine.request?, Option.toList_none, List.map_nil]
            at hstart
          simp only [he, hc, hr, ready, result?, start, wake, emit, hempty, Option.isSome_none,
            Bool.false_eq_true, ↓reduceIte]
          exact hstart

theorem runSends_due {e : Engine γ} {due : List ProcedureId} (h : e.Coherent due)
    (hw : e.wakes = due.map (·, .timerFired)) : e.runSends = e.requests due := by
  induction due generalizing e with
  | nil => exact runSends_of_wakes_nil hw
  | cons id rest ih =>
    have h₀ := h.wakes (rest.map (·, .timerFired))
    obtain ⟨t, ht⟩ := h₀.due_known (List.mem_cons_self ..)
    have hwait := (h₀.backoff ht).2 (.inr (List.mem_cons_self ..))
    have hs := h₀.suspended ht
    obtain ⟨message, hreq, hres⟩ := Machine.resume_timerFired hs hwait e.results
    obtain ⟨message', hreq', hsend⟩ := dispatch_timerFired ht hs hwait (h₀.named ht)
    rw [hreq] at hreq'
    obtain rfl := Option.some.inj hreq'
    have hsent : ({ e with wakes := rest.map (·, .timerFired) }).dispatchSends id .timerFired =
        [(t.slot, message)] := by
      have hx : t.machine.expects .timerFired = true := by simp [Machine.expects, hwait]
      simp [dispatchSends, ht, hx, Task.resume, hres, List.filterMap_cons, Effect.message?]
    have hrest : (({ e with wakes := rest.map (·, .timerFired) } : Engine γ).transmit id
        { t with machine := t.machine.resent } message t.machine.resent.transmissions).requests
          rest = e.requests rest := by
      refine requests_congr fun q hq => Table.get?_insert_other _ _ fun hc => ?_
      exact (List.nodup_cons.1 h.due_nodup).1 (hc ▸ hq)
    rw [runSends_of_wakes_cons hw, hsent, hsend, ih (h₀.transmit ht hwait message _) rfl, hrest]
    have ht : e.tasks.get? id = some t := ht
    simp [requests, ht, hreq]

theorem Steady.advanceSends_eq {e : Engine γ} (h : e.Steady) :
    e.advanceSends = e.requests (expiring e.armed e.timers.advance.1) := by
  obtain ⟨armed, he, ha⟩ := foldl_expire e.timers.advance.1 { e with timers := e.timers.advance.2 }
  have hwakes : ({ e with timers := e.timers.advance.2 } : Engine γ).wakes = [] := h.quiet
  unfold advanceSends
  rw [he, hwakes, List.nil_append]
  exact runSends_due ((h.coherent.tickedOver ha).wakes _) rfl

/-- Whoever sends is new, or its wait is over. -/
theorem Steady.mem_sends {e : Engine γ} (h : e.Steady) {op : Operation}
    (hop : ∀ k, op ≠ .advanceBy k) {x : Nat × PeerMessage} (hx : x ∈ e.sends op) :
    x.1 = e.started ∨
      op = .advance ∧ x ∈ e.requests (expiring e.armed e.timers.advance.1) := by
  have hlaunch {entity : EntityId} {kind : Kind} {machine : ProcedureId → Machine}
      (hf : ∀ id, (machine id).Fresh) (hx : x ∈ e.launchRetrySends entity kind machine) :
      x.1 = e.started := by
    rw [launchRetrySends_eq h.quiet hf] at hx
    split at hx
    · obtain ⟨message, -, rfl⟩ := List.mem_map.1 hx
      rfl
    · simp at hx
  cases op with
  | setup request =>
    exact .inl (hlaunch (fun id => Machine.fresh_setup id request) hx)
  | update request =>
    exact .inl (hlaunch (fun id => Machine.fresh_update id request) hx)
  | connect controller request =>
    have hx : x ∈ e.launchConnectionSends controller request := hx
    rw [h.launchConnectionSends_eq] at hx
    split at hx
    · simp at hx
    · exact .inl (hlaunch (fun id => Machine.fresh_setup id request) hx)
  | message m =>
    have hx : x ∈ e.handleMessageSends m := hx
    simp [handleMessageSends_eq_nil h.quiet] at hx
  | advance =>
    have hx : x ∈ e.advanceSends := hx
    rw [h.advanceSends_eq] at hx
    exact .inr ⟨rfl, hx⟩
  | advanceBy k => exact absurd rfl (hop k)
  | cancel id =>
    have hx : x ∈ e.cancelSends id := hx
    simp [(cancelSends_eq_nil h.quiet id).2] at hx
  | remove entity => simp [sends] at hx
  | transportLost => simp [sends_transportLost h.quiet] at hx
  | drainEvents => simp [sends] at hx

end Engine

end NgapProcedures
