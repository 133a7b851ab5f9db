import NgapProcedures.Proofs.Engine.Links
import NgapProcedures.Proofs.Engine.Log
import NgapProcedures.Proofs.Engine.Together

/-! Agreement over whole histories. From its launch on, a connection and its setup are both live or
both settled at the end of every operation, and what they settle with agrees, as long as no entity is
removed. -/

namespace NgapProcedures.Engine

variable {γ : Type} [Gateway γ]

section

variable {op : Operation} {e : Engine γ} {c : AmfConnection} {slot slot' : Nat}

theorem ne_announced_of_mem_logged {amf : EntityId}
    (h : op ≠ .drainEvents → Unannounced amf e (e.step op).2) {event : Event}
    (hm : event ∈ e.logged op) : event.announced? ≠ some amf := by
  by_cases hop : op = .drainEvents
  · subst hop
    simp [logged] at hm
  · obtain ⟨events, hlog, hquiet⟩ := h hop
    have hlogged : e.logged op = events :=
      List.append_cancel_left ((e.log_step hop).symm.trans hlog)
    exact hquiet event (hlogged ▸ hm)

theorem Tied.matched {history : List Operation} (h : Tied e history)
    (hn : ∀ entity, .remove entity ∉ history) : (e.after history).Matched where
  connection hq := (h.connection hq).resolve_right fun ⟨_, entity, _, heq, _⟩ =>
    hn entity (by simp [heq])
  parent hp := by
    obtain ⟨t, -, c, slot', hs, hc, hcase⟩ := h.parent hp
    exact ⟨c, t.slot, slot', hcase.resolve_right fun ⟨_, entity, _, heq, _⟩ =>
      hn entity (by simp [heq]), hs, hc⟩

structure EndedAt (e : Engine γ) (history : List Operation) (c : AmfConnection) (slot slot' : Nat)
    (before : List Operation) (op : Operation) (rest : List Operation) : Prop where
  split : history = before ++ op :: rest
  joined : ∀ {a}, a <+: before → (e.after a).Joined c slot slot'
  outcomes : ∃ outcome setup, (e.after (before ++ [op])).Vacant slot' (some (.connection outcome)) ∧
    (e.after (before ++ [op])).Vacant slot (some (.setup setup)) ∧
    Agreed op c.id c.setup outcome setup ∧
    (outcome = .cancelled → ∀ event ∈ e.loggedDuring (before ++ [op]),
      event.announced? ≠ some c.amf)

/-- Two that are joined stay so and nothing is announced about their AMF, or an operation has ended
both, as long as all that wait are matched. -/
theorem Joined.after (h : e.Joined c slot slot') (hs : e.Steady) (history : List Operation)
    (hm : ∀ before, before <+: history → (e.after before).Matched)
    (hn : ∀ entity, .remove entity ∉ history) :
    (∀ {a}, a <+: history → (e.after a).Joined c slot slot') ∧
      (∀ event ∈ e.loggedDuring history, event.announced? ≠ some c.amf) ∨
    ∃ before op rest, e.EndedAt history c slot slot' before op rest := by
  induction history using List.reverseRecOn with
  | nil =>
    refine .inl ⟨fun ha => ?_, by simp [loggedDuring]⟩
    rw [List.prefix_nil.1 ha]
    exact h
  | append_singleton history op ih =>
    rcases ih (fun before hb => hm before (hb.trans (List.prefix_append ..)))
        (fun entity hmem => hn entity (by simp [hmem])) with
      ⟨hj, hquiet⟩ | ⟨before, op', rest, rfl, hj, hends⟩
    · have hs' := hs.after history
      have hnext : e.after (history ++ [op]) = ((e.after history).step op).2 := after_append ..
      have hlogged : e.loggedDuring (history ++ [op]) =
          e.loggedDuring history ++ (e.after history).logged op := by
        simp [loggedDuring_append, loggedDuring]
      have hop : ∀ entity, op ≠ .remove entity := fun entity hop => hn entity (by simp [hop])
      have hlast := hj (List.prefix_refl _)
      rcases hlast.step hs' (hm history (List.prefix_append ..)) hop with ⟨hj', hlog⟩ | hend
      · refine .inl ⟨fun ha => ?_, fun event hmem => ?_⟩
        · rcases List.prefix_concat_iff.1 ha with rfl | ha
          · exact hnext ▸ hj'
          · exact hj ha
        · rw [hlogged] at hmem
          exact (List.mem_append.1 hmem).elim (hquiet event) (ne_announced_of_mem_logged hlog)
      · obtain ⟨⟨gone, hw⟩, hsetup, hconnection, outcome, setup, hr', hr, ha, hlog⟩ := hend
        have hvacant {q : ProcedureId} {t : Task} (ht : (e.after history).tasks.get? q = some t)
            (hnone : ((e.after history).step op).2.tasks.get? q = none) :
            ((e.after history).step op).2.Vacant t.slot
              (((e.after history).step op).2.results.get? t.slot) := by
          refine hs'.coherent.vacant hw ht ?_
          by_contra hg
          simp [hw.tasks.2 ⟨ht, hg⟩] at hnone
        obtain ⟨t, ht, rfl, -⟩ := hlast.setup
        refine .inr ⟨history, op, [], rfl, hj, outcome, setup, ?_, ?_, ha, fun hc event hmem => ?_⟩
        · rw [hnext, ← hr']
          exact hvacant hlast.connection hconnection
        · rw [hnext, ← hr]
          exact hvacant ht hsetup
        · rw [hlogged] at hmem
          exact (List.mem_append.1 hmem).elim (hquiet event)
            (ne_announced_of_mem_logged fun _ => hlog hc)
    · exact .inr ⟨before, op', rest ++ [op], by simp, hj, hends⟩

structure BothLive (e : Engine γ) (h s : Handle) : Prop where
  linked : e.Linked s.id h.id
  connection : ∃ c, e.tasks.get? h.id = some ⟨.connection c s.slot, h.slot⟩
  setup : ∃ t, e.tasks.get? s.id = some t ∧ t.slot = s.slot
  unready : e.ready h = false ∧ e.ready s = false

structure BothSettled (e : Engine γ) (h s : Handle) (outcome : ConnectionOutcome)
    (setup : RetryOutcome NgSetupResponse) : Prop where
  connection : e.result? h = some (.connection outcome)
  setup : e.result? s = some (.setup setup)
  gone : ∀ {q t}, e.tasks.get? q = some t → t.slot ≠ h.slot ∧ t.slot ≠ s.slot

omit [Gateway γ] in
theorem Joined.bothLive (h : e.Joined c slot slot') (hc : e.Coherent []) :
    e.BothLive ⟨c.id, slot'⟩ ⟨c.setup, slot⟩ := by
  obtain ⟨t, ht, hslot, -⟩ := h.setup
  have hempty := (hc.slot h.connection).2
  exact ⟨h.linked hc, ⟨c, h.connection⟩, ⟨t, ht, hslot⟩, by simp [ready, result?, hempty],
    by simp [ready, result?, h.empty hc]⟩

/-- a launch that hands out a handle joins the connection to the setup launched for it -/
theorem Steady.joined_connect (hs : e.Steady) {controller : EntityId}
    {request : ProcedureRequest NgSetupRequest} {h : Handle}
    (hl : (e.step (.connect controller request)).1 = .handle h) :
    ∃ c slot, c.id = h.id ∧ c.amf = request.entity ∧
      (e.step (.connect controller request)).2.Joined c slot h.slot ∧
      Unannounced request.entity e (e.step (.connect controller request)).2 := by
  rcases launchConnection_cases hs.coherent hs.quiet controller request with
    ⟨error, ids, he, -⟩ | ⟨registry, hm, -, -, ⟨error, he⟩ | ⟨registry', hm', he⟩⟩
  · simp [step, he, Answer.ofLaunch] at hl
  · simp [step, he, Answer.ofLaunch] at hl
  · let c : AmfConnection := .launched ⟨(e.enrollSetup request registry).ids.draw.1, controller,
      request.entity, e.ids.draw.1, .created, none⟩
    simp only [step, he, Answer.ofLaunch, Answer.handle.injEq] at hl ⊢
    subst hl
    refine ⟨c, e.started, rfl, rfl, ?_, ?_⟩
    · exact joined_of_insert (c := c) hm'.new ⟨rfl, rfl, rfl⟩ rfl rfl
    · exact (unannounced_enroll _ { e with ids := e.ids.draw.2, registry } _).trans
        (unannounced_enroll _ { (e.enrollSetup request registry).link e.ids.draw.1 with
          registry := registry' } _)

end

/-- From its launch on, a connection and the setup that was launched for it are both live at the end
of every operation, until one operation ends both. Their outcomes agree, and a connection that was
cancelled announces neither success nor failure. -/
theorem together_after (gateway : γ) (ids : IdSource) (config : EngineConfig)
    (history : List Operation) (controller : EntityId)
    (request : ProcedureRequest NgSetupRequest) (h : Handle)
    (hhistory : ∀ entity, .remove entity ∉ history)
    (hlaunch : (((Engine.new gateway ids config).after history).step
      (.connect controller request)).1 = .handle h) :
    let launch : Operation := .connect controller request
    let e₀ := (Engine.new gateway ids config).after history
    let e := (e₀.step launch).2
    ∃ s : Handle, e.BothLive h s ∧ ∀ future, (∀ entity, .remove entity ∉ future) →
      (∀ {a}, a <+: future → (e.after a).BothLive h s) ∨
      ∃ before op rest outcome setup, future = before ++ op :: rest ∧
        (∀ {a}, a <+: before → (e.after a).BothLive h s) ∧
        (∀ later, (e.after (before ++ op :: later)).BothSettled h s outcome setup) ∧
        Agreed op h.id s.id outcome setup ∧
        (outcome = .cancelled → ∀ event ∈ e₀.loggedDuring (launch :: (before ++ [op])),
          event.announced? ≠ some request.entity) := by
  intro launch e₀ e
  have hs₀ : e₀.Steady := steady_after gateway ids config history
  have hs : e.Steady := hs₀.after [launch]
  obtain ⟨c, slot, hid, hamf, hj, hlog⟩ := hs₀.joined_connect hlaunch
  have hlive {a : List Operation} (hj : (e.after a).Joined c slot h.slot) :
      (e.after a).BothLive h ⟨c.setup, slot⟩ := by
    have hb := hj.bothLive (hs.after a).coherent
    rw [hid] at hb
    exact hb
  refine ⟨⟨c.setup, slot⟩, hlive (a := []) hj, fun future hfuture => ?_⟩
  have hm (before : List Operation) (hb : before <+: future) : (e.after before).Matched := by
    have ht := tied_new gateway ids config (history ++ launch :: before)
    have heq : (Engine.new gateway ids config).after (history ++ launch :: before) =
        e.after before := after_append ..
    refine heq ▸ ht.matched fun entity hmem => ?_
    rcases List.mem_append.1 hmem with hmem | hmem
    · exact hhistory entity hmem
    · have hmem : .remove entity ∈ before := by simpa [launch] using hmem
      exact hfuture entity (hb.subset hmem)
  rcases hj.after hs future hm hfuture with
    ⟨hall, -⟩ | ⟨before, op, rest, hsplit, hall, outcome, setup, hv', hv, ha, hquiet⟩
  · exact .inl fun hpre => hlive (hall hpre)
  · refine .inr ⟨before, op, rest, outcome, setup, hsplit, fun hpre => hlive (hall hpre),
      fun later => ?_, hid ▸ ha, fun hcancelled event hmem => ?_⟩
    · have heq : e.after (before ++ op :: later) = (e.after (before ++ [op])).after later := by
        rw [← after_append, List.append_assoc, List.singleton_append]
      have hs' := hs.after (before ++ [op])
      have hc' := (hv'.after hs' later).1
      have hc := (hv.after hs' later).1
      rw [heq]
      exact ⟨hc'.result, hc.result, fun hq => ⟨hc'.unoccupied hq, hc.unoccupied hq⟩⟩
    · rcases List.mem_append.1 hmem with hmem | hmem
      · exact ne_announced_of_mem_logged (fun _ => hlog) hmem
      · exact hamf ▸ hquiet hcancelled event hmem

/-- the cancellation of the setup settles the connection as well -/
theorem together_after_cancel :
    let launch : Operation := .connect ⟨"ngc"⟩
      ⟨⟨"amf-1"⟩, ⟨⟨"00101", 411, 22⟩, none, [⟨7, ["00101"]⟩], .v128⟩, 1⟩
    let e := ((Engine.new (⟨⟩ : NoGateway) .sequential {}).step launch).2
    let h : Handle := ⟨⟨"proc-2"⟩, 1⟩
    ∃ s : Handle, e.BothLive h s ∧ (e.after [.advance, .cancel ⟨"proc-1"⟩]).BothSettled h s
      (.failure .setupCancelled) .cancelled := by
  intro launch e h
  have hlaunch : ((Engine.new (⟨⟩ : NoGateway) .sequential {}).step launch).1 = .handle h := by
    decide +kernel
  have hresult : (e.after [.advance, .cancel ⟨"proc-1"⟩]).result? h =
      some (.connection (.failure .setupCancelled)) := by decide +kernel
  have hready : (e.after [.advance, .cancel ⟨"proc-1"⟩]).ready h = true := by
    rw [ready, hresult, Option.isSome_some]
  obtain ⟨s, hlive, hall⟩ := together_after _ _ _ [] _ _ h (by simp) hlaunch
  refine ⟨s, hlive, ?_⟩
  rcases hall [.advance, .cancel ⟨"proc-1"⟩] (by simp) with
    hlive | ⟨before, op, rest, outcome, setup, hsplit, -, hsettled, ha, -⟩
  · exact absurd (hready.symm.trans (hlive (List.prefix_refl _)).unready.1) (by simp)
  · have hb := hsettled rest
    rw [← hsplit] at hb
    obtain rfl : outcome = .failure .setupCancelled := by
      simpa using hb.connection.symm.trans hresult
    obtain rfl : setup = .cancelled := by
      cases setup with
      | success response => exact absurd ((ha.success _).2 ⟨response, rfl, rfl⟩) (by simp)
      | failure f => exact absurd ((ha.failure f).2 rfl) (by simp)
      | cancelled => rfl
    exact hb

end NgapProcedures.Engine
