import NgapProcedures.Proofs.Engine.Draining
import NgapProcedures.Proofs.Engine.Refusal
import NgapProcedures.Proofs.Generators

/-! The names that an engine gives. Whoever is known has a name that the source handed out before, so
a name is refused as already in use only where the source hands it out again. A generator never does,
whoever else draws from its counter and whatever other generators there are. -/

namespace NgapProcedures

open Generators

/-- the source hands out the name twice before it has come so far -/
def IdSource.Repeats (ids : IdSource) (drawn : Nat) (id : ProcedureId) : Prop :=
  ∃ k k', ids.drawn ≤ k ∧ k < k' ∧ k' < drawn ∧ ids.name k = id ∧ ids.name k' = id

namespace Engine

variable {γ : Type}

structure Dwindles (e e' : Engine γ) : Prop where
  ids : e'.ids = e.ids
  known : ∀ {q}, e'.tasks.contains q = true → e.tasks.contains q = true

structure Named (supply : IdSource) (e : Engine γ) : Prop where
  source : e.ids.name = supply.name
  later : supply.drawn ≤ e.ids.drawn
  known : ∀ {q}, e.tasks.contains q = true →
    ∃ k, supply.drawn ≤ k ∧ k < e.ids.drawn ∧ supply.name k = q

section

variable {e e' : Engine γ} {supply : IdSource}

theorem Dwindles.same (hi : e'.ids = e.ids) (ht : e'.tasks = e.tasks) : Dwindles e e' :=
  ⟨hi, fun hq => ht ▸ hq⟩

theorem Dwindles.trans {a b c : Engine γ} (h : Dwindles a b) (h' : Dwindles b c) : Dwindles a c :=
  ⟨h'.ids.trans h.ids, fun hq => h.known (h'.known hq)⟩

theorem named_new (gateway : γ) (ids : IdSource) (config : EngineConfig) :
    Named ids (Engine.new gateway ids config) :=
  ⟨rfl, Nat.le_refl _, fun hq => by simp [Engine.new, Table.contains] at hq⟩

theorem Named.dwindles (h : Named supply e) (hd : Dwindles e e') : Named supply e' where
  source := hd.ids ▸ h.source
  later := hd.ids ▸ h.later
  known hq := hd.ids ▸ h.known (hd.known hq)

/-- a name is drawn, and it may be given to a new instance -/
theorem Named.drawn (h : Named supply e) (hi : e'.ids = e.ids.draw.2)
    (hk : ∀ {q}, e'.tasks.contains q = true → q = e.ids.draw.1 ∨ e.tasks.contains q = true) :
    Named supply e' where
  source := hi ▸ h.source
  later := hi ▸ Nat.le_succ_of_le h.later
  known hq := by
    have hlt : e.ids.drawn < e'.ids.drawn := hi ▸ Nat.lt_succ_self _
    rcases hk hq with rfl | hq
    · exact ⟨e.ids.drawn, h.later, hlt, (congrFun h.source _).symm⟩
    · obtain ⟨k, hfirst, hk, hname⟩ := h.known hq
      exact ⟨k, hfirst, Nat.lt_trans hk hlt, hname⟩

theorem Named.unused (h : Named supply e) : Named supply { e with ids := e.ids.draw.2 } :=
  h.drawn rfl .inr

theorem Named.given (h : Named supply e) {t : Task} (hi : e'.ids = e.ids.draw.2)
    (ht : e'.tasks = e.tasks.insert e.ids.draw.1 t) : Named supply e' := by
  refine h.drawn hi fun hq => ?_
  rw [ht, Table.contains_insert] at hq
  simpa using hq

/-- a name that is in use when it is drawn has been drawn before -/
theorem Named.repeats (h : Named supply e) (hlive : e.isLive e.ids.draw.1 = true) :
    supply.Repeats e.ids.draw.2.drawn e.ids.draw.1 := by
  have hknown : e.tasks.contains e.ids.draw.1 = true := by
    cases ht : e.tasks.get? e.ids.draw.1 <;> simp_all [isLive, Table.contains]
  obtain ⟨k, hfirst, hk, hname⟩ := h.known hknown
  exact ⟨k, e.ids.drawn, hfirst, hk, Nat.lt_succ_self _, hname, (congrFun h.source _).symm⟩

end

theorem dwindles_foldl {α : Type} {f : Engine γ → α → Engine γ} (hf : ∀ e a, Dwindles e (f e a))
    (l : List α) (e : Engine γ) : Dwindles e (l.foldl f e) := by
  induction l generalizing e with
  | nil => exact .same rfl rfl
  | cons a rest ih => exact (hf e a).trans (ih (f e a))

theorem dwindles_forget (e : Engine γ) (id : ProcedureId) : Dwindles e (e.forget id) := by
  rw [forget_eq]
  refine ⟨rfl, fun hq => ?_⟩
  rw [Table.contains_erase, Bool.and_eq_true] at hq
  exact hq.2

theorem dwindles_remove (e : Engine γ) (entity : EntityId) : Dwindles e (e.remove entity).2 := by
  have hstruck : Dwindles e { e with registry := (e.registry.remove entity).2 } := .same rfl rfl
  exact hstruck.trans (dwindles_foldl dwindles_forget _ _)

theorem dwindles_settle (e : Engine γ) (id : ProcedureId) (cancelled : Bool) :
    Dwindles e (e.settle id cancelled) := by
  refine ⟨?_, fun hq => ?_⟩
  · obtain ⟨_, _, _, _, _, _, heq⟩ := e.exists_settle id cancelled
    rw [heq]
  · rcases e.tasks_settle id cancelled with heq | heq
    · rwa [heq] at hq
    · rw [heq, Table.contains_erase, Bool.and_eq_true] at hq
      exact hq.2

variable [Gateway γ]

theorem dwindles_dispatch (e : Engine γ) (id : ProcedureId) (w : Wake) :
    Dwindles e (e.dispatch id w) := by
  rcases e.dispatch_resumes id w with heq | ⟨t, t', done, h, heq⟩
  · rw [heq]
    exact .same rfl rfl
  · have hdone : Dwindles e done := by
      refine ⟨?_, fun {q} hq => ?_⟩
      · obtain ⟨_, _, _, _, _, rfl⟩ := h.performed
        rfl
      · rw [Table.contains_iff, h.get?] at hq
        rw [Table.contains_iff]
        split at hq
        · next he => exact he ▸ ⟨t, h.known⟩
        · exact hq
    rw [heq]
    split
    · exact hdone.trans (dwindles_settle ..)
    · exact hdone

theorem dwindles_run (e : Engine γ) : Dwindles e e.run := by
  refine (run_induction (P := Dwindles e) ?_ (.same rfl rfl)).1
  intro e' id w rest _ h
  have hnext : Dwindles e { e' with wakes := rest } := h.trans (.same rfl rfl)
  exact hnext.trans (dwindles_dispatch ..)

theorem dwindles_wake_run (e : Engine γ) (id : ProcedureId) (w : Wake) :
    Dwindles e (e.wake id w).run := by
  have hwoken : Dwindles e (e.wake id w) := .same rfl rfl
  exact hwoken.trans (dwindles_run _)

theorem dwindles_cancel (e : Engine γ) (id : ProcedureId) : Dwindles e (e.cancel id).2 := by
  unfold cancel
  split
  · exact dwindles_wake_run e id .cancel
  · exact .same rfl rfl

theorem dwindles_advance (e : Engine γ) : Dwindles e e.advance := by
  have hexpire (e : Engine γ) (timer : Timer) : Dwindles e (e.expire timer) := by
    unfold expire
    split <;> exact .same rfl rfl
  have hticked : Dwindles e { e with timers := e.timers.advance.2 } := .same rfl rfl
  exact (hticked.trans (dwindles_foldl hexpire _ _)).trans (dwindles_run _)

theorem dwindles_transportLost (e : Engine γ) : Dwindles e e.transportLost.2 := by
  have hentity (e : Engine γ) (entity : EntityId) : Dwindles e (e.cancelEntity entity) :=
    dwindles_foldl dwindles_cancel _ e
  have hdown : Dwindles e { e with tearingDown := true } := .same rfl rfl
  have hcancelled := hdown.trans (dwindles_foldl hentity e.registry.entities _)
  have hup : Dwindles e { e.registry.entities.foldl cancelEntity { e with tearingDown := true } with
      tearingDown := false } := hcancelled.trans (.same rfl rfl)
  unfold transportLost
  dsimp only
  refine Dwindles.trans ?_ ((dwindles_foldl dwindles_remove _ _).trans (.same rfl rfl))
  split
  · exact hup
  · exact hup.trans (.same rfl rfl)

structure Gives (supply : IdSource) (refused : ProcedureId → Prop) (e : Engine γ) : Prop where
  named : Named supply e
  repeats : ∀ {id}, refused id → supply.Repeats e.ids.drawn id

section

variable {e : Engine γ} {supply : IdSource}

theorem Named.launchRetry (h : Named supply e) (hs : e.Steady) {entity : EntityId} {kind : Kind}
    {machine : ProcedureId → Machine} (hf : ∀ id, (machine id).Fresh ∧ (machine id).id = id ∧
      (machine id).entity = entity ∧ (machine id).kind = kind) :
    Gives supply (fun id => (e.launchRetry entity kind machine).1 = .error (.duplicateId id))
      (e.launchRetry entity kind machine).2 := by
  have hexact := hs.coherent.launchRetry_fst entity kind fun id => (hf id).2.1
  rcases launchRetry_cases hs.quiet hf with ⟨error, he⟩ | ⟨registry, -, he⟩
  · rw [he] at hexact ⊢
    refine ⟨h.unused, fun hr => ?_⟩
    rw [hr] at hexact
    split_ifs at hexact with hlive hengaged
    · obtain rfl := LaunchError.duplicateId.inj (Except.error.inj hexact)
      exact h.repeats hlive
    · cases hexact
  · rw [he]
    exact ⟨h.given rfl (congrArg (e.tasks.insert · _) (hf e.ids.draw.1).2.1), nofun⟩

theorem Named.launchSetup (h : Named supply e) (hs : e.Steady)
    (request : ProcedureRequest NgSetupRequest) :
    Gives supply (fun id => (e.launchSetup request).1 = .error (.duplicateId id))
      (e.launchSetup request).2 :=
  h.launchRetry hs fun id => ⟨Machine.fresh_setup id request, rfl, rfl, rfl⟩

theorem Named.launchConfigUpdate (h : Named supply e) (hs : e.Steady)
    (request : ProcedureRequest RanConfigurationUpdate) :
    Gives supply (fun id => (e.launchConfigUpdate request).1 = .error (.duplicateId id))
      (e.launchConfigUpdate request).2 :=
  h.launchRetry hs fun id => ⟨Machine.fresh_update id request, rfl, rfl, rfl⟩

/-- The connection draws its name after its setup has been given one, so both may have been handed out
by the source at once. -/
theorem Named.launchConnection (h : Named supply e) (hs : e.Steady) (controller : EntityId)
    (request : ProcedureRequest NgSetupRequest) :
    Gives supply (fun id => (e.launchConnection controller request).1 = .error (.duplicateId id))
      (e.launchConnection controller request).2 := by
  by_cases ha : e.Engaged controller .amfConnection
  · rw [launchConnection_engaged ha]
    exact ⟨h, nofun⟩
  have hsetup := h.launchSetup hs request
  have hexact := hs.coherent.launchConnection_fst hs.quiet controller request
  rw [if_neg ha] at hexact
  cases hl : (e.launchSetup request).1 with
  | error error =>
    rw [launchConnection_of_launchSetup ha (Prod.ext hl rfl)]
    rwa [hl] at hsetup
  | ok setup =>
    rw [hl] at hexact
    rcases launchConnection_cases hs.coherent hs.quiet controller request with
      ⟨error, ids, -, hnone⟩ | ⟨registry, hm, -, -, ⟨error, he⟩ | ⟨registry', -, he⟩⟩
    · have hrefused := hnone (Bool.eq_false_iff.2 fun hi => ha (engaged_iff.2 hi))
      simp [hl] at hrefused
    · have hnamed : Named supply (e.enrollSetup request registry) := h.given rfl rfl
      have hd := dwindles_cancel
        { e.enrollSetup request registry with ids := e.ids.draw.2.draw.2 } e.ids.draw.1
      rw [he] at hexact ⊢
      refine ⟨hnamed.unused.dwindles hd, fun hr => ?_⟩
      dsimp only at hexact hr ⊢
      rw [hr] at hexact
      split_ifs at hexact with hlive
      obtain rfl := LaunchError.duplicateId.inj (Except.error.inj hexact)
      have hrepeats := hnamed.repeats ((hs.coherent.isLive_enrollSetup hm _).2 hlive)
      exact hd.ids ▸ hrepeats
    · have hnamed : Named supply (e.enrollSetup request registry) := h.given rfl rfl
      rw [he]
      exact ⟨hnamed.given rfl rfl, nofun⟩

/-- every operation gives names that it has drawn, and refuses none but those drawn twice -/
theorem Named.step (h : Named supply e) (hs : e.Steady) (op : Operation) :
    Gives supply (fun id => (e.step op).1 = .refused (.duplicateId id)) (e.step op).2 := by
  have hlaunch {launched : Except LaunchError Handle} {e' : Engine γ}
      (hl : Gives supply (fun id => launched = .error (.duplicateId id)) e') :
      Gives supply (fun id => Answer.ofLaunch launched = .refused (.duplicateId id)) e' :=
    ⟨hl.named, fun hr => hl.repeats (Answer.ofLaunch_eq_refused hr)⟩
  have hquiet {op : Operation} (hd : Dwindles e (e.step op).2)
      (ha : ∀ error, (e.step op).1 ≠ .refused error) :
      Gives supply (fun id => (e.step op).1 = .refused (.duplicateId id)) (e.step op).2 :=
    ⟨h.dwindles hd, fun hr => absurd hr (ha _)⟩
  cases op with
  | setup request => exact hlaunch (h.launchSetup hs request)
  | update request => exact hlaunch (h.launchConfigUpdate hs request)
  | connect controller request => exact hlaunch (h.launchConnection hs controller request)
  | message m =>
    refine hquiet ?_ (by rintro _ ⟨⟩)
    simp only [Engine.step, handleMessage]
    split
    · exact dwindles_wake_run ..
    · exact .same rfl rfl
  | advance => exact hquiet (dwindles_advance e) (by rintro _ ⟨⟩)
  | advanceBy ticks =>
    refine hquiet ?_ (by rintro _ ⟨⟩)
    simp only [Engine.step, advanceBy]
    induction ticks.toNat with
    | zero => exact .same rfl rfl
    | succ n ih => exact ih.trans (dwindles_advance _)
  | cancel id => exact hquiet (dwindles_cancel e id) (by rintro _ ⟨⟩)
  | remove entity => exact hquiet (dwindles_remove e entity) (by rintro _ ⟨⟩)
  | transportLost => exact hquiet (dwindles_transportLost e) (by rintro _ ⟨⟩)
  | drainEvents => exact hquiet (.same rfl rfl) (by rintro _ ⟨⟩)

theorem Named.after (h : Named supply e) (hs : e.Steady) (history : List Operation) :
    Named supply (e.after history) := by
  induction history generalizing e with
  | nil => exact h
  | cons op rest ih => exact ih (h.step hs op).named (hs.after [op])

/-- after any history a name is refused as in use only if the source has handed it out before -/
theorem repeats_of_duplicateId (gateway : γ) (ids : IdSource) (config : EngineConfig)
    (history : List Operation) (op : Operation) {id : ProcedureId}
    (hr : (((Engine.new gateway ids config).after history).step op).1 =
      .refused (.duplicateId id)) :
    ids.Repeats (((Engine.new gateway ids config).after history).step op).2.ids.drawn id :=
  (((named_new gateway ids config).after (steady_new gateway ids config) history).step
    (steady_after gateway ids config history) op).repeats hr

/-- a source that has a name of its own for each that it hands out is never refused -/
theorem not_duplicateId {gateway : γ} {ids : IdSource} {config : EngineConfig}
    {history : List Operation} {op : Operation}
    (hdistinct : ∀ k k', ids.drawn ≤ k → k < k' →
      k' < (((Engine.new gateway ids config).after history).step op).2.ids.drawn →
      ids.name k ≠ ids.name k') (id : ProcedureId) :
    (((Engine.new gateway ids config).after history).step op).1 ≠ .refused (.duplicateId id) := by
  intro hr
  obtain ⟨k, k', hfirst, hlt, hlast, hk, hk'⟩ :=
    repeats_of_duplicateId gateway ids config history op hr
  exact hdistinct k k' hfirst hlt hlast (hk.trans hk'.symm)

end

end Engine

/-- a source that hands out what the generator draws in the course of the calls -/
def IdSource.Follows (ids : IdSource) (calls : List Call) (generator : Nat) : Prop :=
  ∀ k d, ((draws {} calls).filter (·.generator = generator))[k]? = some d → ids.name k = ⟨d.name⟩

/-- Every call to a generator draws a name, and none is ever drawn twice, in whatever order the
generators are called, if they are founded with different stems and no counter is drawn from more than
`2 ^ 64` times: not by a generator, its clones, or one whose stem looks like a name of another. So an
engine whose names come from a generator refuses none of them as already in use, whatever its history,
and whatever is drawn elsewhere in the meantime: `calls` are all calls in the order in which they reach
the counters, the engine's own among them. An engine that has a generator to itself may draw as often. -/
theorem names_unique :
    (∀ (calls : List Call) (generator : Nat), generator < (after {} calls).members.length →
      ∃ family name,
        draws {} (calls ++ [.draw generator]) = draws {} calls ++ [⟨generator, family, name⟩]) ∧
    (∀ calls : List Call, (calls.filterMap Call.stem?).Nodup →
      (∀ family, (draws {} calls).countP (·.family = family) ≤ 2 ^ 64) →
      ((draws {} calls).map (·.name)).Nodup ∧
      ∀ {γ : Type} [Gateway γ] (gateway : γ) (ids : IdSource) (config : EngineConfig)
        (generator : Nat), ids.Follows calls generator → ∀ (history : List Operation) (op : Operation),
        let r := ((Engine.new gateway ids config).after history).step op
        r.2.ids.drawn ≤ (draws {} calls).countP (·.generator = generator) →
        ∀ id, r.1 ≠ .refused (.duplicateId id)) ∧
    ∀ {γ : Type} [Gateway γ] (gateway : γ) (stem : String) (config : EngineConfig)
      (history : List Operation) (op : Operation),
      let r := ((Engine.new gateway (.sequential stem) config).after history).step op
      r.2.ids.drawn ≤ 2 ^ 64 → ∀ id, r.1 ≠ .refused (.duplicateId id) := by
  refine ⟨fun calls generator hmade => exists_draws_concat hmade, fun calls hstems hcount => ?_, ?_⟩
  · have hnodup := nodup_draws hstems hcount
    refine ⟨hnodup, ?_⟩
    intro γ _ gateway ids config generator hfollows history op r hdrawn
    have hown : ((draws {} calls).filter (·.generator = generator)).Pairwise (·.name ≠ ·.name) :=
      (List.pairwise_map.1 hnodup).sublist List.filter_sublist
    rw [List.countP_eq_length_filter] at hdrawn
    refine Engine.not_duplicateId fun k k' _ hlt hlast heq => ?_
    have hk' := Nat.lt_of_lt_of_le hlast hdrawn
    have hk := Nat.lt_trans hlt hk'
    rw [hfollows k _ (List.getElem?_eq_getElem hk), hfollows k' _ (List.getElem?_eq_getElem hk')]
      at heq
    exact List.pairwise_iff_getElem.1 hown k k' hk hk' hlt (ProcedureId.mk.inj heq)
  · intro γ _ gateway stem config history op r hdrawn
    refine Engine.not_duplicateId fun k k' _ hlt hlast heq => ?_
    have hk' := Nat.lt_of_lt_of_le hlast hdrawn
    have hsame := ((IdSource.sequential_inj (Nat.lt_trans hlt hk') hk').1 heq).2
    exact absurd hsame (Nat.ne_of_lt hlt)

/-- An engine that launches a connection while a clone of its generator is in use, and a generator whose
stem is the first name of the other. -/
theorem names_unique_interleaved :
    let calls : List Call := [.add "proc", .clone 0, .add "proc-1", .draw 0, .draw 2, .draw 1,
      .draw 0, .draw 2]
    let request : ProcedureRequest NgSetupRequest :=
      ⟨⟨"amf-1"⟩, ⟨⟨"00101", 411, 22⟩, none, [⟨7, ["00101"]⟩], .v128⟩, 1⟩
    let connect : Operation := .connect ⟨"ngc"⟩ request
    let shared := (Engine.new (⟨⟩ : NoGateway) (.listed "proc-1" ["proc-3"]) {}).step connect
    let alone := ((Engine.new (⟨⟩ : NoGateway) .sequential {}).after [connect]).step
      (.setup ⟨⟨"amf-2"⟩, request.message, 1⟩)
    (draws {} calls).map (·.name) = ["proc-1", "proc-1-1", "proc-2", "proc-3", "proc-1-2"] ∧
      ((draws {} calls).map (·.name)).Nodup ∧
      shared.1 = .handle ⟨⟨"proc-3"⟩, 1⟩ ∧ (∀ id, shared.1 ≠ .refused (.duplicateId id)) ∧
      alone.1 = .handle ⟨⟨"proc-3"⟩, 2⟩ ∧ (∀ id, alone.1 ≠ .refused (.duplicateId id)) ∧
      ∃ family name, draws {} (calls ++ [.draw 1]) = draws {} calls ++ [⟨1, family, name⟩] := by
  intro calls request connect shared alone
  obtain ⟨hdraws, hinterleaved, halone⟩ := names_unique
  have hcount (family : Nat) : (draws {} calls).countP (·.family = family) ≤ 2 ^ 64 :=
    Nat.le_trans List.countP_le_length (by decide +kernel)
  obtain ⟨hnodup, hshared⟩ := hinterleaved calls (by decide) hcount
  have hfollows : (IdSource.listed "proc-1" ["proc-3"]).Follows calls 0 := by
    have hown : (draws {} calls).filter (·.generator = 0) = [⟨0, 0, "proc-1"⟩, ⟨0, 0, "proc-3"⟩] := by
      decide +kernel
    intro k d hd
    rw [hown] at hd
    match k with
    | 0 | 1 =>
      obtain rfl := Option.some.inj hd
      rfl
    | k + 2 => cases hd
  exact ⟨by decide +kernel, hnodup,
    by decide +kernel, hshared (⟨⟩ : NoGateway) _ {} 0 hfollows [] connect (by decide +kernel),
    by decide +kernel, halone (⟨⟩ : NoGateway) "proc" {} [connect] _ (by decide +kernel),
    hdraws calls 1 (by decide +kernel)⟩

end NgapProcedures
