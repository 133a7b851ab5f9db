import NgapProcedures.Engine.Operation
import NgapProcedures.Proofs.Engine.Slots
import NgapProcedures.Proofs.Retry.Ordinals

/-! The states that an engine passes through, in the midst of an operation as well as between two.
Whatever wakes are dispatched and whatever instances are started and dropped on the way, every task is
sound in them. So the filter of the engine lets through just the wakes that its machines act on. -/

namespace NgapProcedures

namespace Engine

variable {γ : Type} [Gateway γ] {e e' : Engine γ} {slot : Nat}

/-- how an engine gets on from a state, in the midst of an operation or not -/
inductive Leads : Engine γ → Engine γ → Prop where
  | refl (e : Engine γ) : Leads e e
  /-- what is not in the tasks, the results and the count of instances may change at any time -/
  | aside {e e' e'' : Engine γ} (h : Leads e e') (ht : e''.tasks = e'.tasks)
    (hr : e''.results = e'.results) (hs : e''.started = e'.started) : Leads e e''
  | dispatched {e e' : Engine γ} (h : Leads e e') (id : ProcedureId) (w : Wake) :
    Leads e (e'.dispatch id w)
  | forgotten {e e' : Engine γ} (h : Leads e e') (id : ProcedureId) : Leads e (e'.forget id)
  | setup {e e' : Engine γ} (h : Leads e e') (id : ProcedureId)
    (request : ProcedureRequest NgSetupRequest) : Leads e (e'.start (.setup (.new id request))).2
  | update {e e' : Engine γ} (h : Leads e e') (id : ProcedureId)
    (request : ProcedureRequest RanConfigurationUpdate) :
    Leads e (e'.start (.update (.new id request))).2
  /-- a connection is given the handle of a setup that has been started -/
  | connection {e e₁ e₂ : Engine γ} (h : Leads e e₁) (setup : ProcedureId)
    (request : ProcedureRequest NgSetupRequest)
    (hsetup : Leads (e₁.start (.setup (.new setup request))).2 e₂) (id : ProcedureId)
    (controller amf : EntityId) :
    Leads e (e₂.start (.connection ⟨id, controller, amf, setup, .created, none⟩ e₁.started)).2

theorem Leads.trans {a b c : Engine γ} (h : Leads a b) (h' : Leads b c) : Leads a c := by
  induction h' with
  | refl => exact h
  | aside _ ht hr hs ih => exact (ih h).aside ht hr hs
  | dispatched _ id w ih => exact (ih h).dispatched id w
  | forgotten _ id ih => exact (ih h).forgotten id
  | setup _ id request ih => exact (ih h).setup id request
  | update _ id request ih => exact (ih h).update id request
  | connection _ setup request hsetup id controller amf ih _ =>
    exact (ih h).connection setup request hsetup id controller amf

theorem Leads.setupSlot (h : Leads e e') (hslot : e.SetupSlot slot) : e'.SetupSlot slot := by
  induction h with
  | refl => exact hslot
  | aside _ ht hr hs ih => exact (ih hslot).aside ht hr hs
  | dispatched _ id w ih => exact (ih hslot).dispatch id w
  | forgotten _ id ih => exact (ih hslot).forget id
  | setup _ id request ih => exact (ih hslot).start _
  | update _ id request ih => exact (ih hslot).start _
  | connection _ setup request _ id controller amf ih ihsetup =>
    exact (ihsetup ((ih hslot).start _)).start _

/-- soundness is kept on every way, by induction on it -/
theorem Leads.sound (h : Leads e e') (he : e.Sound) : e'.Sound := by
  induction h with
  | refl => exact he
  | aside _ ht hr hs ih => exact (ih he).aside ht hr hs
  | dispatched _ id w ih => exact (ih he).dispatch id w
  | forgotten _ id ih => exact (ih he).forget id
  | setup _ id request ih =>
    exact (ih he).start (.setup id request []) rfl (fun _ _ hm => by cases hm)
  | update _ id request ih =>
    exact (ih he).start (.update id request []) rfl (fun _ _ hm => by cases hm)
  | connection h setup request hsetup id controller amf ih ihsetup =>
    have h₁ := ih he
    have hstart := h₁.start (.setup setup request []) rfl (fun _ _ hm => by cases hm)
    refine (ihsetup hstart).start (.connection id setup controller amf _ []) rfl ?_
    rintro c slot hm
    obtain ⟨-, rfl⟩ := Machine.connection.inj hm
    exact hsetup.setupSlot (h₁.setupSlot_start rfl)

theorem leads_foldl {α : Type} {f : Engine γ → α → Engine γ} (hf : ∀ e a, Leads e (f e a))
    (l : List α) (e : Engine γ) : Leads e (l.foldl f e) := by
  induction l generalizing e with
  | nil => exact .refl e
  | cons a rest ih => exact (hf e a).trans (ih (f e a))

theorem leads_run (e : Engine γ) : Leads e e.run := by
  refine (run_induction (P := Leads e) ?_ (.refl e)).1
  intro e' id w rest _ h
  have hnext : Leads e { e' with wakes := rest } := h.aside rfl rfl rfl
  exact hnext.dispatched id w

theorem leads_wake_run (e : Engine γ) (id : ProcedureId) (w : Wake) : Leads e (e.wake id w).run := by
  have hwoken : Leads e (e.wake id w) := (Leads.refl e).aside rfl rfl rfl
  exact hwoken.trans (leads_run _)

theorem leads_cancel (e : Engine γ) (id : ProcedureId) : Leads e (e.cancel id).2 := by
  unfold cancel
  split
  · exact leads_wake_run e id .cancel
  · exact .refl e

/-- a launch is refused, or starts its machine and runs the queue -/
theorem launchRetry_leads (e : Engine γ) (entity : EntityId) (kind : Kind)
    (machine : ProcedureId → Machine) :
    (∃ error e', e.launchRetry entity kind machine = (.error error, e') ∧ Leads e e') ∨
      ∃ id e₁, Leads e e₁ ∧ e.launchRetry entity kind machine =
        (.ok (e₁.start (machine id)).1, (e₁.start (machine id)).2.run) := by
  have hnamed : Leads e { e with ids := e.ids.draw.2 } := (Leads.refl e).aside rfl rfl rfl
  unfold launchRetry allocateId
  by_cases hknown : e.tasks.contains e.ids.draw.1 = true
  · exact .inl ⟨_, _, by simp only [hknown, ↓reduceIte]; rfl, hnamed⟩
  · simp only [hknown, Bool.false_eq_true, ↓reduceIte]
    split
    · exact .inl ⟨_, _, rfl, hnamed⟩
    · split
      · exact .inl ⟨_, _, rfl, hnamed⟩
      · next registry _ =>
        exact .inr ⟨_, { e with ids := e.ids.draw.2, registry },
          (Leads.refl e).aside rfl rfl rfl, rfl⟩

theorem leads_launchSetup (e : Engine γ) (request : ProcedureRequest NgSetupRequest) :
    Leads e (e.launchSetup request).2 := by
  rcases e.launchRetry_leads request.entity ngSetup.kind (fun id => .setup (.new id request)) with
    ⟨error, e', heq, h⟩ | ⟨id, e₁, h, heq⟩
  · rw [launchSetup, heq]
    exact h
  · rw [launchSetup, heq]
    exact (h.setup id request).trans (leads_run _)

theorem leads_launchConfigUpdate (e : Engine γ)
    (request : ProcedureRequest RanConfigurationUpdate) :
    Leads e (e.launchConfigUpdate request).2 := by
  rcases e.launchRetry_leads request.entity ranConfigurationUpdate.kind
    (fun id => .update (.new id request)) with ⟨error, e', heq, h⟩ | ⟨id, e₁, h, heq⟩
  · rw [launchConfigUpdate, heq]
    exact h
  · rw [launchConfigUpdate, heq]
    exact (h.update id request).trans (leads_run _)

theorem leads_launchConnection (e : Engine γ) (controller : EntityId)
    (request : ProcedureRequest NgSetupRequest) :
    Leads e (e.launchConnection controller request).2 := by
  unfold launchConnection
  split
  · exact .refl e
  · rcases e.launchRetry_leads request.entity ngSetup.kind (fun id => .setup (.new id request)) with
      ⟨error, e', heq, h⟩ | ⟨id, e₁, h, heq⟩
    · rw [launchSetup, heq]
      exact h
    · rw [launchSetup, heq]
      have hran := leads_run (e₁.start (.setup (.new id request))).2
      generalize (e₁.start (.setup (.new id request))).2.run = e₂ at hran
      have hnamed : Leads e { e₂ with ids := e₂.ids.draw.2 } :=
        ((h.setup id request).trans hran).aside rfl rfl rfl
      unfold allocateId
      by_cases hknown : e₂.tasks.contains e₂.ids.draw.1 = true
      · simp only [hknown, ↓reduceIte]
        exact hnamed.trans (leads_cancel _ _)
      · simp only [hknown, Bool.false_eq_true, ↓reduceIte]
        split
        · exact hnamed.trans (leads_cancel _ _)
        · next registry _ =>
          have hlinked : Leads (e₁.start (.setup (.new id request))).2
              { e₂ with
                ids := e₂.ids.draw.2
                registry
                parents := e₂.parents.insert id e₂.ids.draw.1 } := hran.aside rfl rfl rfl
          have hstarted := h.connection id request hlinked e₂.ids.draw.1 controller request.entity
          refine Leads.trans ?_ (leads_run _)
          split
          · exact hstarted.aside rfl rfl rfl
          · exact hstarted

theorem leads_expire (e : Engine γ) (timer : Timer) : Leads e (e.expire timer) := by
  unfold expire
  split
  · exact (Leads.refl e).aside rfl rfl rfl
  · exact .refl e

theorem leads_advance (e : Engine γ) : Leads e e.advance := by
  have hticked : Leads e { e with timers := e.timers.advance.2 } := (Leads.refl e).aside rfl rfl rfl
  exact (hticked.trans (leads_foldl leads_expire _ _)).trans (leads_run _)

theorem leads_remove (e : Engine γ) (entity : EntityId) : Leads e (e.remove entity).2 := by
  have hstruck : Leads e { e with registry := (e.registry.remove entity).2 } :=
    (Leads.refl e).aside rfl rfl rfl
  exact hstruck.trans (leads_foldl (fun e id => (Leads.refl e).forgotten id) _ _)

theorem leads_transportLost (e : Engine γ) : Leads e e.transportLost.2 := by
  have hentity (e : Engine γ) (entity : EntityId) : Leads e (e.cancelEntity entity) :=
    leads_foldl leads_cancel _ e
  have hdown : Leads e { e with tearingDown := true } := (Leads.refl e).aside rfl rfl rfl
  have hcancelled := hdown.trans (leads_foldl hentity e.registry.entities _)
  have hup : Leads e { e.registry.entities.foldl cancelEntity { e with tearingDown := true } with
      tearingDown := false } := hcancelled.aside rfl rfl rfl
  unfold transportLost
  dsimp only
  refine Leads.aside (Leads.trans ?_ (leads_foldl leads_remove _ _)) rfl rfl rfl
  split
  · exact hup
  · exact hup.aside rfl rfl rfl

theorem leads_step (e : Engine γ) (op : Operation) : Leads e (e.step op).2 := by
  cases op with
  | setup request => exact leads_launchSetup e request
  | update request => exact leads_launchConfigUpdate e request
  | connect controller request => exact leads_launchConnection e controller request
  | message m =>
    simp only [step, handleMessage]
    split
    · exact leads_wake_run e _ _
    · exact .refl e
  | advance => exact leads_advance e
  | advanceBy ticks =>
    simp only [step, advanceBy]
    induction ticks.toNat with
    | zero => exact .refl e
    | succ n ih => exact ih.trans (leads_advance _)
  | cancel id => exact leads_cancel e id
  | remove entity => exact leads_remove e entity
  | transportLost => exact leads_transportLost e
  | drainEvents => exact (Leads.refl e).aside rfl rfl rfl

theorem leads_after (e : Engine γ) (history : List Operation) : Leads e (e.after history) :=
  leads_foldl leads_step history e

end Engine

/-- A wake that a task expects moves its machine to another state, and one that it does not expect
would leave the machine and the results as they are and ask for nothing. This holds of a retry task
after any wakes, and of every task in every state that an engine passes through, where a connection
hears of the end of its setup once the result is there. After an operation as well as in the midst of
one the engine is in such a state. -/
theorem wakes_heeded :
    (∀ (id : ProcedureId) (request : ProcedureRequest NgSetupRequest) (slot : Nat)
      (results : Results) (wakes : List Wake) (w : Wake), results.get? slot = none →
      let r := Task.resumeAll ⟨.setup (.new id request), slot⟩ results wakes
      r.1.Heeds r.2 w) ∧
    (∀ (id : ProcedureId) (request : ProcedureRequest RanConfigurationUpdate) (slot : Nat)
      (results : Results) (wakes : List Wake) (w : Wake), results.get? slot = none →
      let r := Task.resumeAll ⟨.update (.new id request), slot⟩ results wakes
      r.1.Heeds r.2 w) ∧
    ∀ {γ : Type} [Gateway γ] (gateway : γ) (ids : IdSource) (config : EngineConfig),
      let e₀ := Engine.new gateway ids config
      (∀ history, Engine.Leads e₀ (e₀.after history)) ∧
      ∀ e, Engine.Leads e₀ e → ∀ (id : ProcedureId) (t : Task) (w : Wake),
        e.tasks.get? id = some t →
        (∀ c slot, t.machine = .connection c slot → w = .procedureDone c.setup →
          e.ready ⟨c.setup, slot⟩ = true) → t.Heeds e.results w := by
  refine ⟨?_, ?_, ?_⟩
  · intro id request slot results wakes w hslot r
    have hnew : Task.Sound ⟨.setup (.new id request), slot⟩ results := ⟨.setup id request [], hslot⟩
    exact hnew.heeds_resumeAll (by rintro ⟨⟩) wakes w
  · intro id request slot results wakes w hslot r
    have hnew : Task.Sound ⟨.update (.new id request), slot⟩ results :=
      ⟨.update id request [], hslot⟩
    exact hnew.heeds_resumeAll (by rintro ⟨⟩) wakes w
  · intro γ _ gateway ids config e₀
    refine ⟨e₀.leads_after, ?_⟩
    intro e hleads id t w ht hready
    exact (hleads.sound (Engine.sound_new gateway ids config)).heeds ht hready

/-- a setup that waits for its reply, an update that has been given up, and a connection that hears of
the end of its setup before the operation is over -/
theorem wakes_heeded_mid_operation :
    let request : ProcedureRequest NgSetupRequest :=
      ⟨⟨"amf-1"⟩, ⟨⟨"00101", 411, 22⟩, none, [⟨7, ["00101"]⟩], .v128⟩, 1⟩
    let reply : Pdu := .ngSetupResponse ⟨"amf", 255, []⟩
    let e := ((Engine.new (⟨⟩ : NoGateway) .sequential {}).after
      [.connect ⟨"ngc"⟩ request]).dispatch ⟨"proc-1"⟩ (.message reply)
    let connection : Task :=
      ⟨.connection ⟨⟨"proc-2"⟩, ⟨"ngc"⟩, ⟨"amf-1"⟩, ⟨"proc-1"⟩, .awaitingSetup, none⟩ 0, 1⟩
    let setup := Task.resumeAll ⟨.setup (.new ⟨"proc-1"⟩ request), 0⟩ ∅ [.launch]
    let update := Task.resumeAll ⟨.update (.new ⟨"proc-1"⟩ ⟨⟨"amf-1"⟩, ⟨none, []⟩, 1⟩), 0⟩ ∅
      [.launch, .cancel]
    (setup.1.resume setup.2 (.message reply)).1.machine.state ≠ setup.1.machine.state ∧
      update.1.resume update.2 .timerFired = (update.1, update.2, []) ∧
      e.tasks.get? ⟨"proc-2"⟩ = some connection ∧
      (connection.resume e.results (.procedureDone ⟨"proc-1"⟩)).1.machine.state ≠
        .inr .awaitingSetup := by
  intro request reply e connection setup update
  obtain ⟨hsetup, hupdate, hengine⟩ := wakes_heeded
  obtain ⟨hleads, hheeds⟩ := hengine (⟨⟩ : NoGateway) .sequential {}
  have hconnection : e.tasks.get? ⟨"proc-2"⟩ = some connection := by decide +kernel
  have hready : e.ready ⟨⟨"proc-1"⟩, 0⟩ = true := by decide +kernel
  refine ⟨?_, ?_, hconnection, ?_⟩
  · exact (hsetup _ request 0 _ [.launch] (.message reply) rfl).heard (by decide +kernel)
  · exact (hupdate _ _ 0 _ [.launch, .cancel] .timerFired rfl).deaf (by decide +kernel)
  · refine (hheeds e ((hleads _).dispatched _ _) _ connection _ hconnection ?_).heard rfl
    intro c slot hm _
    obtain ⟨rfl, rfl⟩ := Machine.connection.inj hm
    exact hready

def Machine.budget? : Machine → Option UInt32
  | setup p => some p.maxRetries
  | update p => some p.maxRetries
  | connection .. => none

theorem Machine.Grown.panic?_eq_none {m : Machine} (h : m.Grown)
    (hb : ∀ n, m.budget? = some n → n.toNat + 1 < UInt32.size) : m.panic? = none := by
  cases h with
  | setup id request events =>
    exact (RetryProcedure.run_after ngSetup id request events).1.panic?_eq_none (hb _ rfl)
  | update id request events =>
    exact (RetryProcedure.run_after ranConfigurationUpdate id request events).1.panic?_eq_none
      (hb _ rfl)
  | connection id setup controller amf slot events => rfl

/-- Overflow checks change no operation, unless a procedure has the largest budget that there is. -/
theorem Engine.step?_after {γ : Type} [Gateway γ] (gateway : γ) (ids : IdSource)
    (config : EngineConfig) (history : List Operation) (op : Operation) :
    let e := (Engine.new gateway ids config).after history
    (∀ id t n, (e.step op).2.tasks.get? id = some t → t.machine.budget? = some n →
      n.toNat + 1 < UInt32.size) → e.step? op = .ok (e.step op) := by
  intro e hb
  have hleads : Leads (Engine.new gateway ids config) (e.step op).2 :=
    (leads_after _ history).trans (leads_step e op)
  have hsound := hleads.sound (sound_new gateway ids config)
  have hnone : (e.step op).2.panic? = none := by
    rw [panic?, List.findSome?_eq_none_iff]
    intro t ht
    obtain ⟨⟨id, t⟩, hm, rfl⟩ := List.mem_map.1 ht
    have hget := (Table.get?_eq_some_iff _).2 hm
    exact (hsound.task hget).grown.panic?_eq_none fun n => hb id t n hget
  rw [step?, hnone]
  rfl

end NgapProcedures
