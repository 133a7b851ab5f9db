import NgapProcedures.Proofs.Engine.Timing

/-! What holds between any two operations. The task table, the registry, the armed timers and the
queue of timers tell the same story, whatever the operations were and however they ended. -/

namespace NgapProcedures

def Machine.Parked : Machine → Prop
  | setup p => p.state = .awaitingResponse ∨ p.state = .backoff
  | update p => p.state = .awaitingResponse ∨ p.state = .backoff
  | connection c _ => c.state = .awaitingSetup

/-- a retry procedure between a rejection and its next attempt -/
def Machine.InBackoff : Machine → Prop
  | setup p => p.state = .backoff
  | update p => p.state = .backoff
  | connection .. => False

namespace Machine

theorem Suspended.parked {m : Machine} (h : m.Suspended) : m.Parked := by
  cases m with
  | setup p => exact RetryProcedure.Suspended.parked h |>.imp_right And.left
  | update p => exact RetryProcedure.Suspended.parked h |>.imp_right And.left
  | connection c slot => exact h.1

theorem Suspended.inBackoff_iff {m : Machine} (h : m.Suspended) :
    m.InBackoff ↔ m.waitingFor = .timer := by
  cases m with
  | setup p => exact RetryProcedure.waitingFor_eq_timer_iff.symm
  | update p => exact RetryProcedure.waitingFor_eq_timer_iff.symm
  | connection c slot => simp [InBackoff, waitingFor, AmfConnection.waitingFor, h.1]

end Machine

namespace Engine

variable {γ : Type} {e : Engine γ}

/-- the tasks as they are registered -/
def enlisted (e : Engine γ) : List (EntityId × ProcedureId) :=
  e.tasks.entries.map fun (id, t) => (t.machine.entity, id)

theorem Coherent.enlisted_perm (h : e.Coherent []) : e.enlisted.Perm e.registry.pairs := by
  have hnodup : e.enlisted.Nodup := by
    refine List.pairwise_map.2 (e.tasks.ascending.imp fun {a b} hlt he => ?_)
    rw [(Prod.mk.inj he).2] at hlt
    simp at hlt
  refine (List.perm_ext_iff_of_nodup hnodup e.registry.pairs_nodup).2 fun ⟨entity, id⟩ => ?_
  rw [Registry.mem_pairs_iff, h.registered]
  simp only [enlisted, List.mem_map, Prod.mk.injEq, Prod.exists]
  constructor
  · rintro ⟨q, t, hm, he, rfl⟩
    exact ⟨t, (Table.get?_eq_some_iff _).2 hm, he⟩
  · rintro ⟨t, ht, he⟩
    exact ⟨id, t, (Table.get?_eq_some_iff _).1 ht, he, rfl⟩

theorem Coherent.activeProcedures_eq (h : e.Coherent []) :
    e.activeProcedures = e.registry.transactionCount := by
  have hall : e.activeProcedures = e.tasks.entries.length := by
    refine List.countP_eq_length.2 fun ⟨id, t⟩ hm => ?_
    have hlive := h.isTerminal ((Table.get?_eq_some_iff _).2 hm)
    simp [hlive]
  rw [hall, Registry.transactionCount_eq_length_pairs, ← h.enlisted_perm.length_eq, enlisted,
    List.length_map]

/-- The tasks are suspended, the registry lists exactly them, and those in a backoff are the ones
with an armed timer; no other timer is live. -/
structure Accordant (e : Engine γ) : Prop where
  quiet : e.wakes = []
  standing : e.tearingDown = false
  parked : ∀ {id t}, e.tasks.get? id = some t →
    t.machine.id = id ∧ t.machine.isTerminal = false ∧ t.machine.Parked
  registered : ∀ {entity id}, id ∈ e.registry.ids entity ↔
    ∃ t, e.tasks.get? id = some t ∧ t.machine.entity = entity
  inhabited : ∀ {entity known}, e.registry.find? entity = some known → known.isEmpty = false
  counted : e.activeProcedures = e.registry.transactionCount
  armed_iff : ∀ {id}, (∃ k, e.armed.get? id = some k) ↔
    ∃ t, e.tasks.get? id = some t ∧ t.machine.InBackoff
  live : ∀ {k}, e.timers.isPending k = true → ∃ id, e.armed.get? id = some k

/-- The live timers are the armed ones, each of one procedure alone, and it waits in the queue under
that procedure's name for a tick that has not come. Time may stand at the last tick there is. -/
structure Clocked (e : Engine γ) : Prop where
  live_iff : ∀ {k}, e.timers.isPending k = true ↔ ∃ id, e.armed.get? id = some k
  own : ∀ {id id' k}, e.armed.get? id = some k → e.armed.get? id' = some k → id = id'
  counted : e.pendingTimers = e.armed.size
  queued : ∀ {id k}, e.armed.get? id = some k → ∃ d, (⟨k, id, d⟩ : Timer) ∈ e.timers.queue.toList ∧
    (∀ t ∈ e.timers.queue.toList, t.id = k → t = ⟨k, id, d⟩) ∧ (e.now < d ∨ e.now = lastTick)

theorem Coherent.accordant (h : e.Coherent []) (hw : e.wakes = []) : e.Accordant where
  quiet := hw
  standing := h.standing
  parked ht := ⟨h.named ht, h.isTerminal ht, (h.suspended ht).parked⟩
  registered := h.registered
  inhabited := h.inhabited _ _
  counted := h.activeProcedures_eq
  armed_iff {id} := by
    constructor
    · rintro ⟨k, hk⟩
      obtain ⟨⟨t, ht⟩, -⟩ := h.armed hk
      exact ⟨t, ht, (h.suspended ht).inBackoff_iff.2 ((h.backoff ht).2 (.inl ⟨k, hk⟩))⟩
    · rintro ⟨t, ht, hb⟩
      simpa using (h.backoff ht).1 ((h.suspended ht).inBackoff_iff.1 hb)
  live := h.live

theorem Timed.clocked (h : e.Timed) (hc : e.Coherent []) : e.Clocked := by
  have hlive {k : TimerId} : e.timers.isPending k = true ↔ ∃ id, e.armed.get? id = some k := by
    refine ⟨hc.live, fun ⟨id, hid⟩ => ?_⟩
    obtain ⟨d, hd⟩ := h.kept hid
    exact hd.2
  have hown {id id' : ProcedureId} {k : TimerId} (hid : e.armed.get? id = some k)
      (hid' : e.armed.get? id' = some k) : id = id' := by
    obtain ⟨d, hd⟩ := h.kept hid
    obtain ⟨d', hd'⟩ := h.kept hid'
    exact (Timer.mk.inj (h.sound.eq_of_id hd.1 hd'.1 rfl)).2.1
  refine ⟨hlive, hown, ?_, fun {id k} hk => ?_⟩
  · have hvalues : e.armed.values.Nodup := by
      refine List.Nodup.map_on (fun a ha b hb he => Prod.ext ?_ he) ?_
      · have ha := (Table.get?_eq_some_iff (k := a.1) (v := a.2) _).2 ha
        have hb := (Table.get?_eq_some_iff (k := b.1) (v := b.2) _).2 hb
        exact hown ha (he ▸ hb)
      · exact .of_map _ e.armed.keys_nodup
    have hperm : e.timers.live.keys.Perm e.armed.values := by
      refine (List.perm_ext_iff_of_nodup e.timers.live.keys_nodup hvalues).2 fun k => ?_
      rw [Table.mem_keys_iff, ← Table.contains_iff]
      refine hlive.trans ?_
      simp [Table.values, Table.get?_eq_some_iff]
    rw [pendingTimers, TimerService.pending, Table.size_eq_length_keys, hperm.length_eq]
    simp [Table.values, Table.size]
  · obtain ⟨d, hd⟩ := h.kept hk
    exact ⟨d, hd.1, fun t ht he => h.sound.eq_of_id ht hd.1 he, h.sound.ahead _ hd⟩

variable [Gateway γ]

/-- After any operations the parts of the engine are in accord. The timers are in accord with them
for as long as their 64-bit numbers have not run out, and a message takes one number at most. -/
theorem accordant_after (gateway : γ) (ids : IdSource) (config : EngineConfig)
    (history : List Operation) :
    let e := (Engine.new gateway ids config).after history
    e.Accordant ∧ (messages history + 1 < 2 ^ 64 → e.Clocked) := by
  have h := steady_after gateway ids config history
  exact ⟨h.coherent.accordant h.quiet, fun hn =>
    (timed_after gateway ids config history hn).1.clocked h.coherent⟩

/-- a setup that was told to wait, and one tick of the wait -/
theorem accordant_after_backoff :
    let history : List Operation := [
      .setup ⟨⟨"amf-1"⟩, ⟨⟨"00101", 411, 22⟩, none, [⟨7, ["00101"]⟩], .v128⟩, 1⟩,
      .message ⟨⟨"amf-1"⟩, .ngSetupFailure ⟨⟨.misc, "unspecified"⟩, some .s1⟩⟩, .advance]
    messages history + 1 < 2 ^ 64 ∧
      ((Engine.new (⟨⟩ : NoGateway) (.sequential) {}).after history).Clocked :=
  ⟨by decide, (accordant_after _ _ _ _).2 (by decide)⟩

end Engine

end NgapProcedures
