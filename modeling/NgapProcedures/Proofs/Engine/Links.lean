import Mathlib.Data.List.Induction
import NgapProcedures.Proofs.Engine.Carries

/-! The link between a setup and the connection that waits for it, after any history. The parent
table and the connection agree on it, unless an entity was removed that one of the two was registered
under and the other was not. -/

namespace NgapProcedures.Engine

variable {γ : Type}

structure Linked (e : Engine γ) (s c : ProcedureId) : Prop where
  waits : e.waitingFor? c = some (.procedure s)
  live : e.isLive c = true
  setup : e.isLive s = true ∧ ∃ t, e.tasks.get? s = some t ∧ t.machine.kind = .ngSetup
  parent : e.parents.get? s = some c

theorem Coherent.isLive_of_get? {e : Engine γ} (h : e.Coherent []) {id : ProcedureId} {t : Task}
    (ht : e.tasks.get? id = some t) : e.isLive id = true := by
  simp [isLive, ht, h.isTerminal ht]

theorem Coherent.isLive_iff {e : Engine γ} (h : e.Coherent []) {id : ProcedureId} :
    e.isLive id = true ↔ ∃ t, e.tasks.get? id = some t := by
  refine ⟨fun hlive => ?_, fun ⟨t, ht⟩ => h.isLive_of_get? ht⟩
  cases ht : e.tasks.get? id with
  | none => simp [isLive, ht] at hlive
  | some t => exact ⟨t, rfl⟩

theorem Joined.linked {e : Engine γ} {c : AmfConnection} {slot slot' : Nat}
    (h : e.Joined c slot slot') (hc : e.Coherent []) : e.Linked c.setup c.id := by
  obtain ⟨t, ht, -, hk, -⟩ := h.setup
  refine ⟨?_, hc.isLive_of_get? h.connection, ⟨hc.isLive_of_get? ht, t, ht, hk⟩, h.parent⟩
  simp [waitingFor?, h.connection, Machine.waitingFor, (hc.waitingFor_connection h.connection).2.2]

/-- only a connection waits for a procedure -/
theorem exists_connection_of_waits {e : Engine γ} {q s : ProcedureId}
    (h : e.waitingFor? q = some (.procedure s)) :
    ∃ c slot slot', e.tasks.get? q = some ⟨.connection c slot, slot'⟩ ∧ c.setup = s := by
  obtain ⟨⟨m, slot'⟩, ht, hw⟩ := Option.map_eq_some_iff.1 h
  cases m with
  | setup p => exact absurd hw (p.waitingFor_ne_procedure s)
  | update p => exact absurd hw (p.waitingFor_ne_procedure s)
  | connection c slot => exact ⟨c, slot, slot', ht, (AmfConnection.waitingFor_eq_procedure_iff.1 hw).2⟩

/-- The removal of an entity that takes one of two that are linked leaves the other as it was. -/
theorem Linked.remove {e : Engine γ} {s c : ProcedureId} (h : e.Linked s c) (entity : EntityId) :
    (s ∈ e.registry.ids entity → c ∉ e.registry.ids entity →
      (e.remove entity).2.waitingFor? c = some (.procedure s) ∧
      (e.remove entity).2.isLive s = false) ∧
    (c ∈ e.registry.ids entity → s ∉ e.registry.ids entity →
      (e.remove entity).2.parents.get? s = some c ∧ (e.remove entity).2.isLive s = true ∧
      (e.remove entity).2.isLive c = false) := by
  obtain ⟨tasks, armed, parents, live, he, ht, -, hp, -⟩ := foldl_forget
    (e.registry.ids entity) { e with registry := (e.registry.remove entity).2 }
  have he : (e.remove entity).2 = _ := he
  rw [he]
  refine ⟨fun hs hc => ⟨?_, ?_⟩, fun hc hs => ⟨(hp s).trans ((if_neg hs).trans h.parent), ?_, ?_⟩⟩
  · rw [← h.waits, waitingFor?, ht c, if_neg hc]
    rfl
  · rw [isLive, ht s, if_pos hs]
  · rw [← h.setup.1, isLive, ht s, if_neg hs]
    rfl
  · rw [isLive, ht c, if_pos hc]

variable [Gateway γ]

/-- Links after a history: a connection is joined to its setup unless a removal took the setup and
left the connection, and an entry of the parent table is of two that are joined unless a removal
took the connection and left the setup. -/
structure Tied (e : Engine γ) (history : List Operation) : Prop where
  connection : ∀ {q c slot slot'}, (e.after history).tasks.get? q = some ⟨.connection c slot, slot'⟩ →
    (e.after history).Joined c slot slot' ∨
    ∃ before entity rest, history = before ++ .remove entity :: rest ∧
      (e.after before).Joined c slot slot' ∧
      c.setup ∈ (e.after before).registry.ids entity ∧ c.id ∉ (e.after before).registry.ids entity
  parent : ∀ {s q}, (e.after history).parents.get? s = some q →
    ∃ t, (e.after history).tasks.get? s = some t ∧ ∃ c slot', c.setup = s ∧ c.id = q ∧
      ((e.after history).Joined c t.slot slot' ∨
      ∃ before entity rest, history = before ++ .remove entity :: rest ∧
        (e.after before).Joined c t.slot slot' ∧
        c.setup ∉ (e.after before).registry.ids entity ∧
        c.id ∈ (e.after before).registry.ids entity)

theorem Tied.step {e : Engine γ} (hs : e.Steady) {history : List Operation} (h : Tied e history)
    (op : Operation) : Tied e (history ++ [op]) := by
  have hs' := hs.after history
  have hnext : e.after (history ++ [op]) = ((e.after history).step op).2 := after_append ..
  have hc := hs'.carries_step op
  have hnamed := (hs.after (history ++ [op])).coherent
  rw [hnext] at hnamed
  constructor
  case connection =>
    intro q c slot slot' hq
    rw [hnext] at hq ⊢
    obtain rfl := hnamed.named hq
    refine (hc.connection hq).elim (fun hq' => ?_) .inl
    rcases h.connection hq' with hj | ⟨before, entity, rest, rfl, hrest⟩
    · cases hc.joined hj with
      | joined hj => exact .inl hj
      | ended _ hgone => exact absurd (hgone.symm.trans hq) (by simp)
      | setupRemoved hop hin hout _ => exact .inr ⟨history, _, [], by rw [hop], hj, hin, hout⟩
      | connectionRemoved _ _ _ hgone => exact absurd (hgone.symm.trans hq) (by simp)
    · exact .inr ⟨before, entity, rest ++ [op], by simp, hrest⟩
  case parent =>
    intro s q hq
    rw [hnext] at hq ⊢
    rcases hc.parent hq with ⟨hq', t, t', ht, ht', hslot⟩ | ⟨c, slot, slot', hj, rfl, rfl⟩
    · obtain ⟨u, hu, c, slot', rfl, rfl, hcase⟩ := h.parent hq'
      obtain rfl := Option.some.inj (ht.symm.trans hu)
      refine ⟨t', ht', c, slot', rfl, rfl, ?_⟩
      rw [hslot]
      rcases hcase with hj | ⟨before, entity, rest, rfl, hrest⟩
      · cases hc.joined hj with
        | joined hj => exact .inl hj
        | ended hgone _ => exact absurd (hgone.symm.trans ht') (by simp)
        | setupRemoved _ _ _ hgone => exact absurd (hgone.symm.trans ht') (by simp)
        | connectionRemoved hop hout hin _ =>
          exact .inr ⟨history, _, [], by rw [hop], hj, hout, hin⟩
      · exact .inr ⟨before, entity, rest ++ [op], by simp, hrest⟩
    · obtain ⟨t, ht, rfl, -⟩ := hj.setup
      exact ⟨t, ht, c, slot', rfl, rfl, .inl hj⟩

theorem tied_new (gateway : γ) (ids : IdSource) (config : EngineConfig)
    (history : List Operation) : Tied (Engine.new gateway ids config) history := by
  induction history using List.reverseRecOn with
  | nil => exact ⟨fun h => by simp [Engine.new, after] at h, fun h => by simp [Engine.new, after] at h⟩
  | append_singleton history op ih => exact ih.step (steady_new gateway ids config) op

/-- After any operations a live connection and the setup it waits for are linked, and so is every
entry of the parent table, unless an entity was removed that one of the two was registered under and
the other was not. Such a removal leaves the other as it was. -/
theorem linked_after (gateway : γ) (ids : IdSource) (config : EngineConfig)
    (history : List Operation) :
    let start := Engine.new gateway ids config
    let e := start.after history
    (∀ c s, e.waitingFor? c = some (.procedure s) → e.isLive c = true ∧ (e.Linked s c ∨
      ∃ before entity rest, history = before ++ .remove entity :: rest ∧
        (start.after before).Linked s c ∧
        (start.after before).tasks.get? c = e.tasks.get? c ∧
        s ∈ (start.after before).registry.ids entity ∧
        c ∉ (start.after before).registry.ids entity)) ∧
    (∀ s c, e.parents.get? s = some c → e.isLive s = true ∧
      ∃ t, e.tasks.get? s = some t ∧ t.machine.kind = .ngSetup ∧ (e.Linked s c ∨
      ∃ before entity rest, history = before ++ .remove entity :: rest ∧
        (start.after before).Linked s c ∧
        ((start.after before).tasks.get? s).map (·.slot) = some t.slot ∧
        c ∈ (start.after before).registry.ids entity ∧
        s ∉ (start.after before).registry.ids entity)) ∧
    ∀ c s entity, e.Linked s c →
      (s ∈ e.registry.ids entity → c ∉ e.registry.ids entity →
        (e.step (.remove entity)).2.waitingFor? c = some (.procedure s) ∧
        (e.step (.remove entity)).2.isLive s = false) ∧
      (c ∈ e.registry.ids entity → s ∉ e.registry.ids entity →
        (e.step (.remove entity)).2.parents.get? s = some c ∧
        (e.step (.remove entity)).2.isLive s = true ∧
        (e.step (.remove entity)).2.isLive c = false) := by
  intro start e
  have htied := tied_new gateway ids config history
  have hc := (steady_after gateway ids config history).coherent
  refine ⟨fun q s hw => ?_, fun s q hp => ?_, fun c s entity h => h.remove entity⟩
  · obtain ⟨c, slot, slot', hq, rfl⟩ := exists_connection_of_waits hw
    obtain rfl := hc.named hq
    refine ⟨hc.isLive_of_get? hq, ?_⟩
    rcases htied.connection hq with hj | ⟨before, entity, rest, heq, hj, hin, hout⟩
    · exact .inl (hj.linked hc)
    · exact .inr ⟨before, entity, rest, heq,
        hj.linked (steady_after gateway ids config before).coherent, hj.connection.trans hq.symm,
        hin, hout⟩
  · obtain ⟨t, ht, c, slot', rfl, rfl, hcase⟩ := htied.parent hp
    obtain ⟨u, hu, hk⟩ := hc.parent hp
    obtain rfl := Option.some.inj (ht.symm.trans hu)
    refine ⟨hc.isLive_of_get? ht, t, ht, hk, ?_⟩
    rcases hcase with hj | ⟨before, entity, rest, heq, hj, hout, hin⟩
    · exact .inl (hj.linked hc)
    · obtain ⟨u, hu, hslot, -⟩ := hj.setup
      exact .inr ⟨before, entity, rest, heq,
        hj.linked (steady_after gateway ids config before).coherent, by rw [hu, ← hslot]; rfl,
        hin, hout⟩

/-- Removing the entity of the AMF leaves the connection waiting for a setup that is gone, and
removing the controller leaves an entry of the parent table for a connection that is gone. -/
theorem link_cut_by_remove :
    let connect : Operation := .connect ⟨"ngc"⟩
      ⟨⟨"amf-1"⟩, ⟨⟨"00101", 411, 22⟩, none, [⟨7, ["00101"]⟩], .v128⟩, 1⟩
    let e := (Engine.new (⟨⟩ : NoGateway) (.sequential) {}).after [connect, .remove ⟨"amf-1"⟩]
    let e' := (Engine.new (⟨⟩ : NoGateway) (.sequential) {}).after [connect, .remove ⟨"ngc"⟩]
    ¬(∀ c s, e.isLive c = true → e.waitingFor? c = some (.procedure s) → e.Linked s c) ∧
      ¬∀ s c, e'.parents.get? s = some c → e'.Linked s c := by
  intro connect e e'
  have hgone : e.isLive ⟨"proc-2"⟩ = true ∧
      e.waitingFor? ⟨"proc-2"⟩ = some (.procedure ⟨"proc-1"⟩) ∧
      e.isLive ⟨"proc-1"⟩ = false := by decide +kernel
  have hleft : e'.parents.get? ⟨"proc-1"⟩ = some ⟨"proc-2"⟩ ∧ e'.isLive ⟨"proc-2"⟩ = false := by
    decide +kernel
  constructor
  · intro h
    have hlive := (h ⟨"proc-2"⟩ ⟨"proc-1"⟩ hgone.1 hgone.2.1).setup.1
    simp [hgone.2.2] at hlive
  · intro h
    have hlive := (h ⟨"proc-1"⟩ ⟨"proc-2"⟩ hleft.1).live
    simp [hleft.2] at hlive

end Engine

end NgapProcedures