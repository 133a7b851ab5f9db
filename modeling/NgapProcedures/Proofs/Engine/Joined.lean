import NgapProcedures.Proofs.Engine.Settling

/-! A setup and the connection that waits for it, in an engine with other instances. The two know of
each other, and when one of them ends, word of it is under way to the other until that has ended
too. -/

namespace NgapProcedures.Engine

variable {γ : Type}

structure Joined (e : Engine γ) (c : AmfConnection) (slot slot' : Nat) : Prop where
  setup : ∃ t, e.tasks.get? c.setup = some t ∧ t.slot = slot ∧ t.machine.kind = .ngSetup ∧
    t.machine.entity = c.amf
  connection : e.tasks.get? c.id = some ⟨.connection c slot, slot'⟩
  parent : e.parents.get? c.setup = some c.id

/-- what becomes of the two while the ends of instances run their course: the one that is left has
word of the end of the other under way -/
inductive Parting (e : Engine γ) (c : AmfConnection) (slot slot' : Nat) : Prop where
  | joined (h : e.Joined c slot slot')
  | unanswered (hs : e.tasks.get? c.setup = none)
      (hc : e.tasks.get? c.id = some ⟨.connection c slot, slot'⟩)
      (hr : ∃ outcome, e.results.get? slot = some (.setup outcome))
      (hw : (c.id, .procedureDone c.setup) ∈ e.wakes)
  | unwanted (hc : e.tasks.get? c.id = none)
      (hs : ∃ t, e.tasks.get? c.setup = some t)
      (hw : (c.setup, .cancel) ∈ e.wakes)
  | ended (hs : e.tasks.get? c.setup = none) (hc : e.tasks.get? c.id = none)

section

variable {e : Engine γ} {c : AmfConnection} {slot slot' : Nat}

theorem Coherent.waitingFor_connection (h : e.Coherent []) {q : ProcedureId}
    (hc : e.tasks.get? q = some ⟨.connection c slot, slot'⟩) :
    c.id = q ∧ c.state = .awaitingSetup ∧ c.waitingFor = .procedure c.setup := by
  have hs := (h.suspended hc).1
  exact ⟨h.named hc, hs, by simp [AmfConnection.waitingFor, hs]⟩

/-- nothing waits for a connection -/
theorem Coherent.parents_connection (h : e.Coherent []) {q : ProcedureId}
    (hc : e.tasks.get? q = some ⟨.connection c slot, slot'⟩) : e.parents.get? q = none := by
  refine Option.eq_none_iff_forall_ne_some.2 fun q' hq => ?_
  obtain ⟨t, ht, hk⟩ := h.parent hq
  rw [hc] at ht
  obtain rfl := Option.some.inj ht
  simp [Machine.kind] at hk

theorem Coherent.apart_of_parent (h : e.Coherent [])
    (hc : e.tasks.get? c.id = some ⟨.connection c slot, slot'⟩)
    (hp : e.parents.get? c.setup = some c.id) : c.id ≠ c.setup := by
  intro he
  rw [← he, h.parents_connection hc] at hp
  simp at hp

theorem Joined.empty (h : e.Joined c slot slot') (hc : e.Coherent []) :
    e.results.get? slot = none := by
  obtain ⟨t, ht, rfl, -⟩ := h.setup
  exact (hc.slot ht).2

theorem Joined.wakes (h : e.Joined c slot slot') (ws : List (ProcedureId × Wake)) :
    ({ e with wakes := ws }).Joined c slot slot' :=
  ⟨h.setup, h.connection, h.parent⟩

theorem Joined.close (h : e.Joined c slot slot') {id : ProcedureId} (hs : c.setup ≠ id)
    (hc : c.id ≠ id) (t : Task) (r : Result) (event : Event) (ws : List (ProcedureId × Wake)) :
    (e.close id t r event ws).Joined c slot slot' where
  setup := by
    obtain ⟨u, hu, hrest⟩ := h.setup
    exact ⟨u, (Table.get?_erase_other _ hs).trans hu, hrest⟩
  connection := (Table.get?_erase_other _ hc).trans h.connection
  parent := (Table.get?_erase_other _ hs).trans h.parent

theorem Closes.of_setup {t : Task} {r : Result} {event : Event}
    {ws : List (ProcedureId × Wake)} (h : e.Closes t r event ws)
    (hk : t.machine.kind = .ngSetup) : ∃ outcome, r = .setup outcome := by
  obtain ⟨p, hp⟩ := Machine.eq_setup_of_kind hk
  cases h with
  | cancelled => exact ⟨.cancelled, by simp [hp, Machine.cancellation]⟩
  | answered _ hr =>
    cases r with
    | setup outcome => exact ⟨outcome, rfl⟩
    | update outcome => simp [hk, Result.kind] at hr
    | connection outcome => simp [hk, Result.kind] at hr
  | informed hm => simp [hp] at hm

/-- a connection whose setup has no result yet can only be cancelled -/
theorem Closes.of_connection {r : Result} {event : Event} {ws : List (ProcedureId × Wake)}
    (h : e.Closes ⟨.connection c slot, slot'⟩ r event ws) (hempty : e.results.get? slot = none) :
    r = .connection .cancelled ∧ event = .procedureCancelled c.id ∧ ws = [(c.setup, .cancel)] := by
  cases h with
  | cancelled => exact ⟨rfl, rfl, rfl⟩
  | answered hw => rcases Machine.waitingFor_connection_cases c slot with h | h <;> simp [h] at hw
  | informed hm hr =>
    obtain ⟨rfl, rfl⟩ : _ ∧ _ := by simpa using hm
    simp [hempty] at hr

/-- the end of either leaves word for the other -/
theorem Joined.parting_close (h : e.Joined c slot slot') (hc : e.Coherent []) {id : ProcedureId}
    {t : Task} (ht : e.tasks.get? id = some t) {r : Result} {event : Event}
    {ws : List (ProcedureId × Wake)} (hcl : e.Closes t r event ws) :
    (e.close id t r event ws).Parting c slot slot' := by
  have hne := hc.apart_of_parent h.connection h.parent
  by_cases hs : c.setup = id
  · subst hs
    obtain ⟨u, hu, hslot, hk, -⟩ := h.setup
    obtain rfl := Option.some.inj (hu.symm.trans ht)
    obtain ⟨outcome, rfl⟩ := hcl.of_setup hk
    refine .unanswered (Table.get?_erase_self ..)
      ((Table.get?_erase_other _ hne).trans h.connection) ⟨outcome, ?_⟩ ?_
    · exact hslot ▸ hc.result_close ht _ event ws
    · simp [Engine.close, parentWake, h.parent]
  by_cases hid : c.id = id
  · subst hid
    obtain rfl := Option.some.inj (h.connection.symm.trans ht)
    obtain ⟨u, hu, -⟩ := h.setup
    obtain ⟨-, -, rfl⟩ := hcl.of_connection (h.empty hc)
    exact .unwanted (Table.get?_erase_self ..)
      ⟨u, (Table.get?_erase_other _ hne.symm).trans hu⟩ (by simp [Engine.close])
  · exact .joined (h.close hs hid t r event ws)

theorem Parting.close (h : e.Parting c slot slot') (hc : e.Coherent []) {id : ProcedureId}
    {t : Task} (ht : e.tasks.get? id = some t) {r : Result} {event : Event}
    {ws : List (ProcedureId × Wake)} (hcl : e.Closes t r event ws) :
    (e.close id t r event ws).Parting c slot slot' := by
  have hgone {q : ProcedureId} (hq : e.tasks.get? q = none) :
      (e.close id t r event ws).tasks.get? q = none := by
    refine (Table.get?_erase ..).trans ?_
    split
    · rfl
    · exact hq
  have hmem {x : ProcedureId × Wake} (hx : x ∈ e.wakes) :
      x ∈ (e.close id t r event ws).wakes := by simp [Engine.close, hx]
  cases h with
  | joined h => exact h.parting_close hc ht hcl
  | unanswered hs hcon hr hw =>
    by_cases hid : c.id = id
    · exact .ended (hgone hs) (hid ▸ Table.get?_erase_self ..)
    · refine .unanswered (hgone hs) ((Table.get?_erase_other _ hid).trans hcon) ?_ (hmem hw)
      obtain ⟨outcome, hr⟩ := hr
      refine ⟨outcome, (Results.get?_record (hc.slot ht).2 r slot).trans ((if_neg ?_).trans hr)⟩
      rintro rfl
      simp [(hc.slot ht).2] at hr
  | unwanted hcon hs hw =>
    by_cases hid : c.setup = id
    · exact .ended (hid ▸ Table.get?_erase_self ..) (hgone hcon)
    · obtain ⟨u, hu⟩ := hs
      exact .unwanted (hgone hcon) ⟨u, (Table.get?_erase_other _ hid).trans hu⟩ (hmem hw)
  | ended hs hcon => exact .ended (hgone hs) (hgone hcon)

end

variable [Gateway γ]

section

variable {e : Engine γ} {c : AmfConnection} {slot slot' : Nat}

theorem Parting.dispatch (h : e.Parting c slot slot') (hc : e.Coherent []) {id : ProcedureId}
    {w : Wake} {rest : List (ProcedureId × Wake)} (hcons : e.wakes = (id, w) :: rest)
    (hw : w.Ending) : ({ e with wakes := rest }.dispatch id w).Parting c slot slot' := by
  have hc' := hc.wakes rest
  -- a wake that is not the one that the two have under way
  have hother (h' : ({ e with wakes := rest }).Parting c slot slot') :
      ({ e with wakes := rest }.dispatch id w).Parting c slot slot' := by
    rcases hc'.dispatch_ending id hw with he | ⟨t, r, event, ws, ht, hcl, he⟩
    · rw [he]
      exact h'
    · rw [he]
      exact h'.close hc' ht hcl
  have hgone {q q' : ProcedureId} (hq : e.tasks.get? q = none) :
      (e.tasks.erase q').get? q = none := by
    rw [Table.get?_erase]
    split
    · rfl
    · exact hq
  cases h with
  | joined h => exact hother (.joined (h.wakes rest))
  | unanswered hs hcon hr hmem =>
    rw [hcons] at hmem
    rcases List.mem_cons.1 hmem with heq | hmem
    · obtain ⟨rfl, rfl⟩ := Prod.mk.inj heq
      obtain ⟨-, hstate, hwait⟩ := hc.waitingFor_connection hcon
      obtain ⟨outcome, hr⟩ := hr
      have hresume : (Machine.connection c slot).resume e.results (.procedureDone c.setup) =
          some (.connection { c with
              state := .completed
              outcome := some (AmfConnection.outcomeOf outcome) } slot,
            [.emit (AmfConnection.announcement c.amf outcome)]) := by
        simp [Machine.resume, AmfConnection.eventOf, hr,
          AmfConnection.transition_setupSettled hstate]
      have hx : (Machine.connection c slot).expects (.procedureDone c.setup) = true := by
        simp [Machine.expects, Machine.waitingFor, hwait]
      rw [dispatch_complete (e := { e with wakes := rest }) hcon hx hresume ⟨rfl, rfl, rfl⟩]
      exact .ended (hgone hs) (Table.get?_erase_self ..)
    · exact hother (.unanswered hs hcon hr hmem)
  | unwanted hcon hs hmem =>
    rw [hcons] at hmem
    rcases List.mem_cons.1 hmem with heq | hmem
    · obtain ⟨rfl, rfl⟩ := Prod.mk.inj heq
      obtain ⟨t, ht⟩ := hs
      rw [dispatch_cancel (e := { e with wakes := rest }) ht (hc.isTerminal ht) hc.standing]
      exact .ended (Table.get?_erase_self ..) (hgone hcon)
    · exact hother (.unwanted hcon hs hmem)
  | ended hs hcon => exact hother (.ended hs hcon)

/-- When the ends have run their course, the two are still joined, or both are gone. -/
theorem Parting.run (h : e.Parting c slot slot') (hc : e.Coherent [])
    (hw : ∀ x ∈ e.wakes, x.2.Ending) : e.run.Joined c slot slot' ∨
      e.run.tasks.get? c.setup = none ∧ e.run.tasks.get? c.id = none := by
  obtain ⟨h, hnil⟩ := hc.ending_induction (P := fun e => e.Parting c slot slot')
    (fun e id w rest hc hcons hw _ h => h.dispatch hc hcons hw) hw h
  cases h with
  | joined h => exact .inl h
  | unanswered _ _ _ hmem => simp [hnil] at hmem
  | unwanted _ _ hmem => simp [hnil] at hmem
  | ended hs hcon => exact .inr ⟨hs, hcon⟩

theorem Joined.run_close (h : e.Joined c slot slot') (hc : e.Coherent []) (hw : e.wakes = [])
    {id : ProcedureId} {t : Task} (ht : e.tasks.get? id = some t) {r : Result} {event : Event}
    {ws : List (ProcedureId × Wake)} (hcl : e.Closes t r event ws) :
    (e.close id t r event ws).run.Joined c slot slot' ∨
      (e.close id t r event ws).run.tasks.get? c.setup = none ∧
      (e.close id t r event ws).run.tasks.get? c.id = none :=
  (h.parting_close hc ht hcl).run (hc.without (hc.without_close ht r event ws))
    (hcl.ending_close hw id)

/-- The end of an instance that nobody waits for, and that takes nobody with it, is all there is. -/
theorem run_close_alone (hw : e.wakes = []) {id : ProcedureId} (hp : e.parents.get? id = none)
    (t : Task) (r : Result) (event : Event) :
    (e.close id t r event []).run = e.close id t r event [] :=
  run_of_wakes_nil (by simp [Engine.close, hw, parentWake, hp])

/-- the end of the setup ends the connection that waits for it -/
theorem Coherent.run_close_setup (h : e.Coherent []) (hw : e.wakes = []) {t : Task}
    (ht : e.tasks.get? c.setup = some t)
    (hc : e.tasks.get? c.id = some ⟨.connection c t.slot, slot'⟩)
    (hp : e.parents.get? c.setup = some c.id) (outcome : RetryOutcome NgSetupResponse)
    (event : Event) :
    let e₁ := e.close c.setup t (.setup outcome) event []
    e₁.run = { e₁ with wakes := [] }.close c.id ⟨.connection c t.slot, slot'⟩
      (.connection (AmfConnection.outcomeOf outcome)) (AmfConnection.announcement c.amf outcome)
      [] := by
  intro e₁
  have hne := h.apart_of_parent hc hp
  obtain ⟨-, hstate, hwait⟩ := h.waitingFor_connection hc
  have hwakes : e₁.wakes = [(c.id, .procedureDone c.setup)] := by
    simp [e₁, Engine.close, hw, parentWake, hp]
  have hconnection : ({ e₁ with wakes := [] } : Engine γ).tasks.get? c.id =
      some ⟨.connection c t.slot, slot'⟩ := (Table.get?_erase_other _ hne).trans hc
  have hx : (Machine.connection c t.slot).expects (.procedureDone c.setup) = true := by
    simp [Machine.expects, Machine.waitingFor, hwait]
  have hresult : e₁.results.get? t.slot = some (.setup outcome) := h.result_close ht _ event []
  have hresume : (Machine.connection c t.slot).resume e₁.results (.procedureDone c.setup) =
      some (.connection { c with
          state := .completed
          outcome := some (AmfConnection.outcomeOf outcome) } t.slot,
        [.emit (AmfConnection.announcement c.amf outcome)]) := by
    simp [Machine.resume, AmfConnection.eventOf, hresult,
      AmfConnection.transition_setupSettled hstate]
  have horphan : ({ e₁ with wakes := [] } : Engine γ).parents.get? c.id = none :=
    (Table.get?_erase_other _ hne).trans (h.parents_connection hc)
  rw [run_of_wakes_cons hwakes, dispatch_complete hconnection hx hresume ⟨rfl, rfl, rfl⟩]
  exact run_close_alone rfl horphan _ _ _

theorem Coherent.run_close_connection (h : e.Coherent []) (hw : e.wakes = []) {t : Task}
    (ht : e.tasks.get? c.setup = some t) (hk : t.machine.kind = .ngSetup)
    (hc : e.tasks.get? c.id = some ⟨.connection c slot, slot'⟩)
    (hp : e.parents.get? c.setup = some c.id) :
    let e₁ := e.close c.id ⟨.connection c slot, slot'⟩ (.connection .cancelled)
      (.procedureCancelled c.id) [(c.setup, .cancel)]
    e₁.run = { { e₁ with wakes := [] }.close c.setup t (.setup .cancelled)
      (.procedureCancelled c.setup) [] with wakes := [] } := by
  intro e₁
  have hne := h.apart_of_parent hc hp
  obtain ⟨p, hm⟩ := Machine.eq_setup_of_kind hk
  have hid := h.named ht
  have hcancel : t.machine.cancellation = .setup .cancelled ∧ t.machine.followUps = [] := by
    rw [hm]
    exact ⟨rfl, rfl⟩
  have hwakes : e₁.wakes = [(c.setup, .cancel)] := by
    simp [e₁, Engine.close, hw, parentWake, h.parents_connection hc]
  have hsetup : ({ e₁ with wakes := [] } : Engine γ).tasks.get? c.setup = some t :=
    (Table.get?_erase_other _ hne.symm).trans ht
  have hparent : ({ e₁ with wakes := [] } : Engine γ).parents.get? c.setup = some c.id :=
    (Table.get?_erase_other _ hne.symm).trans hp
  rw [run_of_wakes_cons hwakes, dispatch_cancel hsetup (h.isTerminal ht) h.standing, hcancel.1,
    hcancel.2, hid]
  generalize he₂ : ({ e₁ with wakes := [] } : Engine γ).close c.setup t (.setup .cancelled)
    (.procedureCancelled c.setup) [] = e₂
  have hlast : e₂.wakes = [(c.id, .procedureDone c.setup)] := by
    rw [← he₂]
    simp [Engine.close, parentWake, hparent]
  have hgone : ({ e₂ with wakes := [] } : Engine γ).tasks.get? c.id = none := by
    rw [← he₂]
    exact (Table.get?_erase_other _ hne).trans (Table.get?_erase_self ..)
  rw [run_of_wakes_cons hlast, dispatch_unknown hgone]
  exact run_of_wakes_nil rfl

end

end NgapProcedures.Engine
