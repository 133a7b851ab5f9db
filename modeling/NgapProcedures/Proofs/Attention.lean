import NgapProcedures.Proofs.Engine.Coherence
import NgapProcedures.Proofs.Settlement

/-! The guard in front of a task and its machine agree: a wake is expected exactly when it moves the
machine to another state, and one that is not expected would change nothing and ask for nothing. For a
retry procedure this takes that its backoffs have a retry left, and for a connection that the result
of its setup is there to be read. -/

namespace NgapProcedures

namespace RetryProcedure

variable {ρ σ : Type} {P : RetryProtocol ρ σ} {p p' : RetryProcedure ρ σ} {event : RetryEvent σ}
  {fx : List Effect} {id : ProcedureId} {request : ProcedureRequest ρ}
  {passages : List (Passage σ)} {w : Wake}

def Fits (p : RetryProcedure ρ σ) : RetryEvent σ → Prop
  | .launch => p.state = .created
  | .reply _ => p.state = .awaitingResponse
  | .timerFired => p.state = .backoff
  | .cancel => p.isTerminal = false

theorem Accepted.fits (ha : Accepted P p event p' fx) : p.Fits event := by
  cases ha with
  | launched hs => exact hs
  | succeeded hs response => exact hs
  | rejected hs hw => exact hs
  | backedOff hs hw hb => exact hs
  | exhausted hs hw hb => exact hs
  | resent hs hb => exact hs
  | cancelled hs => exact hs

theorem Accepted.accepts (ha : Accepted P p event p' fx) : p.accepts P event = true := by
  rw [RetryProcedure.accepts, ha.transition_eq]
  exact decide_eq_true ha.state_ne

theorem Run.accepts_iff (h : Run P id request passages p) :
    p.accepts P event = true ↔ p.Fits event := by
  constructor
  · intro haccepts
    rcases h.transition_cases event with ⟨hnot, -⟩ | ⟨-, ha⟩
    · rw [hnot] at haccepts
      cases haccepts
    · exact ha.fits
  · intro hs
    cases event with
    | launch => exact (Accepted.launched hs).accepts
    | reply reply =>
      cases reply with
      | success response => exact (Accepted.succeeded hs response).accepts
      | failure r =>
        cases hw : r.wait? with
        | none => exact (Accepted.rejected hs hw).accepts
        | some delay =>
          by_cases hb : p.attempts < p.maxRetries
          · exact (Accepted.backedOff hs hw hb).accepts
          · exact (Accepted.exhausted hs hw hb).accepts
    | timerFired => exact (Accepted.resent hs (h.backoff_lt hs)).accepts
    | cancel => exact (Accepted.cancelled hs).accepts

/-- whether a procedure is suspended on a wake -/
def awaits (P : RetryProtocol ρ σ) (p : RetryProcedure ρ σ) : Wake → Bool
  | .cancel => !p.isTerminal
  | .launch => !p.isTerminal && p.waitingFor == .nothing
  | .message pdu => p.waitingFor == .response && (P.reply? pdu).isSome
  | .timerFired => p.waitingFor == .timer
  | .procedureDone id => p.waitingFor == .procedure id

theorem awaits_iff :
    p.awaits P w = true ↔ ∃ event, P.eventOf w = some event ∧ p.Fits event := by
  cases w with
  | launch =>
    cases hs : p.state <;>
      simp [awaits, RetryProtocol.eventOf, Fits, isTerminal, waitingFor, hs]
  | message pdu =>
    cases hr : P.reply? pdu with
    | none => simp [awaits, RetryProtocol.eventOf, hr]
    | some reply =>
      simp [awaits, RetryProtocol.eventOf, hr, Fits, waitingFor_eq_response_iff]
  | timerFired => simp [awaits, RetryProtocol.eventOf, Fits, waitingFor_eq_timer_iff]
  | procedureDone id => simp [awaits, RetryProtocol.eventOf, waitingFor_ne_procedure]
  | cancel => simp [awaits, RetryProtocol.eventOf, Fits]

/-- an awaited wake is an event that changes the state -/
theorem Run.heard (h : Run P id request passages p) (hw : p.awaits P w = true) :
    ∃ event, P.eventOf w = some event ∧ (p.transition P event).1.state ≠ p.state := by
  obtain ⟨event, hevent, hs⟩ := awaits_iff.1 hw
  exact ⟨event, hevent, of_decide_eq_true (h.accepts_iff.2 hs)⟩

/-- any other wake is no event, or one that changes nothing -/
theorem Run.deaf (h : Run P id request passages p) (hw : p.awaits P w = false)
    (hevent : P.eventOf w = some event) : p.transition P event = (p, []) := by
  rcases h.transition_cases event with ⟨-, heq⟩ | ⟨-, ha⟩
  · exact heq
  · have hawaits := awaits_iff.2 ⟨event, hevent, ha.fits⟩
    rw [hw] at hawaits
    cases hawaits

end RetryProcedure

namespace AmfConnection

variable {c c' : AmfConnection} {event : ConnectionEvent} {fx : List Effect} {w : Wake}

theorem Accepted.state_ne (ha : Accepted c event c' fx) : c'.state ≠ c.state := by
  cases ha with
  | launched hs => simp [AmfConnection.launched, hs]
  | settled hs outcome => simp [hs]
  | cancelled hs =>
    intro hc
    have hs' : c.state = .cancelled := hc.symm
    simp [isTerminal, hs'] at hs

def Fits (c : AmfConnection) : ConnectionEvent → Prop
  | .launch => c.state = .created
  | .setupSettled _ => c.state = .awaitingSetup
  | .cancel => c.isTerminal = false

theorem Accepted.fits (ha : Accepted c event c' fx) : c.Fits event := by
  cases ha with
  | launched hs => exact hs
  | settled hs outcome => exact hs
  | cancelled hs => exact hs

theorem Fits.state_ne (h : c.Fits event) : (c.transition event).1.state ≠ c.state := by
  have accepted {c' : AmfConnection} {fx : List Effect} (ha : Accepted c event c' fx) :
      (c.transition event).1.state ≠ c.state := by
    rw [ha.transition_eq]
    exact ha.state_ne
  cases event with
  | launch => exact accepted (.launched h)
  | setupSettled outcome => exact accepted (.settled h outcome)
  | cancel => exact accepted (.cancelled h)

/-- a connection expects a wake that is an event for its state, once its setup's result is there -/
theorem expects_iff {slot : Nat} {result : Option Result}
    (hready : w = .procedureDone c.setup → ∃ outcome, result = some (.setup outcome)) :
    (Machine.connection c slot).expects w = true ↔
      ∃ event, c.eventOf result w = some event ∧ c.Fits event := by
  cases w with
  | launch =>
    cases hs : c.state <;>
      simp [Machine.expects, Machine.isTerminal, Machine.waitingFor, eventOf, Fits, isTerminal,
        waitingFor, hs]
  | message pdu => simp [Machine.expects, Machine.accepts, eventOf]
  | timerFired =>
    rcases Machine.waitingFor_connection_cases c slot with hwait | hwait <;>
      simp [Machine.expects, hwait, eventOf]
  | procedureDone id =>
    have hexpects : (Machine.connection c slot).expects (.procedureDone id) = true ↔
        c.state = .awaitingSetup ∧ c.setup = id := by
      simp [Machine.expects, Machine.waitingFor, waitingFor_eq_procedure_iff]
    rw [hexpects]
    by_cases hid : id = c.setup
    · subst hid
      obtain ⟨outcome, rfl⟩ := hready rfl
      simp [eventOf, Fits]
    · simp [eventOf, hid, Ne.symm hid]
  | cancel => simp [Machine.expects, Machine.isTerminal, eventOf, Fits]

theorem deaf {slot : Nat} {result : Option Result}
    (hw : (Machine.connection c slot).expects w = false) (hevent : c.eventOf result w = some event) :
    c.transition event = (c, []) := by
  rcases c.transition_cases event with heq | ha
  · exact heq
  · have hready : w = .procedureDone c.setup → ∃ outcome, result = some (.setup outcome) := by
      rintro rfl
      cases result with
      | none => simp [eventOf] at hevent
      | some r =>
        cases r with
        | setup outcome => exact ⟨outcome, rfl⟩
        | update outcome => simp [eventOf] at hevent
        | connection outcome => simp [eventOf] at hevent
    have hexpects : (Machine.connection c slot).expects w = true :=
      (expects_iff hready).2 ⟨event, hevent, ha.fits⟩
    rw [hw] at hexpects
    cases hexpects

end AmfConnection

namespace Results

variable {results : Results} {slot : Nat}

theorem record_of_get? {r : Option Result} (h : results.get? slot = r) :
    results.record slot r = results := by
  cases r with
  | none => rfl
  | some r => exact if_pos ((Table.contains_iff _ _).2 ⟨r, h⟩)

theorem get?_record_self (h : results.get? slot = none) (r : Option Result) :
    (results.record slot r).get? slot = r := by
  cases r with
  | none => exact h
  | some r => rw [get?_record h, if_pos rfl]

theorem get?_record_other {n : Nat} (h : n ≠ slot) (r : Option Result) :
    (results.record slot r).get? n = results.get? n := by
  cases r with
  | none => rfl
  | some r =>
    unfold record
    dsimp only
    split
    · rfl
    · exact Table.get?_insert_other _ _ h

theorem of_get?_record {r : Option Result} {found : Result}
    (h : (results.record slot r).get? slot = some found) :
    results.get? slot = some found ∨ r = some found := by
  cases hget : results.get? slot with
  | none => exact .inr ((get?_record_self hget r).symm.trans h)
  | some old =>
    cases r with
    | none => exact .inl (hget.symm.trans h)
    | some r =>
      have hkept : results.record slot (some r) = results :=
        if_pos ((Table.contains_iff _ _).2 ⟨old, hget⟩)
      rw [hkept, hget] at h
      exact .inl h

end Results

def Machine.state : Machine → RetryState ⊕ ConnectionState
  | setup p => .inl p.state
  | update p => .inl p.state
  | connection c _ => .inr c.state

/-- A task wants the wakes that it expects, and would ignore the others. -/
structure Task.Heeds (t : Task) (results : Results) (w : Wake) : Prop where
  heard : t.machine.expects w = true → (t.resume results w).1.machine.state ≠ t.machine.state
  deaf : t.machine.expects w = false → t.resume results w = (t, results, [])

/-- a machine that has become what it is by events of its own -/
inductive Machine.Grown : Machine → Prop where
  | setup (id : ProcedureId) (request : ProcedureRequest NgSetupRequest)
    (events : List (RetryEvent NgSetupResponse)) :
    Grown (.setup ((RetryProcedure.new id request).after ngSetup events))
  | update (id : ProcedureId) (request : ProcedureRequest RanConfigurationUpdate)
    (events : List (RetryEvent Unit)) :
    Grown (.update ((RetryProcedure.new id request).after ranConfigurationUpdate events))
  | connection (id setup : ProcedureId) (controller amf : EntityId) (slot : Nat)
    (events : List ConnectionEvent) :
    Grown (.connection ((⟨id, controller, amf, setup, .created, none⟩ : AmfConnection).after events)
      slot)

namespace RetryProcedure

variable {ρ σ : Type} {P : RetryProtocol ρ σ}

theorem transition_undecided (id : ProcedureId) (request : ProcedureRequest ρ)
    (events : List (RetryEvent σ)) (event : RetryEvent σ) :
    (((new id request).after P events).transition P event).1 = (new id request).after P events ∨
      ((new id request).after P events).outcome = none := by
  have hrun := (run_after P id request events).1
  rcases hrun.transition_cases event with ⟨-, heq⟩ | ⟨-, ha⟩
  · exact .inl (by rw [heq])
  · exact .inr (hrun.consistent.undecided ha.not_isTerminal)

end RetryProcedure

theorem AmfConnection.transition_undecided (id setup : ProcedureId) (controller amf : EntityId)
    (events : List ConnectionEvent) (event : ConnectionEvent) :
    let c := (⟨id, controller, amf, setup, .created, none⟩ : AmfConnection).after events
    (c.transition event).1 = c ∨ c.outcome = none := by
  intro c
  have hc : AmfConnection.SettlesOnce _ c _ :=
    (AmfConnection.settlesOnce_new id setup controller amf).after events
  cases hs : c.isTerminal with
  | true => exact .inl (by rw [AmfConnection.transition_terminal hs])
  | false =>
    have hdecided := hc.decided_iff
    rw [← AmfConnection.isTerminal_iff, hs] at hdecided
    exact .inr (by simpa using hdecided)

namespace Machine

theorem expects_setup (p : RetryProcedure NgSetupRequest NgSetupResponse) (w : Wake) :
    (setup p).expects w = p.awaits ngSetup w := by
  cases w <;> rfl

theorem expects_update (p : RetryProcedure RanConfigurationUpdate Unit) (w : Wake) :
    (update p).expects w = p.awaits ranConfigurationUpdate w := by
  cases w <;> rfl

/-- a resumed machine has grown by an event, before which it had no result unless nothing changed -/
theorem Grown.resume {m m' : Machine} {results : Results} {w : Wake} {fx : List Effect}
    (h : m.Grown) (hr : m.resume results w = some (m', fx)) :
    m'.Grown ∧ (m' = m ∨ m.result? = none) := by
  cases h with
  | setup id request events =>
    simp only [Machine.resume, Option.map_eq_some_iff, Prod.mk.injEq] at hr
    obtain ⟨event, -, rfl, -⟩ := hr
    refine ⟨?_, ?_⟩
    · have hgrown := Grown.setup id request (events ++ [event])
      rwa [RetryProcedure.after_append] at hgrown
    · rcases RetryProcedure.transition_undecided id request events event with heq | ho
      · exact .inl (by rw [heq])
      · exact .inr (by simp [result?, ho])
  | update id request events =>
    simp only [Machine.resume, Option.map_eq_some_iff, Prod.mk.injEq] at hr
    obtain ⟨event, -, rfl, -⟩ := hr
    refine ⟨?_, ?_⟩
    · have hgrown := Grown.update id request (events ++ [event])
      rwa [RetryProcedure.after_append] at hgrown
    · rcases RetryProcedure.transition_undecided id request events event with heq | ho
      · exact .inl (by rw [heq])
      · exact .inr (by simp [result?, ho])
  | connection id setup controller amf slot events =>
    simp only [Machine.resume, Option.map_eq_some_iff, Prod.mk.injEq] at hr
    obtain ⟨event, -, rfl, -⟩ := hr
    refine ⟨?_, ?_⟩
    · have hgrown := Grown.connection id setup controller amf slot (events ++ [event])
      simpa [AmfConnection.after] using hgrown
    · rcases AmfConnection.transition_undecided id setup controller amf events event with heq | ho
      · exact .inl (by rw [heq])
      · exact .inr (by simp [result?, ho])

variable {m : Machine} {results : Results} {w : Wake}

theorem Grown.heard (h : m.Grown)
    (hready : ∀ c slot, m = .connection c slot → w = .procedureDone c.setup →
      ∃ outcome, results.get? slot = some (.setup outcome)) (hw : m.expects w = true) :
    ∃ m' fx, m.resume results w = some (m', fx) ∧ m'.state ≠ m.state := by
  cases h with
  | setup id request events =>
    have hrun := (RetryProcedure.run_after ngSetup id request events).1
    rw [expects_setup] at hw
    obtain ⟨event, hevent, hne⟩ := hrun.heard hw
    refine ⟨_, _, by rw [Machine.resume, hevent]; rfl, ?_⟩
    exact fun heq => hne (Sum.inl.inj heq)
  | update id request events =>
    have hrun := (RetryProcedure.run_after ranConfigurationUpdate id request events).1
    rw [expects_update] at hw
    obtain ⟨event, hevent, hne⟩ := hrun.heard hw
    refine ⟨_, _, by rw [Machine.resume, hevent]; rfl, ?_⟩
    exact fun heq => hne (Sum.inl.inj heq)
  | connection id setup controller amf slot events =>
    obtain ⟨event, hevent, hs⟩ := (AmfConnection.expects_iff (hready _ slot rfl)).1 hw
    refine ⟨_, _, by rw [Machine.resume, hevent]; rfl, ?_⟩
    exact fun heq => hs.state_ne (Sum.inr.inj heq)

theorem Grown.deaf (h : m.Grown) (results : Results) (hw : m.expects w = false) :
    m.resume results w = none ∨ m.resume results w = some (m, []) := by
  cases h with
  | setup id request events =>
    have hrun := (RetryProcedure.run_after ngSetup id request events).1
    rw [expects_setup] at hw
    cases hevent : ngSetup.eventOf w with
    | none => exact .inl (by simp [Machine.resume, hevent])
    | some event => exact .inr (by simp [Machine.resume, hevent, hrun.deaf hw hevent])
  | update id request events =>
    have hrun := (RetryProcedure.run_after ranConfigurationUpdate id request events).1
    rw [expects_update] at hw
    cases hevent : ranConfigurationUpdate.eventOf w with
    | none => exact .inl (by simp [Machine.resume, hevent])
    | some event => exact .inr (by simp [Machine.resume, hevent, hrun.deaf hw hevent])
  | connection id setup controller amf slot events =>
    generalize AmfConnection.after _ events = c at hw ⊢
    cases hevent : c.eventOf (results.get? slot) w with
    | none => exact .inl (by simp [Machine.resume, hevent])
    | some event => exact .inr (by simp [Machine.resume, hevent, AmfConnection.deaf hw hevent])

end Machine

namespace Task

structure Sound (t : Task) (results : Results) : Prop where
  grown : t.machine.Grown
  recorded : results.get? t.slot = t.machine.result?

variable {t : Task} {results : Results}

theorem Sound.resume (h : t.Sound results) (w : Wake) :
    (t.resume results w).1.Sound (t.resume results w).2.1 := by
  unfold Task.resume
  cases hr : t.machine.resume results w with
  | none => exact h
  | some r =>
    obtain ⟨m', fx⟩ := r
    obtain ⟨hgrown, hsame | hnone⟩ := h.grown.resume hr
    · subst hsame
      refine ⟨hgrown, ?_⟩
      dsimp only
      rw [Results.record_of_get? h.recorded]
      exact h.recorded
    · refine ⟨hgrown, ?_⟩
      exact Results.get?_record_self (h.recorded.trans hnone) _

def resumeAll (t : Task) (results : Results) : List Wake → Task × Results
  | [] => (t, results)
  | w :: rest => (t.resume results w).1.resumeAll (t.resume results w).2.1 rest

theorem Sound.resumeAll (h : t.Sound results) (wakes : List Wake) :
    (t.resumeAll results wakes).1.Sound (t.resumeAll results wakes).2 := by
  induction wakes generalizing t results with
  | nil => exact h
  | cons w rest ih => exact ih (h.resume w)

/-- The guard in front of a sound task tells what its machine does, once the result of a setup that is
said to have ended is there to be read. -/
theorem Sound.heeds (h : t.Sound results) {w : Wake}
    (hready : ∀ c slot, t.machine = .connection c slot → w = .procedureDone c.setup →
      ∃ outcome, results.get? slot = some (.setup outcome)) : t.Heeds results w := by
  constructor
  · intro hw
    obtain ⟨m', fx, hr, hne⟩ := h.grown.heard hready hw
    unfold Task.resume
    rw [hr]
    exact hne
  · intro hw
    unfold Task.resume
    rcases h.grown.deaf results hw with hr | hr
    · rw [hr]
    · rw [hr]
      dsimp only
      rw [Results.record_of_get? h.recorded]

end Task

end NgapProcedures
