import Mathlib.Data.List.Induction
import NgapProcedures.Proofs.Machine

/-! The course of a retry procedure: the events it accepts, in their order, with what it asks for at
each. An event that is not accepted changes nothing and asks for nothing. -/

namespace NgapProcedures

structure Passage (σ : Type) where
  event : RetryEvent σ
  effects : List Effect

def RetryEvent.rejection? {σ : Type} : RetryEvent σ → Option Rejection
  | reply (.failure r) => some r
  | _ => none

namespace RetryProcedure

variable {ρ σ : Type}

def after (P : RetryProtocol ρ σ) (p : RetryProcedure ρ σ) (events : List (RetryEvent σ)) :
    RetryProcedure ρ σ :=
  events.foldl (fun p event => (p.transition P event).1) p

/-- what is asked for along events -/
def effects (P : RetryProtocol ρ σ) (p : RetryProcedure ρ σ) : List (RetryEvent σ) → List Effect
  | [] => []
  | event :: rest => (p.transition P event).2 ++ effects P (p.transition P event).1 rest

def accepts (P : RetryProtocol ρ σ) (p : RetryProcedure ρ σ) (event : RetryEvent σ) : Bool :=
  (p.transition P event).1.state ≠ p.state

/-- the accepted ones among events -/
def course (P : RetryProtocol ρ σ) (p : RetryProcedure ρ σ) :
    List (RetryEvent σ) → List (Passage σ)
  | [] => []
  | event :: rest =>
    (if p.accepts P event then [⟨event, (p.transition P event).2⟩] else []) ++
      course P (p.transition P event).1 rest

section

variable (P : RetryProtocol ρ σ) (p : RetryProcedure ρ σ)

theorem after_append (events rest : List (RetryEvent σ)) :
    p.after P (events ++ rest) = (p.after P events).after P rest :=
  List.foldl_append

theorem effects_append (events rest : List (RetryEvent σ)) :
    p.effects P (events ++ rest) = p.effects P events ++ (p.after P events).effects P rest := by
  induction events generalizing p with
  | nil => rfl
  | cons event events ih =>
    rw [List.cons_append, effects, effects, ih, List.append_assoc]
    rfl

theorem course_append (events rest : List (RetryEvent σ)) :
    p.course P (events ++ rest) = p.course P events ++ (p.after P events).course P rest := by
  induction events generalizing p with
  | nil => rfl
  | cons event events ih =>
    rw [List.cons_append, course, course, ih, List.append_assoc]
    rfl

end

inductive Accepted (P : RetryProtocol ρ σ) (p : RetryProcedure ρ σ) :
    RetryEvent σ → RetryProcedure ρ σ → List Effect → Prop where
  | launched (hs : p.state = .created) :
      Accepted P p .launch p.launched (p.launched.sendRequest P)
  | succeeded (hs : p.state = .awaitingResponse) (response : σ) :
      Accepted P p (.reply (.success response))
        { p with state := .completed, outcome := some (.success response) }
        [.emit (.procedureSucceeded p.id)]
  | rejected (hs : p.state = .awaitingResponse) {r : Rejection} (hw : r.wait? = none) :
      Accepted P p (.reply (.failure r))
        { p with state := .completed, outcome := some (.failure (.rejected r)) }
        [.emit (.procedureRejected p.id r.describe)]
  | backedOff (hs : p.state = .awaitingResponse) {r : Rejection} {delay : Duration}
      (hw : r.wait? = some delay) (hb : p.attempts < p.maxRetries) :
      Accepted P p (.reply (.failure r)) (p.backedOff r) [.startTimer delay,
        .emit (.backoffStarted p.id (p.attempts + 1) (.ofNatClamp delay.millis))]
  | exhausted (hs : p.state = .awaitingResponse) {r : Rejection} {delay : Duration}
      (hw : r.wait? = some delay) (hb : ¬p.attempts < p.maxRetries) :
      Accepted P p (.reply (.failure r)) (p.exhausted r).1 (p.exhausted r).2
  | resent (hs : p.state = .backoff) (hb : p.attempts < p.maxRetries) :
      Accepted P p .timerFired p.resent (p.resent.sendRequest P)
  | cancelled (hs : p.isTerminal = false) :
      Accepted P p .cancel p.cancelled (p.release ++ [.emit (.procedureCancelled p.id)])

variable {P : RetryProtocol ρ σ} {p p' : RetryProcedure ρ σ} {event : RetryEvent σ}
  {fx : List Effect}

theorem Accepted.transition_eq (h : Accepted P p event p' fx) :
    p.transition P event = (p', fx) := by
  cases h with
  | launched hs => exact transition_launch P hs
  | succeeded hs response => exact transition_success P hs response
  | rejected hs hw => rw [transition_failure P hs, onFailure_final hw]
  | backedOff hs hw hb => rw [transition_failure P hs, onFailure_wait hw hb]
  | exhausted hs hw hb => rw [transition_failure P hs, onFailure_spent hw hb]
  | resent hs hb => exact transition_timerFired P hs hb
  | cancelled hs => exact transition_cancel P hs

theorem Accepted.state_ne (h : Accepted P p event p' fx) : p'.state ≠ p.state := by
  cases h with
  | launched hs => simp [RetryProcedure.launched, hs]
  | succeeded hs response => simp [hs]
  | rejected hs hw => simp [hs]
  | backedOff hs hw hb => simp [RetryProcedure.backedOff, hs]
  | exhausted hs hw hb => simp [RetryProcedure.exhausted, hs]
  | resent hs hb => simp [RetryProcedure.resent, hs]
  | cancelled hs =>
    intro hc
    have hs' : p.state = .cancelled := hc.symm
    simp [isTerminal, hs'] at hs

/-- The guards that a backoff passes once more when its timer fires hold all along. -/
theorem transition_cases (P : RetryProtocol ρ σ)
    (hb : p.state = .backoff → p.attempts < p.maxRetries) (event : RetryEvent σ) :
    p.transition P event = (p, []) ∨
      Accepted P p event (p.transition P event).1 (p.transition P event).2 := by
  have accepted {p' : RetryProcedure ρ σ} {fx : List Effect} (h : Accepted P p event p' fx) :
      Accepted P p event (p.transition P event).1 (p.transition P event).2 := by
    rw [h.transition_eq]
    exact h
  cases event with
  | launch =>
    by_cases hs : p.state = .created
    · exact .inr (accepted (.launched hs))
    · exact .inl (by cases h : p.state <;> simp_all [transition])
  | reply reply =>
    by_cases hs : p.state = .awaitingResponse
    · cases reply with
      | success response => exact .inr (accepted (.succeeded hs response))
      | failure r =>
        cases hw : r.wait? with
        | none => exact .inr (accepted (.rejected hs hw))
        | some delay =>
          by_cases hb : p.attempts < p.maxRetries
          · exact .inr (accepted (.backedOff hs hw hb))
          · exact .inr (accepted (.exhausted hs hw hb))
    · exact .inl (by cases h : p.state <;> simp_all [transition])
  | timerFired =>
    by_cases hs : p.state = .backoff
    · exact .inr (accepted (.resent hs (hb hs)))
    · exact .inl (by cases h : p.state <;> simp_all [transition])
  | cancel =>
    by_cases hs : p.isTerminal = false
    · exact .inr (accepted (.cancelled hs))
    · exact .inl (by cases h : p.state <;> simp_all [transition, isTerminal])

inductive Run (P : RetryProtocol ρ σ) (id : ProcedureId) (request : ProcedureRequest ρ) :
    List (Passage σ) → RetryProcedure ρ σ → Prop where
  | start : Run P id request [] (new id request)
  | snoc {passages : List (Passage σ)} {p p' : RetryProcedure ρ σ} {event : RetryEvent σ}
      {fx : List Effect} (h : Run P id request passages p) (ha : Accepted P p event p' fx) :
      Run P id request (passages ++ [⟨event, fx⟩]) p'

variable {id : ProcedureId} {request : ProcedureRequest ρ} {passages : List (Passage σ)}

theorem Run.static (h : Run P id request passages p) :
    p.entity = request.entity ∧ p.request = request.message ∧
      p.maxRetries = request.maxRetries := by
  induction h with
  | start => exact ⟨rfl, rfl, rfl⟩
  | @snoc _ p p' event fx _ ha ih =>
    obtain ⟨-, he, hr, hm⟩ := transition_static P p event
    rw [ha.transition_eq] at he hr hm
    exact ⟨he.trans ih.1, hr.trans ih.2.1, hm.trans ih.2.2⟩

/-- a procedure in a backoff has a retry left -/
theorem Run.backoff_lt (h : Run P id request passages p) (hs : p.state = .backoff) :
    p.attempts < p.maxRetries := by
  cases h with
  | start => simp [new] at hs
  | snoc _ ha =>
    cases ha with
    | backedOff _ _ hb => exact hb
    | _ => simp_all [launched, exhausted, resent, cancelled]

theorem Run.transition_cases (h : Run P id request passages p) (event : RetryEvent σ) :
    p.accepts P event = false ∧ p.transition P event = (p, []) ∨
      p.accepts P event = true ∧
        Accepted P p event (p.transition P event).1 (p.transition P event).2 := by
  rcases RetryProcedure.transition_cases P h.backoff_lt event with he | ha
  · exact .inl ⟨by simp [accepts, he], he⟩
  · exact .inr ⟨by simpa [accepts] using ha.state_ne, ha⟩

/-- the accepted events are a run, and account for everything that was asked for -/
theorem run_after (P : RetryProtocol ρ σ) (id : ProcedureId) (request : ProcedureRequest ρ)
    (events : List (RetryEvent σ)) :
    Run P id request ((new id request).course P events) ((new id request).after P events) ∧
      (new id request).effects P events =
        ((new id request).course P events).flatMap Passage.effects := by
  induction events using List.reverseRecOn with
  | nil => exact ⟨.start, rfl⟩
  | append_singleton events event ih =>
    obtain ⟨hrun, hfx⟩ := ih
    rw [course_append, after_append, effects_append, hfx]
    generalize (new id request).after P events = p at hrun ⊢
    simp only [course, after, effects, List.foldl_cons, List.foldl_nil, List.append_nil]
    rcases hrun.transition_cases event with ⟨ha, he⟩ | ⟨ha, hacc⟩
    · simpa [ha, he] using hrun
    · simp only [ha, ↓reduceIte, List.flatMap_append, List.flatMap_cons, List.flatMap_nil,
        List.append_nil, and_true]
      exact hrun.snoc hacc

/-- an event of a run was accepted by what the events before it had made of the procedure -/
theorem Run.split {before rest : List (Passage σ)} {x : Passage σ}
    (h : Run P id request (before ++ x :: rest) p) :
    ∃ q q', Run P id request before q ∧ Accepted P q x.event q' x.effects := by
  induction rest using List.reverseRecOn generalizing p with
  | nil =>
    generalize hp : before ++ [x] = passages at h
    cases h with
    | start => simp at hp
    | snoc h ha =>
      obtain ⟨rfl, rfl⟩ := List.append_singleton_inj.1 hp
      exact ⟨_, _, h, ha⟩
  | append_singleton rest y ih =>
    generalize hp : before ++ x :: (rest ++ [y]) = passages at h
    cases h with
    | start => simp at hp
    | snoc h ha =>
      rw [← List.cons_append, ← List.append_assoc] at hp
      obtain ⟨rfl, rfl⟩ := List.append_singleton_inj.1 hp
      exact ih h

theorem Run.accepted_of_mem (h : Run P id request passages p) {x : Passage σ}
    (hx : x ∈ passages) : ∃ before q q', Run P id request before q ∧
      Accepted P q x.event q' x.effects := by
  obtain ⟨before, rest, rfl⟩ := List.append_of_mem hx
  obtain ⟨q, q', hq, ha⟩ := h.split
  exact ⟨before, q, q', hq, ha⟩

end RetryProcedure

end NgapProcedures
