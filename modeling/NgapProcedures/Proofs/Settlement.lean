import NgapProcedures.Proofs.Retry.Budget

/-! How machines end. A retry procedure and a connection get an outcome once, with their end, and no
event changes anything of them after that. Up to then a retry procedure keeps to its budget, and in a
backoff it still has the retry that the end of the wait makes. -/

namespace NgapProcedures

namespace RetryProcedure

variable {ρ σ : Type} {P : RetryProtocol ρ σ} {p p' : RetryProcedure ρ σ} {event : RetryEvent σ}
  {fx : List Effect} {id : ProcedureId} {request : ProcedureRequest ρ}
  {passages : List (Passage σ)}

theorem isTerminal_iff : p.isTerminal = true ↔ p.state = .completed ∨ p.state = .cancelled := by
  cases hs : p.state <;> simp [isTerminal, hs]

/-- nothing is accepted by a procedure that has ended -/
theorem Accepted.not_isTerminal (ha : Accepted P p event p' fx) : p.isTerminal = false := by
  cases ha with
  | cancelled hs => exact hs
  | _ => simp [isTerminal, *]

structure Consistent (p : RetryProcedure ρ σ) : Prop where
  within : p.attempts ≤ p.maxRetries
  decided_iff : p.outcome.isSome = true ↔ p.state = .completed ∨ p.state = .cancelled
  cancelled_iff : p.outcome = some .cancelled ↔ p.state = .cancelled

theorem Consistent.undecided (h : p.Consistent) (hs : p.isTerminal = false) :
    p.outcome = none := by
  have hdecided := h.decided_iff
  rw [← isTerminal_iff, hs] at hdecided
  simpa using hdecided

theorem Consistent.of_undecided (ho : p.outcome = none) (hs : p.isTerminal = false)
    (hb : p.attempts ≤ p.maxRetries) : p.Consistent := by
  refine ⟨hb, ?_, ?_⟩
  · rw [← isTerminal_iff, hs, ho]
    simp
  · cases hstate : p.state <;> simp_all [isTerminal]

theorem Consistent.of_completed {outcome : RetryOutcome σ} (hs : p.state = .completed)
    (ho : p.outcome = some outcome) (hu : outcome ≠ .cancelled) (hb : p.attempts ≤ p.maxRetries) :
    p.Consistent :=
  ⟨hb, by simp [hs, ho], by simp [hs, ho, hu]⟩

theorem consistent_new (id : ProcedureId) (request : ProcedureRequest ρ) :
    (new id request : RetryProcedure ρ σ).Consistent :=
  .of_undecided rfl rfl (UInt32.le_iff_toNat_le.2 (Nat.zero_le _))

theorem Consistent.accepted (h : p.Consistent) (ha : Accepted P p event p' fx) :
    p'.Consistent := by
  have hopen : p.outcome = none := h.undecided ha.not_isTerminal
  cases ha with
  | launched hs => exact .of_undecided hopen rfl h.within
  | succeeded hs response => exact .of_completed rfl rfl (by simp) h.within
  | rejected hs hw => exact .of_completed rfl rfl (by simp) h.within
  | backedOff hs hw hb => exact .of_undecided hopen rfl h.within
  | exhausted hs hw hb => exact .of_completed rfl rfl (by simp) h.within
  | resent hs hb =>
    have hresent := suspended_resent ⟨hopen, h.within, .inr ⟨hs, hb⟩⟩ hb
    exact .of_undecided hresent.undecided rfl hresent.budget
  | cancelled hs => exact ⟨h.within, by simp [RetryProcedure.cancelled], by
      simp [RetryProcedure.cancelled]⟩

theorem Run.consistent (h : Run P id request passages p) : p.Consistent := by
  induction h with
  | start => exact consistent_new id request
  | snoc _ ha ih => exact ih.accepted ha

theorem Run.id_eq (h : Run P id request passages p) : p.id = id := by
  induction h with
  | start => rfl
  | @snoc _ p p' event fx _ ha ih =>
    obtain ⟨hid, -⟩ := transition_static P p event
    rw [ha.transition_eq] at hid
    exact hid.trans ih

/-- A backoff began with a rejection that imposed a wait, and nothing has been accepted since. -/
theorem Run.begun (h : Run P id request passages p) (hs : p.state = .backoff) :
    ∃ before r delay fx, passages = before ++ [⟨.reply (.failure r), fx⟩] ∧
      r.wait? = some delay ∧ .startTimer delay ∈ fx ∧ p.lastFailure = some r := by
  cases h with
  | start => simp [new] at hs
  | snoc h ha =>
    cases ha with
    | backedOff hs' hw hb => exact ⟨_, _, _, _, rfl, hw, by simp, rfl⟩
    | _ => simp_all [RetryProcedure.launched, RetryProcedure.exhausted, RetryProcedure.resent,
        RetryProcedure.cancelled]

/-- what holds of a procedure `q` that `p` has become by the events it accepted -/
structure SettlesOnce (P : RetryProtocol ρ σ) (p : RetryProcedure ρ σ)
    (accepted : List (Passage σ)) (q : RetryProcedure ρ σ) : Prop where
  within : q.attempts ≤ q.maxRetries
  /-- a backoff has a retry left, and remembers the rejection that it began with -/
  backoff : q.state = .backoff → q.attempts < q.maxRetries ∧
    ∃ r delay fx, q.lastFailure = some r ∧ r.wait? = some delay ∧
      accepted.getLast? = some ⟨.reply (.failure r), fx⟩ ∧ .startTimer delay ∈ fx
  /-- at the end of the wait the procedure sends again, it never gives up there -/
  resends : q.state = .backoff → q.transition P .timerFired = (q.resent, q.resent.sendRequest P)
  decided_iff : q.outcome.isSome = true ↔ q.state = .completed ∨ q.state = .cancelled
  cancelled_iff : q.outcome = some .cancelled ↔ q.state = .cancelled
  /-- an end is final -/
  final : q.state = .completed ∨ q.state = .cancelled →
    ∀ event, q.transition P event = (q, [])
  static : q.id = p.id ∧ q.entity = p.entity ∧ q.request = p.request ∧ q.maxRetries = p.maxRetries

theorem Run.settlesOnce (h : Run P id request passages p) :
    SettlesOnce P (new id request) passages p where
  within := h.consistent.within
  backoff hs := by
    obtain ⟨before, r, delay, fx, rfl, hw, hfx, hl⟩ := h.begun hs
    exact ⟨h.backoff_lt hs, r, delay, fx, hl, hw, List.getLast?_concat, hfx⟩
  resends hs := transition_timerFired P hs (h.backoff_lt hs)
  decided_iff := h.consistent.decided_iff
  cancelled_iff := h.consistent.cancelled_iff
  final hs := transition_terminal P (isTerminal_iff.2 hs)
  static := ⟨h.id_eq, h.static⟩

end RetryProcedure

namespace AmfConnection

def after (c : AmfConnection) (events : List ConnectionEvent) : AmfConnection :=
  events.foldl (fun c event => (c.transition event).1) c

def effects (c : AmfConnection) : List ConnectionEvent → List Effect
  | [] => []
  | event :: rest => (c.transition event).2 ++ effects (c.transition event).1 rest

inductive Accepted (c : AmfConnection) : ConnectionEvent → AmfConnection → List Effect → Prop where
  | launched (hs : c.state = .created) : Accepted c .launch c.launched []
  | settled (hs : c.state = .awaitingSetup) (outcome : RetryOutcome NgSetupResponse) :
      Accepted c (.setupSettled outcome)
        { c with state := .completed, outcome := some (outcomeOf outcome) }
        [.emit (announcement c.amf outcome)]
  | cancelled (hs : c.isTerminal = false) :
      Accepted c .cancel c.cancelled [.cancelProcedure c.setup, .emit (.procedureCancelled c.id)]

variable {c q q' : AmfConnection} {event : ConnectionEvent} {fx fx' : List Effect}

theorem Accepted.transition_eq (h : Accepted c event q fx) : c.transition event = (q, fx) := by
  cases h with
  | launched hs => simp [transition, hs, AmfConnection.launched]
  | settled hs outcome => exact transition_setupSettled hs outcome
  | cancelled hs => exact transition_cancel hs

theorem transition_cases (c : AmfConnection) (event : ConnectionEvent) :
    c.transition event = (c, []) ∨
      Accepted c event (c.transition event).1 (c.transition event).2 := by
  have accepted {q : AmfConnection} {fx : List Effect} (h : Accepted c event q fx) :
      Accepted c event (c.transition event).1 (c.transition event).2 := by
    rw [h.transition_eq]
    exact h
  cases event with
  | launch =>
    by_cases hs : c.state = .created
    · exact .inr (accepted (.launched hs))
    · exact .inl (by cases h : c.state <;> simp_all [transition])
  | setupSettled outcome =>
    by_cases hs : c.state = .awaitingSetup
    · exact .inr (accepted (.settled hs outcome))
    · exact .inl (by cases h : c.state <;> simp_all [transition])
  | cancel =>
    by_cases hs : c.isTerminal = false
    · exact .inr (accepted (.cancelled hs))
    · exact .inl (by cases h : c.state <;> simp_all [transition, isTerminal])

theorem isTerminal_iff : c.isTerminal = true ↔ c.state = .completed ∨ c.state = .cancelled := by
  cases hs : c.state <;> simp [isTerminal, hs]

theorem transition_terminal (h : c.isTerminal = true) (event : ConnectionEvent) :
    c.transition event = (c, []) := by
  cases hs : c.state <;> simp_all [isTerminal, transition]

/-- the cancellations of procedures that are asked for -/
def cancellations (fx : List Effect) : List Effect :=
  fx.filter fun effect => effect matches .cancelProcedure _

structure SettlesOnce (c q : AmfConnection) (fx : List Effect) : Prop where
  decided_iff : q.outcome.isSome = true ↔ q.state = .completed ∨ q.state = .cancelled
  cancelled_iff : q.outcome = some .cancelled ↔ q.state = .cancelled
  /-- an end is final -/
  final : q.state = .completed ∨ q.state = .cancelled → ∀ event, q.transition event = (q, [])
  static : q.id = c.id ∧ q.entity = c.entity ∧ q.amf = c.amf ∧ q.setup = c.setup
  /-- with its own cancellation it asks for that of its setup, and it never asks for another -/
  cancels : cancellations fx = if q.state = .cancelled then [.cancelProcedure c.setup] else []

theorem settlesOnce_new (id setup : ProcedureId) (controller amf : EntityId) :
    let c : AmfConnection := ⟨id, controller, amf, setup, .created, none⟩
    SettlesOnce c c [] := by
  intro c
  constructor
  case decided_iff => simp [c]
  case cancelled_iff => simp [c]
  case final => simp [c]
  case static => exact ⟨rfl, rfl, rfl, rfl⟩
  case cancels => simp [c, cancellations]

theorem SettlesOnce.accepted (h : SettlesOnce c q fx) (ha : Accepted q event q' fx') :
    SettlesOnce c q' (fx ++ fx') := by
  have hcancels : cancellations (fx ++ fx') = cancellations fx ++ cancellations fx' :=
    List.filter_append ..
  cases ha with
  | launched hs =>
    have ho : q.outcome = none := by simpa [hs] using h.decided_iff
    have hquiet : cancellations fx = [] := by simpa [hs] using h.cancels
    constructor
    case decided_iff => simp [AmfConnection.launched, ho]
    case cancelled_iff => simp [AmfConnection.launched, ho]
    case final => simp [AmfConnection.launched]
    case static => exact h.static
    case cancels => simpa [AmfConnection.launched] using hquiet
  | settled hs outcome =>
    have hquiet : cancellations fx = [] := by simpa [hs] using h.cancels
    constructor
    case decided_iff => simp
    case cancelled_iff => simp [outcomeOf_ne_cancelled]
    case final => exact fun _ => transition_terminal rfl
    case static => exact h.static
    case cancels =>
      rw [hcancels, hquiet]
      simp [cancellations]
  | cancelled hs =>
    have hopen : q.state ≠ .cancelled := fun he => by simp [isTerminal, he] at hs
    have hquiet : cancellations fx = [] := by simpa [hopen] using h.cancels
    constructor
    case decided_iff => simp [AmfConnection.cancelled]
    case cancelled_iff => simp [AmfConnection.cancelled]
    case final => exact fun _ => transition_terminal rfl
    case static => exact h.static
    case cancels =>
      rw [hcancels, hquiet]
      simp [cancellations, AmfConnection.cancelled, h.static.2.2.2]

theorem SettlesOnce.after (h : SettlesOnce c q fx) (events : List ConnectionEvent) :
    SettlesOnce c (q.after events) (fx ++ q.effects events) := by
  induction events generalizing q fx with
  | nil => simpa [AmfConnection.after, effects] using h
  | cons event rest ih =>
    rw [effects, ← List.append_assoc]
    apply ih
    rcases q.transition_cases event with he | ha
    · simpa [he] using h
    · exact h.accepted ha

end AmfConnection

/-- Retry procedures, of any exchange, and connections settle once. After any events a procedure has
not retried more often than it may; in a backoff it has a retry left and remembers the rejection that
the backoff began with, so that the end of the wait always sends again. Each machine has an outcome
when it has ended and not before, that of a cancellation when it was cancelled and not else. Once it
has ended no event changes it or makes it ask for anything, and what it was launched with never
changes. A connection asks for the cancellation of its own setup when it is cancelled, once, and for
that of no other procedure. -/
theorem settles_once :
    (∀ {ρ σ : Type} (P : RetryProtocol ρ σ) (id : ProcedureId) (request : ProcedureRequest ρ)
      (events : List (RetryEvent σ)),
      let p : RetryProcedure ρ σ := .new id request
      p.SettlesOnce P (p.course P events) (p.after P events)) ∧
    ∀ (id setup : ProcedureId) (controller amf : EntityId) (events : List ConnectionEvent),
      let c : AmfConnection := ⟨id, controller, amf, setup, .created, none⟩
      c.SettlesOnce (c.after events) (c.effects events) := by
  constructor
  · intro ρ σ P id request events
    exact (RetryProcedure.run_after P id request events).1.settlesOnce
  · intro id setup controller amf events
    exact (AmfConnection.settlesOnce_new id setup controller amf).after events

end NgapProcedures
