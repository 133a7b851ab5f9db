import NgapProcedures.Proofs.Retry.Course

/-! What a reply makes of a machine that awaits one. It is the end of the machine, with an outcome and
an event that tells of it, or the machine backs off. -/

namespace NgapProcedures

def Event.subject? : Event → Option ProcedureId
  | procedureLaunched id .. | requestSent id _ | backoffStarted id .. | procedureSucceeded id
  | procedureRejected id _ | retriesExhausted id _ | procedureCancelled id => some id
  | amfConnected .. | amfConnectionFailed .. | transactionsLost _ => none

namespace Outcome

variable {σ : Type}

def plain : Outcome σ RetryFailure → Outcome Unit RetryFailure
  | success _ => success ()
  | failure f => failure f
  | cancelled => cancelled

/-- the last event that tells of a retry procedure with such an outcome -/
def farewell (outcome : Outcome σ RetryFailure) (id : ProcedureId) : Event :=
  match outcome with
  | success _ => .procedureSucceeded id
  | failure (.rejected r) => .procedureRejected id r.describe
  | failure (.retriesExhausted _ attempts) => .retriesExhausted id attempts
  | cancelled => .procedureCancelled id

theorem subject?_farewell (outcome : Outcome σ RetryFailure) (id : ProcedureId) :
    (outcome.farewell id).subject? = some id := by
  rcases outcome with _ | (_ | _) | _ <;> rfl

end Outcome

def Result.retryOutcome? : Result → Option (RetryOutcome Unit)
  | setup outcome => some outcome.plain
  | update outcome => some outcome.plain
  | connection _ => none

/-- The outcome that a reply leads to, a rejection or not, after so many requests; none if there is to
be another request. -/
def verdict? (rejection : Option Rejection) (retries : Bool) (transmissions : UInt32) :
    Option (RetryOutcome Unit) :=
  match rejection with
  | none => some (.success ())
  | some r =>
    match r.wait? with
    | none => some (.failure (.rejected r))
    | some _ => if retries then none else some (.failure (.retriesExhausted r transmissions))

theorem verdict?_eq_none_iff {rejection : Option Rejection} {retries : Bool}
    {transmissions : UInt32} : verdict? rejection retries transmissions = none ↔
      ∃ r delay, rejection = some r ∧ r.wait? = some delay ∧ retries = true := by
  unfold verdict?
  cases rejection with
  | none => simp
  | some r => cases hw : r.wait? <;> cases retries <;> simp [hw]

/-- Retries that are exhausted were so by a rejection with a wait. -/
theorem verdict?_exhausted {rejection : Option Rejection} {retries : Bool} {transmissions : UInt32}
    {outcome : RetryOutcome Unit} (h : verdict? rejection retries transmissions = some outcome) :
    outcome ≠ .cancelled ∧
    ((∀ last attempts, outcome ≠ .failure (.retriesExhausted last attempts)) ∧
      rejection.bind Rejection.wait? = none ∨
    ∃ last delay, outcome = .failure (.retriesExhausted last transmissions) ∧
      rejection = some last ∧ last.wait? = some delay ∧ retries = false) := by
  unfold verdict? at h
  cases rejection with
  | none =>
    obtain rfl := Option.some.inj h
    simp
  | some r =>
    cases hw : r.wait? with
    | none =>
      obtain rfl : _ = outcome := by simpa [hw] using h
      simp [hw]
    | some delay =>
      simp only [hw] at h
      split at h
      · simp at h
      · next hb =>
        obtain rfl := Option.some.inj h
        exact ⟨by simp, .inr ⟨r, delay, rfl, rfl, hw, by simpa using hb⟩⟩

theorem RetryProcedure.transition_verdict {ρ σ : Type} (P : RetryProtocol ρ σ)
    {p : RetryProcedure ρ σ} (h : p.state = .awaitingResponse) {reply : Reply σ}
    {outcome : RetryOutcome Unit} (hv : verdict? (RetryEvent.reply reply).rejection?
      (p.attempts < p.maxRetries) p.transmissions = some outcome) :
    ∃ p' o, p.transition P (.reply reply) = (p', [.emit (outcome.farewell p.id)]) ∧
      p'.state = .completed ∧ p'.outcome = some o ∧ o.plain = outcome := by
  cases reply with
  | success response =>
    obtain rfl := Option.some.inj hv
    exact ⟨_, _, transition_success P h response, rfl, rfl, rfl⟩
  | failure r =>
    rw [transition_failure P h]
    simp only [verdict?, RetryEvent.rejection?] at hv
    cases hw : r.wait? with
    | none =>
      obtain rfl : _ = outcome := by simpa [hw] using hv
      exact ⟨_, _, onFailure_final hw, rfl, rfl, rfl⟩
    | some delay =>
      by_cases hb : p.attempts < p.maxRetries
      · simp [hw, hb] at hv
      · obtain rfl : _ = outcome := by simpa [hw, hb] using hv
        exact ⟨_, _, onFailure_spent hw hb, rfl, rfl, rfl⟩

namespace Machine

def verdict? (m : Machine) (pdu : Pdu) : Option (RetryOutcome Unit) :=
  NgapProcedures.verdict? (m.rejection? pdu) m.retries m.transmissions

/-- a message that a machine expects is its end, told as its outcome tells, unless it backs off -/
theorem resume_verdict {m : Machine} {pdu : Pdu} (hx : m.expects (.message pdu) = true)
    {outcome : RetryOutcome Unit} (hv : m.verdict? pdu = some outcome) (results : Results) :
    ∃ m' r, m.resume results (.message pdu) = some (m', [.emit (outcome.farewell m.id)]) ∧
      m'.Completed r ∧ r.retryOutcome? = some outcome := by
  rcases expects_message_cases hx with ⟨p, reply, rfl, hs, hreply⟩ | ⟨p, reply, rfl, hs, hreply⟩
  · have hr : (setup p).rejection? pdu = (RetryEvent.reply reply).rejection? := by
      cases reply <;> simp [rejection?, hreply, RetryEvent.rejection?]
    rw [verdict?, hr] at hv
    obtain ⟨p', o, ht, hc, ho, rfl⟩ := p.transition_verdict ngSetup hs hv
    exact ⟨_, _, by simp [resume, RetryProtocol.eventOf, hreply, ht, id], completed_setup hc ho, rfl⟩
  · have hr : (update p).rejection? pdu = (RetryEvent.reply reply).rejection? := by
      cases reply <;> simp [rejection?, hreply, RetryEvent.rejection?]
    rw [verdict?, hr] at hv
    obtain ⟨p', o, ht, hc, ho, rfl⟩ := p.transition_verdict ranConfigurationUpdate hs hv
    exact ⟨_, _, by simp [resume, RetryProtocol.eventOf, hreply, ht, id], completed_update hc ho,
      rfl⟩

end Machine

end NgapProcedures
