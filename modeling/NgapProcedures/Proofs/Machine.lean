import NgapProcedures.Engine.Task

/-! What each wake makes of a machine that is suspended. A suspended machine waits for a reply, a
timer or its setup, has no outcome yet, and in a backoff has a retry left. -/

namespace NgapProcedures

def Effect.message? : Effect → Option PeerMessage
  | send message => some message
  | _ => none

def Event.announced? : Event → Option EntityId
  | amfConnected entity _ | amfConnectionFailed entity _ => some entity
  | _ => none

def Result.kind : Result → Kind
  | setup _ => .ngSetup
  | update _ => .ranConfigurationUpdate
  | connection _ => .amfConnection

namespace RetryProcedure

variable {ρ σ : Type}

structure Suspended (p : RetryProcedure ρ σ) : Prop where
  undecided : p.outcome = none
  budget : p.attempts ≤ p.maxRetries
  parked : p.state = .awaitingResponse ∨ p.state = .backoff ∧ p.attempts < p.maxRetries

def launched (p : RetryProcedure ρ σ) : RetryProcedure ρ σ :=
  { p with state := .awaitingResponse, transmissions := 1 }

def resent (p : RetryProcedure ρ σ) : RetryProcedure ρ σ :=
  { p with
    state := .awaitingResponse
    attempts := p.attempts + 1
    transmissions := p.transmissions + 1
    panic? := if p.transmissions.toNat + 1 < UInt32.size then p.panic? else some .addOverflow }

def backedOff (p : RetryProcedure ρ σ) (r : Rejection) : RetryProcedure ρ σ :=
  { p with state := .backoff, lastFailure := some r }

def cancelled (p : RetryProcedure ρ σ) : RetryProcedure ρ σ :=
  { p with state := .cancelled, outcome := some .cancelled }

def release (p : RetryProcedure ρ σ) : List Effect :=
  if p.state = .backoff then [.cancelTimer] else []

theorem transition_launch {p : RetryProcedure ρ σ} (P : RetryProtocol ρ σ)
    (h : p.state = .created) :
    p.transition P .launch = (p.launched, p.launched.sendRequest P) := by
  simp [transition, h, launched]

theorem transition_timerFired {p : RetryProcedure ρ σ} (P : RetryProtocol ρ σ)
    (h : p.state = .backoff) (hb : p.attempts < p.maxRetries) :
    p.transition P .timerFired = (p.resent, p.resent.sendRequest P) := by
  by_cases hr : p.transmissions.toNat + 1 < UInt32.size <;> simp [transition, h, hb, resent, hr]

theorem transition_cancel {p : RetryProcedure ρ σ} (P : RetryProtocol ρ σ)
    (h : p.isTerminal = false) :
    p.transition P .cancel = (p.cancelled, p.release ++ [.emit (.procedureCancelled p.id)]) := by
  cases hs : p.state <;> simp_all [transition, isTerminal, cancelled, release]

theorem transition_success {p : RetryProcedure ρ σ} (P : RetryProtocol ρ σ)
    (h : p.state = .awaitingResponse) (response : σ) :
    p.transition P (.reply (.success response)) =
      ({ p with state := .completed, outcome := some (.success response) },
        [.emit (.procedureSucceeded p.id)]) := by
  simp [transition, h]

theorem transition_failure {p : RetryProcedure ρ σ} (P : RetryProtocol ρ σ)
    (h : p.state = .awaitingResponse) (r : Rejection) :
    p.transition P (.reply (.failure r)) = p.onFailure r := by
  simp [transition, h]

theorem onFailure_final {p : RetryProcedure ρ σ} {r : Rejection} (h : r.wait? = none) :
    p.onFailure r = ({ p with state := .completed, outcome := some (.failure (.rejected r)) },
      [.emit (.procedureRejected p.id r.describe)]) := by
  simp [onFailure, h]

theorem onFailure_spent {p : RetryProcedure ρ σ} {r : Rejection} {delay : Duration}
    (h : r.wait? = some delay) (hb : ¬p.attempts < p.maxRetries) :
    p.onFailure r = p.exhausted r := by
  simp [onFailure, h, UInt32.not_lt.1 hb]

theorem onFailure_wait {p : RetryProcedure ρ σ} {r : Rejection} {delay : Duration}
    (h : r.wait? = some delay) (hb : p.attempts < p.maxRetries) :
    p.onFailure r = (p.backedOff r, [.startTimer delay,
      .emit (.backoffStarted p.id (p.attempts + 1) (.ofNatClamp delay.millis))]) := by
  simp [onFailure, h, UInt32.not_le.2 hb, backedOff]

/-- a reply ends the exchange, or it is a rejection with a wait and there is a retry left -/
theorem transition_reply_cases (P : RetryProtocol ρ σ) {p : RetryProcedure ρ σ}
    (h : p.state = .awaitingResponse) (reply : Reply σ) :
    (∃ p' event outcome, p.transition P (.reply reply) = (p', [.emit event]) ∧
      p'.state = .completed ∧ p'.outcome = some outcome ∧ outcome.isCancelled = false ∧
      event.announced? = none) ∨
    ∃ r delay, reply = .failure r ∧ r.wait? = some delay ∧ p.attempts < p.maxRetries := by
  cases reply with
  | success response =>
    exact .inl ⟨_, _, _, transition_success P h response, rfl, rfl, rfl, rfl⟩
  | failure r =>
    rw [transition_failure P h]
    cases hw : r.wait? with
    | none => exact .inl ⟨_, _, _, onFailure_final hw, rfl, rfl, rfl, rfl⟩
    | some delay =>
      by_cases hb : p.attempts < p.maxRetries
      · exact .inr ⟨r, delay, rfl, hw, hb⟩
      · exact .inl ⟨_, _, _, onFailure_spent hw hb, rfl, rfl, rfl, rfl⟩

/-- no event changes what a procedure was launched with -/
theorem transition_static (P : RetryProtocol ρ σ) (p : RetryProcedure ρ σ)
    (event : RetryEvent σ) :
    (p.transition P event).1.id = p.id ∧ (p.transition P event).1.entity = p.entity ∧
      (p.transition P event).1.request = p.request ∧
      (p.transition P event).1.maxRetries = p.maxRetries := by
  unfold transition
  split
  all_goals try exact ⟨rfl, rfl, rfl, rfl⟩
  · unfold onFailure
    split
    · exact ⟨rfl, rfl, rfl, rfl⟩
    · split <;> exact ⟨rfl, rfl, rfl, rfl⟩
  · split
    · dsimp only
      split <;> exact ⟨rfl, rfl, rfl, rfl⟩
    · split <;> exact ⟨rfl, rfl, rfl, rfl⟩

theorem waitingFor_eq_response_iff {p : RetryProcedure ρ σ} :
    p.waitingFor = .response ↔ p.state = .awaitingResponse := by
  unfold waitingFor
  cases p.state <;> simp

theorem waitingFor_eq_timer_iff {p : RetryProcedure ρ σ} :
    p.waitingFor = .timer ↔ p.state = .backoff := by
  unfold waitingFor
  cases p.state <;> simp

theorem waitingFor_ne_procedure (p : RetryProcedure ρ σ) (id : ProcedureId) :
    p.waitingFor ≠ .procedure id := by
  unfold waitingFor
  cases p.state <;> simp

theorem suspended_launched {p : RetryProcedure ρ σ} (ho : p.outcome = none)
    (ha : p.attempts = 0) : p.launched.Suspended :=
  ⟨ho, by simp [launched, ha], .inl rfl⟩

/-- a retry that is left is one that 32 bits can count -/
theorem toNat_attempts_resent {p : RetryProcedure ρ σ} (h : p.attempts < p.maxRetries) :
    p.resent.attempts.toNat = p.attempts.toNat + 1 := by
  have hlt := UInt32.lt_iff_toNat_lt.1 h
  have hmax := p.maxRetries.toNat_lt
  rw [resent, UInt32.toNat_add, UInt32.toNat_one, Nat.mod_eq_of_lt (by omega)]

theorem suspended_resent {p : RetryProcedure ρ σ} (h : p.Suspended)
    (hb : p.attempts < p.maxRetries) : p.resent.Suspended := by
  refine ⟨h.undecided, ?_, .inl rfl⟩
  rw [UInt32.le_iff_toNat_le, toNat_attempts_resent hb]
  exact UInt32.lt_iff_toNat_lt.1 hb

theorem suspended_backedOff {p : RetryProcedure ρ σ} (h : p.Suspended) (r : Rejection)
    (hb : p.attempts < p.maxRetries) : (p.backedOff r).Suspended :=
  ⟨h.undecided, h.budget, .inr ⟨rfl, hb⟩⟩

theorem Suspended.isTerminal {p : RetryProcedure ρ σ} (h : p.Suspended) :
    p.isTerminal = false := by
  rcases h.parked with hs | ⟨hs, -⟩ <;> simp [RetryProcedure.isTerminal, hs]

end RetryProcedure

namespace AmfConnection

def launched (c : AmfConnection) : AmfConnection := { c with state := .awaitingSetup }

def cancelled (c : AmfConnection) : AmfConnection :=
  { c with state := .cancelled, outcome := some .cancelled }

theorem transition_cancel {c : AmfConnection} (h : c.isTerminal = false) :
    c.transition .cancel =
      (c.cancelled, [.cancelProcedure c.setup, .emit (.procedureCancelled c.id)]) := by
  cases hs : c.state <;> simp_all [transition, isTerminal, cancelled]

/-- the one event that tells what became of the AMF -/
def announcement (amf : EntityId) : RetryOutcome NgSetupResponse → Event
  | .success response => .amfConnected amf response.amfName
  | .failure failure => .amfConnectionFailed amf (ConnectionFailure.setup failure).message
  | .cancelled => .amfConnectionFailed amf ConnectionFailure.setupCancelled.message

theorem transition_setupSettled {c : AmfConnection} (h : c.state = .awaitingSetup)
    (outcome : RetryOutcome NgSetupResponse) :
    c.transition (.setupSettled outcome) =
      ({ c with state := .completed, outcome := some (outcomeOf outcome) },
        [.emit (announcement c.amf outcome)]) := by
  cases outcome <;> simp [transition, h, report, outcomeOf, announcement]

/-- the end of a setup is never a cancellation of the connection -/
theorem outcomeOf_ne_cancelled (outcome : RetryOutcome NgSetupResponse) :
    outcomeOf outcome ≠ .cancelled := by
  cases outcome <;> simp [outcomeOf]

theorem transition_static (c : AmfConnection) (event : ConnectionEvent) :
    (c.transition event).1.id = c.id ∧ (c.transition event).1.entity = c.entity ∧
      (c.transition event).1.setup = c.setup := by
  unfold transition
  split <;> exact ⟨rfl, rfl, rfl⟩

theorem waitingFor_eq_procedure_iff {c : AmfConnection} {id : ProcedureId} :
    c.waitingFor = .procedure id ↔ c.state = .awaitingSetup ∧ c.setup = id := by
  unfold waitingFor
  cases c.state <;> simp

end AmfConnection

namespace Machine

def Suspended : Machine → Prop
  | setup p => p.Suspended
  | update p => p.Suspended
  | connection c _ => c.state = .awaitingSetup ∧ c.outcome = none

/-- the message that a retry procedure sends on every attempt -/
def request? : Machine → Option PeerMessage
  | setup p => some ⟨p.entity, ngSetup.requestPdu p.request⟩
  | update p => some ⟨p.entity, ranConfigurationUpdate.requestPdu p.request⟩
  | connection .. => none

def transmissions : Machine → UInt32
  | setup p => p.transmissions
  | update p => p.transmissions
  | connection .. => 0

/-- whether a rejection with a wait would start a backoff -/
def retries : Machine → Bool
  | setup p => p.attempts < p.maxRetries
  | update p => p.attempts < p.maxRetries
  | connection .. => false

/-- the rejection that a message is to the machine -/
def rejection? : Machine → Pdu → Option Rejection
  | setup _, pdu => match ngSetup.reply? pdu with
    | some (.failure r) => some r
    | _ => none
  | update _, pdu => match ranConfigurationUpdate.reply? pdu with
    | some (.failure r) => some r
    | _ => none
  | connection .., _ => none

/-- number of the retry that a backoff would lead to -/
def nextAttempt : Machine → UInt32
  | setup p => p.attempts + 1
  | update p => p.attempts + 1
  | connection .. => 0

def launched : Machine → Machine
  | setup p => setup p.launched
  | update p => update p.launched
  | connection c slot => connection c.launched slot

def resent : Machine → Machine
  | setup p => setup p.resent
  | update p => update p.resent
  | connection c slot => connection c slot

def backedOff (m : Machine) (r : Rejection) : Machine :=
  match m with
  | setup p => setup (p.backedOff r)
  | update p => update (p.backedOff r)
  | connection c slot => connection c slot

def cancelled : Machine → Machine
  | setup p => setup p.cancelled
  | update p => update p.cancelled
  | connection c slot => connection c.cancelled slot

/-- what a cancelled machine asks for before it reports its end -/
def release : Machine → List Effect
  | setup p => p.release
  | update p => p.release
  | connection c _ => [.cancelProcedure c.setup]

/-- the result of a cancelled machine -/
def cancellation : Machine → Result
  | setup _ => .setup .cancelled
  | update _ => .update .cancelled
  | connection .. => .connection .cancelled

structure Completed (m : Machine) (r : Result) : Prop where
  terminal : m.isTerminal = true
  uncancelled : m.isCancelled = false
  result : m.result? = some r

theorem Suspended.isTerminal {m : Machine} (h : m.Suspended) : m.isTerminal = false := by
  cases m with
  | setup p => exact RetryProcedure.Suspended.isTerminal h
  | update p => exact RetryProcedure.Suspended.isTerminal h
  | connection c slot => simp [Machine.isTerminal, AmfConnection.isTerminal, h.1]

theorem Suspended.result? {m : Machine} (h : m.Suspended) : m.result? = none := by
  cases m with
  | setup p => simp [Machine.result?, h.undecided]
  | update p => simp [Machine.result?, h.undecided]
  | connection c slot => simp [Machine.result?, h.2]

theorem Suspended.resent {m : Machine} (h : m.Suspended) (hw : m.waitingFor = .timer) :
    m.resent.Suspended := by
  cases m with
  | setup p =>
    have hs := RetryProcedure.waitingFor_eq_timer_iff.1 hw
    exact RetryProcedure.suspended_resent h (by simpa [hs] using h.parked)
  | update p =>
    have hs := RetryProcedure.waitingFor_eq_timer_iff.1 hw
    exact RetryProcedure.suspended_resent h (by simpa [hs] using h.parked)
  | connection c slot => exact h

theorem Suspended.backedOff {m : Machine} (h : m.Suspended) (r : Rejection)
    (hb : m.retries = true) : (m.backedOff r).Suspended := by
  cases m with
  | setup p => exact RetryProcedure.suspended_backedOff h r (by simpa [retries] using hb)
  | update p => exact RetryProcedure.suspended_backedOff h r (by simpa [retries] using hb)
  | connection c slot => exact h

/-- what a machine was launched with stays through its waits -/
theorem static_launched (m : Machine) :
    m.launched.id = m.id ∧ m.launched.entity = m.entity ∧ m.launched.kind = m.kind := by
  cases m <;> exact ⟨rfl, rfl, rfl⟩

theorem static_resent (m : Machine) :
    m.resent.id = m.id ∧ m.resent.entity = m.entity ∧ m.resent.kind = m.kind := by
  cases m <;> exact ⟨rfl, rfl, rfl⟩

theorem static_backedOff (m : Machine) (r : Rejection) : (m.backedOff r).id = m.id ∧
    (m.backedOff r).entity = m.entity ∧ (m.backedOff r).kind = m.kind := by
  cases m <;> exact ⟨rfl, rfl, rfl⟩

theorem request?_of_retries {m : Machine} (h : m.retries = true) :
    ∃ message, m.request? = some message ∧ message.entity = m.entity := by
  cases m with
  | setup p => exact ⟨_, rfl, rfl⟩
  | update p => exact ⟨_, rfl, rfl⟩
  | connection c slot => simp [retries] at h

theorem request?_launched (m : Machine) : m.launched.request? = m.request? := by
  cases m <;> rfl

theorem request?_resent (m : Machine) : m.resent.request? = m.request? := by
  cases m <;> rfl

theorem request?_backedOff (m : Machine) (r : Rejection) :
    (m.backedOff r).request? = m.request? := by
  cases m <;> rfl

theorem resent_of_request? {m : Machine} (h : m.request? = none) : m.resent = m := by
  cases m with
  | setup p => simp [request?] at h
  | update p => simp [request?] at h
  | connection c slot => rfl

theorem waitingFor_resent {m : Machine} (h : m.Suspended) (hw : m.waitingFor = .timer) :
    m.resent.waitingFor = .response := by
  cases m with
  | setup p => rfl
  | update p => rfl
  | connection c slot => simp [waitingFor, AmfConnection.waitingFor, h.1] at hw

theorem waitingFor_backedOff {m : Machine} (r : Rejection) (hb : m.retries = true) :
    (m.backedOff r).waitingFor = .timer := by
  cases m with
  | setup p => rfl
  | update p => rfl
  | connection c slot => simp [retries] at hb

def opening (m : Machine) : List Effect :=
  match m.request? with
  | some message => [.send message, .emit (.requestSent m.id 1)]
  | none => []

structure Fresh (m : Machine) : Prop where
  unlaunched : m.expects .launch = true
  suspended : m.launched.Suspended
  untimed : m.launched.waitingFor ≠ .timer
  opens : ∀ results, m.resume results .launch = some (m.launched, m.opening)

theorem fresh_setup (id : ProcedureId) (request : ProcedureRequest NgSetupRequest) :
    (setup (.new id request)).Fresh where
  unlaunched := rfl
  suspended := RetryProcedure.suspended_launched rfl rfl
  untimed := by simp [launched, waitingFor, RetryProcedure.waitingFor, RetryProcedure.launched]
  opens _ := rfl

theorem fresh_update (id : ProcedureId) (request : ProcedureRequest RanConfigurationUpdate) :
    (update (.new id request)).Fresh where
  unlaunched := rfl
  suspended := RetryProcedure.suspended_launched rfl rfl
  untimed := by simp [launched, waitingFor, RetryProcedure.waitingFor, RetryProcedure.launched]
  opens _ := rfl

theorem fresh_connection (id setup : ProcedureId) (controller amf : EntityId) (slot : Nat) :
    (connection ⟨id, controller, amf, setup, .created, none⟩ slot).Fresh where
  unlaunched := rfl
  suspended := ⟨rfl, rfl⟩
  untimed := by simp [launched, waitingFor, AmfConnection.waitingFor, AmfConnection.launched]
  opens _ := rfl

theorem eq_setup_of_kind {m : Machine} (h : m.kind = .ngSetup) : ∃ p, m = setup p := by
  cases m with
  | setup p => exact ⟨p, rfl⟩
  | update p => simp [kind, ranConfigurationUpdate] at h
  | connection c slot => simp [kind] at h

theorem eq_connection_of_kind {m : Machine} (h : m.kind = .amfConnection) :
    ∃ c slot, m = connection c slot := by
  cases m with
  | connection c slot => exact ⟨c, slot, rfl⟩
  | _ => simp [kind, ngSetup, ranConfigurationUpdate] at h

theorem waitingFor_connection_cases (c : AmfConnection) (slot : Nat) :
    (connection c slot).waitingFor = .procedure c.setup ∨
      (connection c slot).waitingFor = .nothing := by
  cases h : c.state <;> simp [waitingFor, AmfConnection.waitingFor, h]

theorem kind_ne_of_timer {m : Machine} (h : m.waitingFor = .timer) : m.kind ≠ .amfConnection := by
  cases m with
  | setup p => simp [kind, ngSetup]
  | update p => simp [kind, ranConfigurationUpdate]
  | connection c slot => rcases waitingFor_connection_cases c slot with hw | hw <;> simp [hw] at h

/-- no wake changes what a machine was launched with -/
theorem resume_static {m m' : Machine} {results : Results} {w : Wake} {effects : List Effect}
    (h : m.resume results w = some (m', effects)) :
    m'.id = m.id ∧ m'.entity = m.entity ∧ m'.kind = m.kind ∧ m'.request? = m.request? := by
  cases m with
  | setup p =>
    simp only [resume, Option.map_eq_some_iff, Prod.mk.injEq] at h
    obtain ⟨event, -, rfl, -⟩ := h
    obtain ⟨h1, h2, h3, -⟩ := p.transition_static ngSetup event
    simp [id, entity, kind, request?, h1, h2, h3]
  | update p =>
    simp only [resume, Option.map_eq_some_iff, Prod.mk.injEq] at h
    obtain ⟨event, -, rfl, -⟩ := h
    obtain ⟨h1, h2, h3, -⟩ := p.transition_static ranConfigurationUpdate event
    simp [id, entity, kind, request?, h1, h2, h3]
  | connection c slot =>
    simp only [resume, Option.map_eq_some_iff, Prod.mk.injEq] at h
    obtain ⟨event, -, rfl, -⟩ := h
    obtain ⟨h1, h2, -⟩ := c.transition_static event
    simp [id, entity, kind, request?, h1, h2]

theorem resume_cancel {m : Machine} (h : m.isTerminal = false) (results : Results) :
    m.resume results .cancel =
      some (m.cancelled, m.release ++ [.emit (.procedureCancelled m.id)]) := by
  cases m with
  | setup p => simp [resume, RetryProtocol.eventOf, cancelled, release, id,
      RetryProcedure.transition_cancel ngSetup h]
  | update p => simp [resume, RetryProtocol.eventOf, cancelled, release, id,
      RetryProcedure.transition_cancel ranConfigurationUpdate h]
  | connection c slot => simp [resume, AmfConnection.eventOf, cancelled, release, id,
      AmfConnection.transition_cancel h]

theorem resume_timerFired {m : Machine} (h : m.Suspended) (hw : m.waitingFor = .timer)
    (results : Results) : ∃ message, m.request? = some message ∧
      m.resume results .timerFired = some (m.resent,
        [.send message, .emit (.requestSent m.id m.resent.transmissions)]) := by
  cases m with
  | setup p =>
    have hs := RetryProcedure.waitingFor_eq_timer_iff.1 hw
    have hb : p.attempts < p.maxRetries := by simpa [hs] using h.parked
    exact ⟨_, rfl, by simp [resume, RetryProtocol.eventOf, resent, transmissions,
      RetryProcedure.transition_timerFired ngSetup hs hb, RetryProcedure.sendRequest,
      RetryProcedure.resent, id]⟩
  | update p =>
    have hs := RetryProcedure.waitingFor_eq_timer_iff.1 hw
    have hb : p.attempts < p.maxRetries := by simpa [hs] using h.parked
    exact ⟨_, rfl, by simp [resume, RetryProtocol.eventOf, resent, transmissions,
      RetryProcedure.transition_timerFired ranConfigurationUpdate hs hb,
      RetryProcedure.sendRequest, RetryProcedure.resent, id]⟩
  | connection c slot =>
    simp only [waitingFor, AmfConnection.waitingFor] at hw
    split at hw <;> simp at hw

theorem resume_rejection {m : Machine} (hw : m.waitingFor = .response) {pdu : Pdu} {r : Rejection}
    {delay : Duration} (hr : m.rejection? pdu = some r) (hd : r.wait? = some delay)
    (hb : m.retries = true) (results : Results) :
    m.resume results (.message pdu) = some (m.backedOff r, [.startTimer delay,
      .emit (.backoffStarted m.id m.nextAttempt (.ofNatClamp delay.millis))]) := by
  cases m with
  | setup p =>
    have hs := RetryProcedure.waitingFor_eq_response_iff.1 hw
    have hreply : ngSetup.reply? pdu = some (.failure r) := by
      simp only [rejection?] at hr
      split at hr <;> simp_all
    simp [resume, RetryProtocol.eventOf, hreply, RetryProcedure.transition_failure ngSetup hs,
      RetryProcedure.onFailure_wait hd (by simpa [retries] using hb), backedOff, id, nextAttempt]
  | update p =>
    have hs := RetryProcedure.waitingFor_eq_response_iff.1 hw
    have hreply : ranConfigurationUpdate.reply? pdu = some (.failure r) := by
      simp only [rejection?] at hr
      split at hr <;> simp_all
    simp [resume, RetryProtocol.eventOf, hreply,
      RetryProcedure.transition_failure ranConfigurationUpdate hs,
      RetryProcedure.onFailure_wait hd (by simpa [retries] using hb), backedOff, id, nextAttempt]
  | connection c slot => simp [rejection?] at hr

theorem completed_setup {p : RetryProcedure NgSetupRequest NgSetupResponse}
    {outcome : RetryOutcome NgSetupResponse} (hs : p.state = .completed)
    (ho : p.outcome = some outcome) : (setup p).Completed (.setup outcome) :=
  ⟨by simp [isTerminal, RetryProcedure.isTerminal, hs],
    by simp [isCancelled, RetryProcedure.isCancelled, hs], by simp [result?, ho]⟩

theorem completed_update {p : RetryProcedure RanConfigurationUpdate Unit}
    {outcome : RetryOutcome Unit} (hs : p.state = .completed)
    (ho : p.outcome = some outcome) : (update p).Completed (.update outcome) :=
  ⟨by simp [isTerminal, RetryProcedure.isTerminal, hs],
    by simp [isCancelled, RetryProcedure.isCancelled, hs], by simp [result?, ho]⟩

/-- a message is expected by a procedure that awaits its response, and it is a reply to it -/
theorem expects_message_cases {m : Machine} {pdu : Pdu} (hx : m.expects (.message pdu) = true) :
    (∃ p reply, m = setup p ∧ p.state = .awaitingResponse ∧ ngSetup.reply? pdu = some reply) ∨
    ∃ p reply, m = update p ∧ p.state = .awaitingResponse ∧
      ranConfigurationUpdate.reply? pdu = some reply := by
  simp only [expects, Bool.and_eq_true, beq_iff_eq] at hx
  obtain ⟨hw, ha⟩ := hx
  cases m with
  | setup p =>
    obtain ⟨reply, hreply⟩ := Option.isSome_iff_exists.1 ha
    exact .inl ⟨p, reply, rfl, RetryProcedure.waitingFor_eq_response_iff.1 hw, hreply⟩
  | update p =>
    obtain ⟨reply, hreply⟩ := Option.isSome_iff_exists.1 ha
    exact .inr ⟨p, reply, rfl, RetryProcedure.waitingFor_eq_response_iff.1 hw, hreply⟩
  | connection c slot => simp [accepts] at ha

/-- a message that a machine expects completes it or sends it into a backoff -/
theorem resume_message_cases {m : Machine} {pdu : Pdu} (hx : m.expects (.message pdu) = true)
    (results : Results) :
    (∃ m' event r, m.resume results (.message pdu) = some (m', [.emit event]) ∧
      m'.Completed r ∧ r.kind = m.kind ∧ r.isCancelled = false ∧ event.announced? = none) ∨
    ∃ r delay, m.rejection? pdu = some r ∧ r.wait? = some delay ∧ m.retries = true := by
  rcases expects_message_cases hx with ⟨p, reply, rfl, hs, hreply⟩ | ⟨p, reply, rfl, hs, hreply⟩
  · rcases p.transition_reply_cases ngSetup hs reply with
      ⟨p', event, outcome, ht, hc, ho, hu, he⟩ | ⟨r, delay, rfl, hd, hb⟩
    · exact .inl ⟨_, event, _, by simp [resume, RetryProtocol.eventOf, hreply, ht],
        completed_setup hc ho, rfl, hu, he⟩
    · exact .inr ⟨r, delay, by simp [rejection?, hreply], hd, by simpa [retries] using hb⟩
  · rcases p.transition_reply_cases ranConfigurationUpdate hs reply with
      ⟨p', event, outcome, ht, hc, ho, hu, he⟩ | ⟨r, delay, rfl, hd, hb⟩
    · exact .inl ⟨_, event, _, by simp [resume, RetryProtocol.eventOf, hreply, ht],
        completed_update hc ho, rfl, hu, he⟩
    · exact .inr ⟨r, delay, by simp [rejection?, hreply], hd, by simpa [retries] using hb⟩

/-- Only a connection waits for the end of a procedure, its setup. It completes with what became of
the setup, unless the result of that is missing. -/
theorem resume_procedureDone_cases {m : Machine} {id : ProcedureId}
    (hx : m.expects (.procedureDone id) = true) (results : Results) :
    ∃ c slot, m = connection c slot ∧ c.setup = id ∧
      (m.resume results (.procedureDone id) = none ∨
      ∃ m' outcome, results.get? slot = some (.setup outcome) ∧
        m.resume results (.procedureDone id) =
          some (m', [.emit (AmfConnection.announcement c.amf outcome)]) ∧
        m'.Completed (.connection (AmfConnection.outcomeOf outcome))) := by
  simp only [expects, beq_iff_eq] at hx
  cases m with
  | setup p => exact absurd hx (p.waitingFor_ne_procedure id)
  | update p => exact absurd hx (p.waitingFor_ne_procedure id)
  | connection c slot =>
    obtain ⟨hs, rfl⟩ := AmfConnection.waitingFor_eq_procedure_iff.1 hx
    refine ⟨c, slot, rfl, rfl, ?_⟩
    cases he : c.eventOf (results.get? slot) (.procedureDone c.setup) with
    | none => exact .inl (by simp [resume, he])
    | some event =>
      simp only [AmfConnection.eventOf, ↓reduceIte] at he
      split at he
      · next outcome hr =>
        obtain rfl := Option.some.inj he
        refine .inr ⟨connection { c with
          state := .completed
          outcome := some (AmfConnection.outcomeOf outcome) } slot, outcome, hr, ?_, rfl, rfl, rfl⟩
        simp [resume, AmfConnection.eventOf, hr, AmfConnection.transition_setupSettled hs]
      · simp at he

/-- machines that understand the same message are of one kind -/
theorem kind_of_accepts {m m' : Machine} {pdu : Pdu} (h : m.accepts pdu = true)
    (h' : m'.accepts pdu = true) : m.kind = m'.kind := by
  cases m <;> cases m' <;> cases pdu <;>
    simp_all [accepts, kind, ngSetup, ranConfigurationUpdate]

theorem cancellation_backedOff (m : Machine) (r : Rejection) :
    (m.backedOff r).cancellation = m.cancellation := by
  cases m <;> rfl

theorem isTerminal_cancelled (m : Machine) : m.cancelled.isTerminal = true := by
  cases m <;> rfl

theorem isCancelled_cancelled (m : Machine) : m.cancelled.isCancelled = true := by
  cases m <;> rfl

theorem result?_cancelled (m : Machine) : m.cancelled.result? = some m.cancellation := by
  cases m <;> rfl

theorem isCancelled_cancellation (m : Machine) : m.cancellation.isCancelled = true := by
  cases m <;> rfl

end Machine

end NgapProcedures
