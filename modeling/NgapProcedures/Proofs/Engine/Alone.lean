import NgapProcedures.Proofs.Engine.Clock
import NgapProcedures.Proofs.Engine.Pair

/-! An engine that has launched one connection and nothing else. Its setup and the connection are both
there, or nobody is left. Whatever messages and ticks come, a backoff takes one timer, and a setup that
rests hears nothing and sends nothing until its timer is due. -/

namespace NgapProcedures

theorem PeerMessage.eq_response {m : PeerMessage} {entity : EntityId} {response : NgSetupResponse}
    (he : m.entity = entity) (hr : ngSetup.reply? m.pdu = some (.success response)) :
    m = ⟨entity, .ngSetupResponse response⟩ := by
  obtain ⟨_, pdu⟩ := m
  subst he
  cases pdu <;> simp_all [ngSetup]

end NgapProcedures

namespace NgapProcedures.Engine

variable {γ : Type}

structure Counted (e : Engine γ) (p : RetryProcedure NgSetupRequest NgSetupResponse)
    (c : AmfConnection) : Prop where
  paired : e.Paired p c
  numbers : e.timers.nextId.toNat ≤ p.attempts.toNat + 2 ∧
    (p.state = .awaitingResponse → e.timers.nextId.toNat ≤ p.attempts.toNat + 1)

inductive Alone (e : Engine γ) : Prop
  | live {p : RetryProcedure NgSetupRequest NgSetupResponse} {c : AmfConnection}
      (h : e.Counted p c)
  | ended (hs : e.Steady) (h : ∀ q, e.tasks.get? q = none)

section

variable {e e' : Engine γ} {p : RetryProcedure NgSetupRequest NgSetupResponse} {c : AmfConnection}

theorem Alone.steady (h : e.Alone) : e.Steady := by
  cases h with
  | live h => exact h.paired.steady
  | ended hs => exact hs

/-- the log and the gateway are of no account -/
theorem Alone.transfer (h : e.Alone) (hs : e'.Steady) (htasks : e'.tasks = e.tasks)
    (hparents : e'.parents = e.parents) (ht : e'.timers = e.timers) (ha : e'.armed = e.armed) :
    e'.Alone := by
  cases h with
  | live h =>
    exact .live ⟨h.paired.transfer hs (h.paired.timed.transfer ht ha) htasks hparents,
      ht ▸ h.numbers⟩
  | ended _ h => exact .ended hs (htasks ▸ h)

theorem Paired.parked (h : e.Paired p c) :
    p.state = .awaitingResponse ∨ p.state = .backoff ∧ p.attempts < p.maxRetries :=
  RetryProcedure.Suspended.parked (h.steady.coherent.suspended h.setup)

theorem Paired.eq_setup (h : e.Paired p c) {q : ProcedureId} {t : Task}
    (ht : e.tasks.get? q = some t) (hw : t.machine.waitingFor = .response) :
    q = p.id ∧ t = ⟨.setup p, 0⟩ ∧ p.state = .awaitingResponse := by
  rcases h.only ht with rfl | rfl
  · obtain rfl := Option.some.inj (h.setup.symm.trans ht)
    refine ⟨rfl, rfl, h.parked.resolve_right fun hb => ?_⟩
    simp [Machine.waitingFor, RetryProcedure.waitingFor, hb.1] at hw
  · obtain rfl := Option.some.inj (h.connection.symm.trans ht)
    simp [Machine.waitingFor, h.waitingFor] at hw

/-- a message is for the setup, and only while it awaits the reply -/
theorem Paired.eq_recipient (h : e.Paired p c) {m : PeerMessage} {q : ProcedureId}
    (hr : e.recipient? m = some q) : q = p.id ∧ p.state = .awaitingResponse := by
  obtain ⟨t, ht, -, hx⟩ := h.steady.coherent.of_recipient hr
  simp only [Machine.expects, Bool.and_eq_true, beq_iff_eq] at hx
  obtain ⟨hq, -, hp⟩ := h.eq_setup ht hx.1
  exact ⟨hq, hp⟩

theorem Paired.eq_of_backs (h : e.Paired p c) {m : PeerMessage} {q : ProcedureId} {t : Task}
    {r : Rejection} {delay : Duration} (hb : e.Backs m q t r delay) :
    q = p.id ∧ t = ⟨.setup p, 0⟩ ∧ p.state = .awaitingResponse :=
  h.eq_setup hb.task (h.steady.coherent.of_backs hb).2.2.1

theorem Paired.waits (h : e.Paired p c) (hp : p.state = .backoff) :
    ∃ k d, e.Waiting p.id ⟨.setup p, 0⟩ k d := by
  have hw : (Machine.setup p).waitingFor = .timer := RetryProcedure.waitingFor_eq_timer_iff.2 hp
  obtain ⟨k, hk⟩ : ∃ k, e.armed.get? p.id = some k := by
    simpa using (h.steady.coherent.backoff h.setup).1 hw
  obtain ⟨d, hd⟩ := h.timed.kept hk
  exact ⟨k, d, h.setup, hw, hd⟩

end

variable [Gateway γ]

section

variable {e : Engine γ} {p : RetryProcedure NgSetupRequest NgSetupResponse} {c : AmfConnection}

theorem Paired.handleMessage_backoff (h : e.Paired p c) (hp : p.state = .backoff)
    (m : PeerMessage) : e.handleMessage m = (false, e) := by
  have hnone : e.recipient? m = none := Option.eq_none_iff_forall_ne_some.2 fun q hr => by
    simpa [hp] using (h.eq_recipient hr).2
  simp [handleMessage, hnone]

theorem Counted.backs (h : e.Counted p c) {m : PeerMessage} {r : Rejection} {delay : Duration}
    (hb : e.Backs m p.id ⟨.setup p, 0⟩ r delay) :
    (e.handleMessage m).2.Counted (p.backedOff r) c ∧
    (e.handleMessage m).2.Waiting p.id ⟨.setup (p.backedOff r), 0⟩ e.timers.nextId
      (e.timers.scheduled p.id (e.timers.ticksFor delay)).deadline ∧
    (e.handleMessage m).2.gateway = e.gateway ∧
    ∃ event, (∀ id n, event ≠ .requestSent id n) ∧ (e.handleMessage m).2.log = e.log ++ [event] := by
  obtain ⟨-, -, hp⟩ := h.paired.eq_of_backs hb
  obtain ⟨-, -, -, ha⟩ := h.paired.steady.coherent.of_backs hb
  have hnumbers := h.numbers.2 hp
  have hattempts := p.attempts.toNat_lt
  obtain ⟨he, hpaired, hwaiting⟩ := h.paired.backs hb (by omega)
  have hnext : (e.handleMessage m).2.timers.nextId.toNat = e.timers.nextId.toNat + 1 := by
    rw [he, backedOff, backOff_eq ha]
    exact toNat_add_one (by omega)
  have hlog : (e.handleMessage m).2.log = e.log ++ [.backoffStarted (Machine.setup p).id
      (Machine.setup p).nextAttempt (.ofNatClamp delay.millis)] := by
    rw [he, backedOff, backOff_eq ha]
  refine ⟨⟨hpaired, ?_, fun hs => ?_⟩, hwaiting, ?_, _, by simp, hlog⟩
  · show _ ≤ p.attempts.toNat + 2
    omega
  · simp [RetryProcedure.backedOff] at hs
  · rw [he, backedOff, backOff_eq ha]

/-- A message is dropped, or it sends the setup to rest, or it ends both. Only an acceptance from
the peer makes a success of it. -/
theorem Counted.handleMessage_cases (h : e.Counted p c) (m : PeerMessage) :
    (e.handleMessage m).2 = e ∨
    (∃ r, (e.handleMessage m).2.Counted (p.backedOff r) c ∧
      (e.handleMessage m).2.gateway = e.gateway ∧
      ∃ event, (∀ id n, event ≠ .requestSent id n) ∧
        (e.handleMessage m).2.log = e.log ++ [event]) ∨
    ∃ outcome, e.Concluded outcome (e.handleMessage m).2 ∧ outcome ≠ .cancelled ∧
      ∀ response, outcome = .success response → m = ⟨p.entity, .ngSetupResponse response⟩ := by
  cases hr : e.recipient? m with
  | none => exact .inl (by simp [Engine.handleMessage, hr])
  | some q =>
    obtain ⟨rfl, hp⟩ := h.paired.eq_recipient hr
    obtain ⟨t, ht, he, hx⟩ := h.paired.steady.coherent.of_recipient hr
    obtain rfl := Option.some.inj (h.paired.setup.symm.trans ht)
    have he : m.entity = p.entity := he.symm
    obtain ⟨reply, hreply⟩ : ∃ reply, ngSetup.reply? m.pdu = some reply := by
      simp only [Machine.expects, Bool.and_eq_true] at hx
      exact Option.isSome_iff_exists.1 (by simpa [Machine.accepts] using hx.2)
    refine .inr ?_
    cases reply with
    | success response =>
      have htransition := RetryProcedure.transition_success ngSetup hp response
      refine .inr ⟨_, h.paired.concluded hp he hreply htransition rfl rfl (by simp), by simp, ?_⟩
      intro response' hresponse
      obtain rfl := Outcome.success.inj hresponse
      exact PeerMessage.eq_response he hreply
    | failure r =>
      have htransition := RetryProcedure.transition_failure ngSetup hp r
      cases hw : r.wait? with
      | none =>
        rw [RetryProcedure.onFailure_final hw] at htransition
        exact .inr ⟨_, h.paired.concluded hp he hreply htransition rfl rfl (by simp), by simp,
          by simp⟩
      | some delay =>
        by_cases hb : p.attempts < p.maxRetries
        · obtain ⟨hcounted, -, hgateway, hlog⟩ :=
            h.backs (h.paired.backs_of_awaiting hp he hreply hw hb)
          exact .inl ⟨r, hcounted, hgateway, hlog⟩
        · rw [RetryProcedure.onFailure_spent hw hb] at htransition
          exact .inr ⟨_, h.paired.concluded hp he hreply htransition rfl rfl (by simp), by simp,
            by simp⟩

theorem Counted.handleMessage (h : e.Counted p c) (m : PeerMessage) :
    (e.handleMessage m).2.Alone := by
  rcases h.handleMessage_cases m with he | ⟨r, hcounted, -⟩ | ⟨outcome, hc, -⟩
  · rw [he]
    exact .live h
  · exact .live hcounted
  · exact .ended hc.steady hc.tasks

theorem Alone.handleMessage (h : e.Alone) (m : PeerMessage) : (e.handleMessage m).2.Alone := by
  cases h with
  | live h => exact h.handleMessage m
  | ended hs h =>
    have hnone : e.recipient? m = none := Option.eq_none_iff_forall_ne_some.2 fun q hr => by
      obtain ⟨t, ht, -⟩ := hs.coherent.of_recipient hr
      simp [h q] at ht
    simp only [Engine.handleMessage, hnone]
    exact .ended hs h

/-- A tick passes by, or the wait of the setup is over and its request is sent again. -/
theorem Counted.advance_cases (h : e.Counted p c) :
    e.advance = { e with timers := e.timers.advance.2 } ∧ e.advance.Counted p c ∨
    p.attempts < p.maxRetries ∧
      e.advance = ({ e with timers := e.timers.advance.2, armed := e.armed.erase p.id }).transmit
        p.id ⟨.setup p.resent, 0⟩ ⟨p.entity, .ngSetupRequest p.request⟩ p.resent.transmissions ∧
      e.advance.Counted p.resent c := by
  have hnumbers := h.numbers
  rcases h.paired.parked with hp | ⟨hp, hb⟩
  · obtain ⟨he, hpaired⟩ := h.paired.advance_awaiting hp
    refine .inl ⟨he, hpaired, ?_⟩
    rw [he]
    exact hnumbers
  · obtain ⟨k, d, hw⟩ := h.paired.waits hp
    by_cases hd : d ≤ e.now + 1
    · obtain ⟨he, hpaired⟩ := h.paired.advance_due hw hd
      have hretry := RetryProcedure.toNat_attempts_resent hb
      have hnext : e.advance.timers.nextId = e.timers.nextId := by
        rw [he]
        rfl
      refine .inr ⟨hb, he, hpaired, ?_, fun _ => ?_⟩
      · rw [hnext, hretry]
        omega
      · rw [hnext, hretry]
        omega
    · have hexpiring := h.paired.timed.mem_expiring_iff h.paired.steady.coherent hw.timer
      obtain ⟨he, hpaired⟩ := h.paired.advance_idle (mt hexpiring.1 hd)
      refine .inl ⟨he, hpaired, ?_⟩
      rw [he]
      exact hnumbers

theorem Counted.advance (h : e.Counted p c) : e.advance.Alone := by
  rcases h.advance_cases with ⟨-, hcounted⟩ | ⟨-, -, hcounted⟩
  · exact .live hcounted
  · exact .live hcounted

theorem Alone.advance (h : e.Alone) : e.advance.Alone := by
  cases h with
  | live h => exact h.advance
  | ended hs h =>
    refine .ended (hs.after [.advance]) fun q => ?_
    have he : e.advance.tasks = e.tasks := by rw [hs.coherent.advance_of_empty hs.quiet h]
    exact (congrArg (·.get? q) he).trans (h q)

theorem Alone.advanceBy (h : e.Alone) (ticks : UInt64) : (e.advanceBy ticks).Alone := by
  rw [advanceBy_eq]
  generalize ticks.toNat = n
  induction n with
  | zero => exact h
  | succ n ih =>
    rw [List.replicate_succ', after_append]
    exact ih.advance

end

end NgapProcedures.Engine
