import NgapProcedures.Proofs.Daemon.Lag

/-! The account of a daemon, whatever it is told. One request has gone out for each attempt of its
setup: the peer has taken it, or it waits in the channel. The connection stays open until a message
ends the setup, and nothing but an acceptance from its AMF makes a success of it. -/

namespace NgapProcedures

open Engine

def DaemonConfig.request (c : DaemonConfig) : PeerMessage := ⟨c.amf, .ngSetupRequest c.setupMessage⟩

namespace Daemon

structure Outstanding (config : DaemonConfig) (d : Daemon)
    (p : RetryProcedure NgSetupRequest NgSetupResponse) (c : AmfConnection) : Prop where
  counted : d.engine.Counted p c
  connection : d.connection = ⟨c.id, 1⟩
  amf : p.entity = config.amf
  controller : c.entity = config.controller
  request : p.request = config.setupMessage
  budget : p.maxRetries = config.engine.maxSetupRetries
  retried : p.attempts ≤ p.maxRetries
  requests : d.requests = p.attempts.toNat + 1

structure Closed (config : DaemonConfig) (d : Daemon) (outcome : ConnectionOutcome) : Prop where
  steady : d.engine.Steady
  tasks : ∀ q, d.engine.tasks.get? q = none
  slot : d.connection.slot = 1
  result : d.engine.results.get? 1 = some (.connection outcome)
  natural : outcome ≠ .cancelled
  requests : d.requests ≤ config.engine.maxSetupRetries.toNat + 1

inductive Fate (config : DaemonConfig) (d : Daemon) : Option ConnectionOutcome → Prop
  | outstanding {p : RetryProcedure NgSetupRequest NgSetupResponse} {c : AmfConnection}
      (h : d.Outstanding config p c) : Fate config d none
  | closed {outcome : ConnectionOutcome} (h : d.Closed config outcome) :
    Fate config d (some outcome)

/-- Each request that was counted, or is in the log, has been taken by the peer or waits for it. -/
structure Account (config : DaemonConfig) (d : Daemon) (taken : List PeerMessage)
    (outcome : Option ConnectionOutcome) : Prop where
  fate : d.Fate config outcome
  opened : d.engine.gateway.inner.closed = false
  handed : taken ++ d.engine.gateway.inner.waiting = List.replicate d.requests config.request

/-- What comes of the outcome with a message, or without one. It stays, or the message is the one
that ends the setup. -/
inductive Decides (config : DaemonConfig) (m : Option PeerMessage) :
    Option ConnectionOutcome → Option ConnectionOutcome → Prop
  | stays (outcome : Option ConnectionOutcome) : Decides config m outcome outcome
  | ends {outcome : ConnectionOutcome} (h : ∀ name, outcome = .success name → ∃ response,
      m = some ⟨config.amf, .ngSetupResponse response⟩ ∧ response.amfName = name) :
      Decides config m none (some outcome)

section

variable {config : DaemonConfig} {d d' : Daemon} {taken : List PeerMessage}
  {outcome : Option ConnectionOutcome} {p : RetryProcedure NgSetupRequest NgSetupResponse}
  {c : AmfConnection}

theorem Fate.steady (h : d.Fate config outcome) : d.engine.Steady := by
  cases h with
  | outstanding h => exact h.counted.paired.steady
  | closed h => exact h.steady

theorem Fate.settled (h : d.Fate config outcome) : d.settled = outcome.isSome := by
  cases h with
  | @outstanding p c h =>
    have hp := h.counted.paired
    have hempty := (hp.steady.coherent.slot hp.connection).2
    simp [Daemon.settled, Engine.ready, Engine.result?, h.connection, hempty]
  | closed h => simp [Daemon.settled, Engine.ready, Engine.result?, h.slot, h.result]

/-- the budget of retries bounds the requests -/
theorem Fate.requests_le (h : d.Fate config outcome) :
    d.requests ≤ config.engine.maxSetupRetries.toNat + 1 := by
  cases h with
  | outstanding h =>
    have hle := UInt32.le_iff_toNat_le.1 h.retried
    rw [h.requests, ← h.budget]
    omega
  | closed h => exact h.requests

theorem Outstanding.transfer (h : d.Outstanding config p c) (hp : d'.engine.Counted p c)
    (hc : d'.connection = d.connection) (hr : d'.requests = d.requests) :
    d'.Outstanding config p c :=
  { h with counted := hp, connection := hc.trans h.connection, requests := hr.trans h.requests }

theorem Closed.transfer {outcome : ConnectionOutcome} (h : d.Closed config outcome)
    (hs : d'.engine.Steady) (ht : d'.engine.tasks = d.engine.tasks)
    (hres : d'.engine.results = d.engine.results) (hc : d'.connection = d.connection)
    (hr : d'.requests = d.requests) : d'.Closed config outcome where
  steady := hs
  tasks := ht ▸ h.tasks
  slot := hc ▸ h.slot
  result := hres ▸ h.result
  natural := h.natural
  requests := hr ▸ h.requests

theorem Fate.transfer (h : d.Fate config outcome) (hs : d'.engine.Steady)
    (htasks : d'.engine.tasks = d.engine.tasks) (hparents : d'.engine.parents = d.engine.parents)
    (ht : d'.engine.timers = d.engine.timers) (ha : d'.engine.armed = d.engine.armed)
    (hres : d'.engine.results = d.engine.results) (hc : d'.connection = d.connection)
    (hr : d'.requests = d.requests) : d'.Fate config outcome := by
  cases h with
  | outstanding h =>
    have hp := h.counted.paired
    exact .outstanding (h.transfer ⟨hp.transfer hs (hp.timed.transfer ht ha) htasks hparents,
      ht ▸ h.counted.numbers⟩ hc hr)
  | closed h => exact .closed (h.transfer hs htasks hres hc hr)

/-- nothing is sent -/
theorem Account.keep (h : d.Account config taken outcome) {outcome' : Option ConnectionOutcome}
    (hf : d'.Fate config outcome') (hg : d'.engine.gateway = d.engine.gateway)
    (hr : d'.requests = d.requests) : d'.Account config taken outcome' where
  fate := hf
  opened := hg ▸ h.opened
  handed := by
    rw [hg, hr]
    exact h.handed

theorem Account.tally (h : d.Account config taken outcome)
    (hN : config.engine.maxSetupRetries.toNat + 1 < 2 ^ 32) :
    d.tally.Account config taken outcome := by
  have hr : d.tally.requests = d.requests :=
    (requests_tally (Nat.lt_of_le_of_lt h.fate.requests_le hN)).1
  have hs : d.tally.engine.Steady := h.fate.steady.after [.drainEvents]
  exact h.keep (h.fate.transfer hs rfl rfl rfl rfl rfl rfl hr) rfl hr

theorem Account.withPacer (h : d.Account config taken outcome) (pacer : TickPacer) :
    ({ d with pacer } : Daemon).Account config taken outcome :=
  h.keep (h.fate.transfer h.fate.steady rfl rfl rfl rfl rfl rfl rfl) rfl rfl

theorem Account.withInbound (h : d.Account config taken outcome) (inbound : List PeerMessage) :
    ({ d with inbound } : Daemon).Account config taken outcome :=
  h.keep (h.fate.transfer h.fate.steady rfl rfl rfl rfl rfl rfl rfl) rfl rfl

theorem Account.servePeer (h : d.Account config taken outcome) :
    d.servePeer.Account config (taken ++ d.engine.gateway.inner.receive.1) outcome := by
  obtain ⟨peer, inbound, he⟩ := d.servePeer_eq
  rw [he]
  refine ⟨h.fate.transfer ?_ rfl rfl rfl rfl rfl rfl rfl, h.opened, ?_⟩
  · exact h.fate.steady.rewire fun g => ⟨g.inner.receive.2⟩
  · exact (List.append_nil _).trans h.handed

theorem send_opened {g : TracedGateway ChannelGateway} (h : g.inner.closed = false)
    (m : PeerMessage) :
    (Gateway.send g m).2 = ⟨{ g.inner with waiting := g.inner.waiting ++ [m] }⟩ := by
  simp [Gateway.send, h]

theorem Account.advance (h : d.Account config taken outcome) :
    d.advance.Account config taken outcome := by
  have hfate := h.fate
  have hidle (he : d.engine.advance = { d.engine with timers := d.engine.timers.advance.2 }) :
      d.advance.requests = d.requests ∧ d.advance.engine.gateway = d.engine.gateway := by
    simp only [Daemon.requests, Daemon.advance, he, and_self]
  cases hfate with
  | closed ho =>
    have he := ho.steady.coherent.advance_of_empty ho.steady.quiet ho.tasks
    obtain ⟨hr, hg⟩ := hidle he
    have hs : d.advance.engine.Steady := ho.steady.after [.advance]
    refine h.keep (.closed (ho.transfer hs ?_ ?_ rfl hr)) hg hr
    · simp only [Daemon.advance, he]
    · simp only [Daemon.advance, he]
  | @outstanding p c hp =>
    rcases hp.counted.advance_cases with ⟨he, hcounted⟩ | ⟨hb, he, hcounted⟩
    · obtain ⟨hr, hg⟩ := hidle he
      exact h.keep (.outstanding (hp.transfer hcounted rfl hr)) hg hr
    · -- the request goes out once more
      have hattempts := RetryProcedure.toNat_attempts_resent hb
      have hg : d.advance.engine.gateway = ⟨{ d.engine.gateway.inner with
          waiting := d.engine.gateway.inner.waiting ++ [config.request] }⟩ := by
        have hm : config.request = ⟨p.entity, .ngSetupRequest p.request⟩ := by
          rw [DaemonConfig.request, hp.amf, hp.request]
        rw [hm, ← send_opened h.opened]
        exact congrArg Engine.gateway he
      have hr : d.advance.requests = d.requests + 1 := by
        simp only [Daemon.requests, Daemon.advance, he, transmit, requestsIn_append]
        rfl
      refine ⟨.outstanding { hp with
        counted := hcounted
        retried := ?_
        requests := ?_ }, ?_, ?_⟩
      · have hlt := UInt32.lt_iff_toNat_lt.1 hb
        rw [UInt32.le_iff_toNat_le, hattempts]
        exact hlt
      · rw [hr, hattempts, hp.requests]
      · rw [hg]
        exact h.opened
      · rw [hg, hr, List.replicate_succ', ← h.handed]
        exact (List.append_assoc ..).symm

theorem Account.repeat_advance (h : d.Account config taken outcome) (n : Nat) :
    ({ d with engine := n.repeat Engine.advance d.engine } : Daemon).Account config taken
      outcome := by
  induction n with
  | zero => exact h
  | succ n ih => exact ih.advance

theorem Account.tick (h : d.Account config taken outcome)
    (hN : config.engine.maxSetupRetries.toNat + 1 < 2 ^ 32) (reading : Duration) :
    (d.tick reading).2.Account config taken outcome := by
  rcases d.tick_cases reading with ⟨-, he⟩ | he
  · rw [he]
    exact h.withPacer _
  · rw [he]
    exact ((h.repeat_advance _).withPacer _).tally hN

theorem Account.handleMessage (h : d.Account config taken outcome) (m : PeerMessage) :
    ∃ outcome', ({ d with engine := (d.engine.handleMessage m).2 } : Daemon).Account config taken
      outcome' ∧ Decides config (some m) outcome outcome' := by
  have hfate := h.fate
  cases hfate with
  | closed ho =>
    have hnone : d.engine.recipient? m = none := Option.eq_none_iff_forall_ne_some.2 fun q hr => by
      obtain ⟨t, ht, -⟩ := ho.steady.coherent.of_recipient hr
      simp [ho.tasks q] at ht
    simp only [Engine.handleMessage, hnone]
    exact ⟨_, h, .stays _⟩
  | @outstanding p c hp =>
    rcases hp.counted.handleMessage_cases m with
      he | ⟨r, hcounted, hg, event, hevent, hlog⟩ | ⟨outcome, hc, hnatural, hresponse⟩
    · rw [he]
      exact ⟨_, h, .stays _⟩
    · have hr : ({ d with engine := (d.engine.handleMessage m).2 } : Daemon).requests =
          d.requests := by
        simp [Daemon.requests, hlog, requestsIn, Event.isRequest_eq_false hevent]
      have hp' : ({ d with engine := (d.engine.handleMessage m).2 } : Daemon).Outstanding config
          (p.backedOff r) c :=
        { hp with counted := hcounted, requests := hr.trans hp.requests }
      exact ⟨none, h.keep (.outstanding hp') hg hr, .stays _⟩
    · obtain ⟨event, event', hevent, hevent', hlog⟩ := hc.log
      have hr : ({ d with engine := (d.engine.handleMessage m).2 } : Daemon).requests =
          d.requests := by
        simp [Daemon.requests, hlog, requestsIn, Event.isRequest_eq_false hevent,
          Event.isRequest_eq_false hevent']
      have hclosed : ({ d with engine := (d.engine.handleMessage m).2 } : Daemon).Closed config
          (AmfConnection.outcomeOf outcome) := {
        steady := hc.steady
        tasks := hc.tasks
        slot := congrArg Handle.slot hp.connection
        result := hc.result
        natural := AmfConnection.outcomeOf_ne_cancelled outcome
        requests := hr ▸ h.fate.requests_le }
      refine ⟨_, h.keep (.closed hclosed) hc.gateway hr, .ends ?_⟩
      intro name hname
      cases outcome with
      | success response =>
        have hm := hp.amf ▸ hresponse response rfl
        exact ⟨response, congrArg some hm, Outcome.success.inj hname⟩
      | failure f => simp [AmfConnection.outcomeOf] at hname
      | cancelled => exact absurd rfl hnatural

theorem Account.deliver (h : d.Account config taken outcome)
    (hN : config.engine.maxSetupRetries.toNat + 1 < 2 ^ 32) (m : PeerMessage) :
    ∃ outcome', (d.deliver m).Account config taken outcome' ∧
      Decides config (some m) outcome outcome' := by
  obtain ⟨outcome', h', hd⟩ := h.handleMessage m
  exact ⟨outcome', h'.tally hN, hd⟩

end

end Daemon

end NgapProcedures
