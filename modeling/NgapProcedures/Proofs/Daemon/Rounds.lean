import NgapProcedures.Proofs.Daemon.Progress

/-! Rounds of a session. With the clock in step, each refusal that leaves a retry is waited out tick by
tick, and the request is sent again on the last of them. Sooner or later the peer accepts, or the
daemon gives up. -/

namespace NgapProcedures

open Engine

namespace Daemon

variable {config : DaemonConfig} {d : Daemon} {k : Nat}
  {p : RetryProcedure NgSetupRequest NgSetupResponse} {c : AmfConnection} {rejected : UInt32}

theorem Underway.sleeps (h : d.Underway config k p c) {timer : TimerId} {deadline : UInt64}
    (hw : d.engine.Waiting p.id ⟨.setup p, 0⟩ timer deadline)
    (hx : d.Exchange config [] [] rejected) (n : Nat)
    (hn : d.engine.now.toNat + n < deadline.toNat) {d' : Daemon}
    (hd : { d with engine := n.repeat Engine.advance d.engine } = d') :
    d'.Underway config k p c ∧ d'.engine.Waiting p.id ⟨.setup p, 0⟩ timer deadline ∧
      d'.Exchange config [] [] rejected ∧ d'.engine.now.toNat = d.engine.now.toNat + n := by
  subst hd
  obtain ⟨hp, hw', hidle⟩ := h.paired.sleeps hw n hn
  refine ⟨h.transfer hp rfl hidle.tick hidle.nextId
    (congrArg (d.setupRequests.toNat + requestsIn ·) hidle.log) (hidle.now ▸ Nat.le_add_right ..),
    hw', ⟨hidle.gateway.trans hx.gateway, hx.inbound, hx.peer⟩, hidle.now⟩

/-- the ticks that the wait takes end it -/
theorem Underway.wakes (h : d.Underway config k p c)
    (hN : config.engine.maxSetupRetries.toNat + 1 < 2 ^ 32) {timer : TimerId} {deadline : UInt64}
    (hw : d.engine.Waiting p.id ⟨.setup p, 0⟩ timer deadline)
    (hx : d.Exchange config [] [] rejected) (hr : k < config.peer.rejectCount.toNat)
    (hk : k < config.engine.maxSetupRetries.toNat) (hd : config.Waited (k + 1) deadline)
    (hi : ∃ w, config.peer.timeToWait = some w) {n : Nat} (hpos : 0 < n)
    (hn : deadline.toNat = d.engine.now.toNat + n) {d' : Daemon}
    (he : { d with engine := n.repeat Engine.advance d.engine } = d') :
    d'.Underway config (k + 1) p.resent c ∧
      d'.Exchange config [⟨p.entity, .ngSetupRequest p.request⟩] [] rejected ∧
      d'.engine.now = deadline := by
  obtain ⟨m, rfl⟩ : ∃ m, n = m + 1 := ⟨n - 1, by omega⟩
  obtain ⟨hu, hw', hx', hnow⟩ := h.sleeps hw hx m (by omega) rfl
  have hnow : (m.repeat Engine.advance d.engine).now.toNat = d.engine.now.toNat + m := hnow
  have hbound := deadline.toNat_lt
  have hnext : (m.repeat Engine.advance d.engine).now + 1 = deadline := by
    refine UInt64.toNat_inj.1 ?_
    rw [toNat_add_one (by omega), hnow]
    omega
  obtain ⟨hu₁, hx₁⟩ := hu.fires hN hw' (UInt64.le_of_eq hnext.symm) hx' hr hk hd hi
  subst he
  exact ⟨hu₁, hx₁, hu.paired.steady.now_advance.trans hnext⟩

end Daemon

structure InStep (config : DaemonConfig) (s : Session) : Prop where
  tick : s.daemon.pacer.tick = config.engine.tick.orMilli
  origin : s.daemon.pacer.origin = .zero
  issued : s.daemon.pacer.issued = s.daemon.engine.now
  clock : s.clock.nanos = s.daemon.engine.now.toNat * config.engine.tick.orMilli.nanos

section

variable {config : DaemonConfig} {s : Session}

theorem InStep.total (h : InStep config s) {n : Nat} (hfit : n < 2 ^ 64) {reading : Duration}
    (hr : reading.nanos = n * config.engine.tick.orMilli.nanos) :
    (s.daemon.pacer.total reading).toNat = n := by
  have hticks : (reading - s.daemon.pacer.origin).ticksIn s.daemon.pacer.tick = n := by
    show (reading.nanos - s.daemon.pacer.origin.nanos) / s.daemon.pacer.tick.nanos = n
    rw [h.origin, h.tick, hr]
    exact Nat.mul_div_cancel n (Duration.orMilli_pos _)
  rw [TickPacer.total, hticks, toNat_ofNatClamp]
  omega

theorem InStep.paced (h : InStep config s) : Paced s := by
  refine ⟨h.issued, UInt64.le_of_eq ?_⟩
  rw [h.issued]
  exact UInt64.toNat_inj.1 (h.total s.daemon.engine.now.toNat_lt h.clock).symm

theorem InStep.tick_by (h : InStep config s) {n : Nat} (hpos : 0 < n)
    (hfit : s.daemon.engine.now.toNat + n < 2 ^ 64) :
    ∃ pacer : TickPacer, pacer.tick = s.daemon.pacer.tick ∧ pacer.origin = s.daemon.pacer.origin ∧
      pacer.issued.toNat = s.daemon.engine.now.toNat + n ∧
      s.play [.clock ⟨n * config.engine.tick.orMilli.nanos⟩, .tick] =
        ⟨({ s.daemon with
            pacer
            engine := n.repeat Engine.advance s.daemon.engine } : Daemon).tally,
          ⟨(s.daemon.engine.now.toNat + n) * config.engine.tick.orMilli.nanos⟩⟩ := by
  let reading : Duration := ⟨(s.daemon.engine.now.toNat + n) * config.engine.tick.orMilli.nanos⟩
  have hreading : s.clock + ⟨n * config.engine.tick.orMilli.nanos⟩ = reading := by
    refine congrArg Duration.mk ?_
    rw [h.clock, Nat.add_mul]
  have htotal : (s.daemon.pacer.total reading).toNat = s.daemon.engine.now.toNat + n :=
    h.total hfit rfl
  have hbehind : s.daemon.pacer.issued ≤ s.daemon.pacer.total reading := by
    rw [h.issued, UInt64.le_iff_toNat_le]
    omega
  have hdue := Paced.due (s := ⟨s.daemon, reading⟩) ⟨h.issued, hbehind⟩
  have hn : (s.daemon.pacer.due reading).1.toNat = n := by
    simp only [htotal] at hdue
    omega
  have hsome : ¬(s.daemon.pacer.due reading).1 = 0 := fun hz => by
    rw [hz] at hn
    exact absurd hn (Nat.ne_of_lt hpos)
  refine ⟨(s.daemon.pacer.due reading).2, rfl, rfl, htotal, ?_⟩
  show (⟨(s.daemon.tick (s.clock + ⟨_⟩)).2, s.clock + ⟨_⟩⟩ : Session) = _
  rw [hreading]
  simp only [Daemon.tick, hsome, ↓reduceIte, Engine.advanceBy, hn]
  rfl

theorem InStep.serve (h : InStep config s) : InStep config (s.turn .serve) := by
  refine ⟨?_, ?_, ?_, ?_⟩
  all_goals simp only [Session.turn, s.daemon.servePeer_frame.1, s.daemon.now_servePeer]
  · exact h.tick
  · exact h.origin
  · exact h.issued
  · exact h.clock

structure Asking (config : DaemonConfig) (s : Session) (k : Nat) : Prop where
  inStep : InStep config s
  asked : ∃ p c rejected, s.daemon.Underway config k p c ∧ p.state = .awaitingResponse ∧
    s.daemon.Exchange config [⟨p.entity, .ngSetupRequest p.request⟩] [] rejected ∧
    rejected.toNat = k

structure Asleep (config : DaemonConfig) (s : Session) (k : Nat) (deadline : UInt64) : Prop where
  inStep : InStep config s
  resting : ∃ p c timer rejected, s.daemon.Underway config k p c ∧
    s.daemon.engine.Waiting p.id ⟨.setup p, 0⟩ timer deadline ∧
    s.daemon.Exchange config [] [] rejected ∧ rejected.toNat = k + 1
  waited : config.Waited (k + 1) deadline

theorem Asking.stage {k : Nat} (h : Asking config s k) : s.daemon.Stage config := by
  obtain ⟨p, c, rejected, hu, hp, hx, hrejected⟩ := h.asked
  exact .asked hu hp hx hrejected

theorem Asking.refused {k : Nat} (h : Asking config s k)
    (hN : config.engine.maxSetupRetries.toNat + 1 < 2 ^ 32)
    (hr : k < config.peer.rejectCount.toNat) (hk : k < config.engine.maxSetupRetries.toNat)
    {w : TimeToWait} (hw : config.peer.timeToWait = some w) {n : Nat}
    (hn : n = max 1 (w.duration.ticksToCover config.engine.tick.orMilli))
    (hfit : s.daemon.engine.now.toNat + n < 2 ^ 64) :
    (s.play [.serve, .take]).daemon.engine.now = s.daemon.engine.now ∧
      ∃ deadline, Asleep config (s.play [.serve, .take]) k deadline ∧
        deadline.toNat = s.daemon.engine.now.toNat + n := by
  obtain ⟨p, c, rejected, hu, hp, hx, hrejected⟩ := h.asked
  obtain ⟨hu₁, hrejected₁, hx₁⟩ := hu.meets_refusal hx hrejected hr
  obtain ⟨hu₂, hw₂, hx₂, hnow₂⟩ := hu₁.rests hN hp hx₁ hw hk rfl
  have hnow₁ := s.daemon.now_servePeer
  have hserve := h.inStep.serve
  have htake := Session.turn_take (s := s.turn .serve) hx₁.inbound
  have hplay : s.play [.serve, .take] = (s.turn .serve).turn .take := rfl
  rw [hplay, htake]
  refine ⟨hnow₂.trans hnow₁, _, ⟨⟨hserve.tick, hserve.origin, hserve.issued.trans hnow₂.symm,
    hserve.clock.trans (congrArg (·.toNat * _) hnow₂.symm)⟩, ?_,
    Daemon.waited_scheduled hu₁.waited hu₁.tick hw p.id⟩, ?_⟩
  · exact ⟨_, c, _, _, hu₂.tally hN, ⟨hw₂.task, hw₂.backoff, hw₂.timer⟩, hx₂.tally, hrejected₁⟩
  · have hnow : s.daemon.servePeer.engine.timers.now = s.daemon.engine.now := hnow₁
    rw [TimerService.toNat_deadline_ticksFor, hu₁.tick, hnow]
    omega

theorem Asleep.woken {k : Nat} {deadline : UInt64} (h : Asleep config s k deadline)
    (hN : config.engine.maxSetupRetries.toNat + 1 < 2 ^ 32)
    (hr : k < config.peer.rejectCount.toNat) (hk : k < config.engine.maxSetupRetries.toNat)
    (hi : ∃ w, config.peer.timeToWait = some w) (hlater : s.daemon.engine.now < deadline) :
    ∃ elapsed, Asking config (s.play [.clock elapsed, .tick]) (k + 1) ∧
      (s.play [.clock elapsed, .tick]).daemon.engine.now = deadline := by
  obtain ⟨p, c, timer, rejected, hu, hw, hx, hrejected⟩ := h.resting
  have hlt := UInt64.lt_iff_toNat_lt.1 hlater
  obtain ⟨n, hn⟩ : ∃ n, deadline.toNat = s.daemon.engine.now.toNat + n :=
    ⟨deadline.toNat - s.daemon.engine.now.toNat, by omega⟩
  have hbound := deadline.toNat_lt
  obtain ⟨pacer, htick, horigin, hissued, hplay⟩ := h.inStep.tick_by (n := n) (by omega) (by omega)
  obtain ⟨hu', hx', hnow'⟩ := hu.wakes hN hw hx hr hk h.waited hi (by omega) hn rfl
  refine ⟨⟨n * config.engine.tick.orMilli.nanos⟩, ?_⟩
  rw [hplay]
  refine ⟨⟨⟨htick.trans h.inStep.tick, horigin.trans h.inStep.origin, ?_, ?_⟩, p.resent, c, rejected,
    ?_, rfl, ?_, hrejected⟩, hnow'⟩
  · exact UInt64.toNat_inj.1 (hissued.trans (hn.symm.trans (congrArg UInt64.toNat hnow'.symm)))
  · exact congrArg (· * _) (hn.symm.trans (congrArg UInt64.toNat hnow'.symm))
  · exact Daemon.Underway.tally
      (d := { s.daemon with pacer, engine := n.repeat Engine.advance s.daemon.engine })
      (hu'.transfer hu'.paired rfl rfl rfl rfl (Nat.le_refl _)) hN
  · exact ⟨hx'.gateway, hx'.inbound, hx'.peer⟩

/-- the peer accepts, or the daemon gives up -/
theorem Asking.settled {k : Nat} (h : Asking config s k)
    (hN : config.engine.maxSetupRetries.toNat + 1 < 2 ^ 32)
    (hlast : k < config.peer.rejectCount.toNat →
      config.peer.timeToWait = none ∨ config.engine.maxSetupRetries.toNat ≤ k) :
    (s.play [.serve, .take]).daemon.settled = true := by
  obtain ⟨p, c, rejected, hu, hp, hx, hrejected⟩ := h.asked
  have hplay : s.play [.serve, .take] = (s.turn .serve).turn .take := rfl
  rw [hplay]
  by_cases hr : k < config.peer.rejectCount.toNat
  · obtain ⟨hu₁, -, hx₁⟩ := hu.meets_refusal hx hrejected hr
    rw [Session.turn_take (s := s.turn .serve) hx₁.inbound]
    exact (hu₁.gives_up hN hp hx₁ hr (hlast hr)).settled
  · obtain ⟨hu₁, hk, response, ha, hx₁⟩ := hu.meets_acceptance hx hrejected hr
    rw [Session.turn_take (s := s.turn .serve) hx₁.inbound]
    exact (hu₁.takes_acceptance hp hx₁ hk ha).settled

theorem TimeToWait.one_le_ticksToCover (w : TimeToWait) {tick : Duration} (h : 0 < tick.nanos) :
    1 ≤ w.duration.ticksToCover tick := by
  have hpos : 0 < w.duration.nanos := by cases w <;> decide
  rw [Nat.one_le_iff_ne_zero, ← Nat.pos_iff_ne_zero, ← Nat.not_le, Duration.ticksToCover_le_iff h,
    Nat.zero_mul]
  exact Nat.not_le.2 hpos

/-- Round by round a session comes to its end, as long as there are ticks for the waits. -/
theorem Asking.settles (hN : config.engine.maxSetupRetries.toNat + 1 < 2 ^ 32) (i : Nat) {k : Nat}
    (h : Asking config s k)
    (hi : min config.peer.rejectCount.toNat config.engine.maxSetupRetries.toNat ≤ k + i)
    (hfit : ∀ w, config.peer.timeToWait = some w → s.daemon.engine.now.toNat +
      i * w.duration.ticksToCover config.engine.tick.orMilli < 2 ^ 64) :
    ∃ turns, (s.play turns).daemon.settled = true := by
  induction i generalizing s k with
  | zero => exact ⟨_, h.settled hN fun hr => .inr (by omega)⟩
  | succ i ih =>
    by_cases hlast : k < config.peer.rejectCount.toNat →
        config.peer.timeToWait = none ∨ config.engine.maxSetupRetries.toNat ≤ k
    · exact ⟨_, h.settled hN hlast⟩
    · obtain ⟨hr, hmore⟩ := Classical.not_imp.1 hlast
      obtain ⟨hwait, hk⟩ := not_or.1 hmore
      obtain ⟨w, hw⟩ := Option.ne_none_iff_exists'.1 hwait
      have hcover := w.one_le_ticksToCover (Duration.orMilli_pos config.engine.tick)
      have hfit := hfit w hw
      rw [Nat.add_mul, Nat.one_mul] at hfit
      obtain ⟨hnow, deadline, hasleep, hdeadline⟩ :=
        h.refused hN hr (by omega) hw (Nat.max_eq_right hcover).symm (by omega)
      have hlater : (s.play [.serve, .take]).daemon.engine.now < deadline := by
        rw [hnow, UInt64.lt_iff_toNat_lt]
        omega
      obtain ⟨elapsed, hasking, hthen⟩ := hasleep.woken hN hr (by omega) ⟨w, hw⟩ hlater
      obtain ⟨turns, hsettled⟩ := ih hasking (by omega) fun w' hw' => by
        obtain rfl := Option.some.inj (hw.symm.trans hw')
        rw [hthen]
        omega
      refine ⟨[.serve, .take] ++ ([.clock elapsed, .tick] ++ turns), ?_⟩
      rw [Session.play_append, Session.play_append]
      exact hsettled

end

/-- the daemon that has launched its connection -/
def Daemon.launched (config : DaemonConfig) (ids : IdSource)
    (engine : Engine (TracedGateway ChannelGateway)) : Daemon where
  engine
  connection := ⟨ids.draw.2.draw.1, 1⟩
  pacer := .new .zero config.engine.tick
  peer := { amf := { script := config.peer } }

/-- A daemon starts whenever the first two names differ. -/
theorem Daemon.startup_eq (config : DaemonConfig) (ids : IdSource) (reading : Duration)
    (hids : ids.draw.1 ≠ ids.draw.2.draw.1) :
    ∃ e, Daemon.startup config ids reading =
        .ok ({ Daemon.launched config ids e with
          pacer := .new reading config.engine.tick } : Daemon).tally ∧
      e.Launched (⟨{}⟩ : TracedGateway ChannelGateway) ids config.engine
        ⟨config.amf, config.setupMessage, config.engine.maxSetupRetries⟩ config.controller := by
  obtain ⟨e, he, hl⟩ := Engine.launchConnection_new (⟨{}⟩ : TracedGateway ChannelGateway) ids
    config.engine config.controller
    ((Engine.new (⟨{}⟩ : TracedGateway ChannelGateway) ids config.engine).setupRequest config.amf
      config.setupMessage) hids
  refine ⟨e, ?_, hl⟩
  simp only [Daemon.startup, he]
  rfl

theorem Daemon.requests_launched {config : DaemonConfig} {ids : IdSource}
    {e : Engine (TracedGateway ChannelGateway)}
    (hl : e.Launched (⟨{}⟩ : TracedGateway ChannelGateway) ids config.engine
      ⟨config.amf, config.setupMessage, config.engine.maxSetupRetries⟩ config.controller) :
    (Daemon.launched config ids e).requests = 1 := by
  obtain ⟨event, event', hevent, hevent', hlog⟩ := hl.log
  have hsent : (Event.requestSent ids.draw.1 1).isRequest = true := rfl
  simp [Daemon.requests, Daemon.launched, hlog, requestsIn, Event.isRequest_eq_false hevent,
    Event.isRequest_eq_false hevent', hsent]

theorem Session.start_eq (config : DaemonConfig) (ids : IdSource)
    (hids : ids.draw.1 ≠ ids.draw.2.draw.1) :
    ∃ e, Session.start config ids = .ok ⟨(Daemon.launched config ids e).tally, .zero⟩ ∧
      e.Launched (⟨{}⟩ : TracedGateway ChannelGateway) ids config.engine
        ⟨config.amf, config.setupMessage, config.engine.maxSetupRetries⟩ config.controller := by
  obtain ⟨e, he, hl⟩ := Daemon.startup_eq config ids .zero hids
  refine ⟨e, ?_, hl⟩
  rw [Session.start, he]
  rfl

theorem Session.names_ne_of_start {config : DaemonConfig} {ids : IdSource} {s : Session}
    (h : Session.start config ids = .ok s) : ids.draw.1 ≠ ids.draw.2.draw.1 := by
  simp only [Session.start, Daemon.startup] at h
  split at h
  · simp [Except.map] at h
  · next he => exact Engine.names_ne_of_launchConnection he

theorem Session.start_asking (config : DaemonConfig) (ids : IdSource)
    (hN : config.engine.maxSetupRetries.toNat + 1 < 2 ^ 32)
    (hids : ids.draw.1 ≠ ids.draw.2.draw.1) :
    ∃ s, Session.start config ids = .ok s ∧ Asking config s 0 ∧ s.daemon.engine.now = 0 := by
  obtain ⟨e, hstart, hl⟩ := Session.start_eq config ids hids
  let d := Daemon.launched config ids e
  have hnow : e.now = 0 := congrArg TimerService.now hl.timers
  have hu : d.Underway config 0 _ _ := {
    paired := hl.paired
    connection := rfl
    tick := congrArg TimerService.tick hl.timers
    numbers := by
      have hnext : d.engine.timers.nextId.toNat = 1 := congrArg (·.nextId.toNat) hl.timers
      exact ⟨by omega, fun _ => by omega⟩
    entity := rfl
    budget := rfl
    attempts := rfl
    transmissions := rfl
    requests := Daemon.requests_launched hl
    retried := Nat.zero_le _
    refused := Nat.zero_le _
    imposed := fun hpos => absurd hpos (Nat.lt_irrefl 0)
    waited := fun w _ => by simp }
  refine ⟨_, hstart, ⟨⟨rfl, rfl, hnow.symm, ?_⟩, ?_⟩, hnow⟩
  · show 0 = e.now.toNat * _
    rw [hnow]
    exact (Nat.zero_mul _).symm
  · exact ⟨_, _, _, hu.tally hN, rfl, ⟨hl.gateway, rfl, rfl⟩, rfl⟩

/-- A session can come to its end, as long as there are ticks for the waits. -/
theorem Session.settles (config : DaemonConfig) (ids : IdSource)
    (hN : config.engine.maxSetupRetries.toNat + 1 < 2 ^ 32) (hids : ids.draw.1 ≠ ids.draw.2.draw.1)
    (hfit : ∀ w, config.peer.timeToWait = some w →
      min config.peer.rejectCount.toNat config.engine.maxSetupRetries.toNat *
        w.duration.ticksToCover config.engine.tick.orMilli < 2 ^ 64) :
    ∃ s turns, Session.start config ids = .ok s ∧ (s.play turns).daemon.settled = true := by
  obtain ⟨s, hstart, hasking, hnow⟩ := Session.start_asking config ids hN hids
  obtain ⟨turns, hsettled⟩ := hasking.settles hN _ (Nat.le_of_eq (Nat.zero_add _).symm) fun w hw => by
    rw [hnow, UInt64.toNat_zero, Nat.zero_add]
    exact hfit w hw
  exact ⟨s, turns, hstart, hsettled⟩

end NgapProcedures
