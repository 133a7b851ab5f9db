import NgapProcedures.Proofs.Daemon.Stages

/-! From stage to stage. A tick ends a wait or passes by, the peer answers the request that waits for
it, and the reply that is taken ends the setup or makes it wait. -/

namespace NgapProcedures.Daemon

open Engine

variable {config : DaemonConfig} {d : Daemon} {k : Nat}
  {p : RetryProcedure NgSetupRequest NgSetupResponse} {c : AmfConnection}
  {sent replies : List PeerMessage} {rejected : UInt32}

theorem Exchange.tally (h : d.Exchange config sent replies rejected) :
    d.tally.Exchange config sent replies rejected :=
  ⟨h.gateway, h.inbound, h.peer⟩

theorem Underway.tally (h : d.Underway config k p c)
    (hN : config.engine.maxSetupRetries.toNat + 1 < 2 ^ 32) : d.tally.Underway config k p c := by
  have hs : d.tally.engine.Steady := h.paired.steady.after [.drainEvents]
  have hp : d.tally.engine.Paired p c :=
    h.paired.transfer hs (h.paired.timed.transfer rfl rfl) rfl rfl
  have hlt : d.requests < 2 ^ 32 := by
    have := h.requests
    have := h.retried
    omega
  exact h.transfer hp rfl rfl rfl (requests_tally hlt).1 (Nat.le_refl _)

theorem Stage.tally (h : d.Stage config) (hN : config.engine.maxSetupRetries.toNat + 1 < 2 ^ 32) :
    d.tally.Stage config := by
  cases h with
  | asked hu hp hx hk => exact .asked (hu.tally hN) hp hx.tally hk
  | refused hu hp hx hk hr => exact .refused (hu.tally hN) hp hx.tally hk hr
  | accepted hu hp hx hk ha => exact .accepted (hu.tally hN) hp hx.tally hk ha
  | resting hu hw hx hk hr hn hd hi =>
    exact .resting (hu.tally hN) ⟨hw.task, hw.backoff, hw.timer⟩ hx.tally hk hr hn hd hi
  | ended ho =>
    obtain ⟨rejected, hx⟩ := ho.exchange
    have hlt : d.requests < 2 ^ 32 := by
      have := config.ending_requests_le
      have := ho.requests
      omega
    have hs : d.tally.engine.Steady := ho.steady.after [.drainEvents]
    exact .ended (ho.transfer hs rfl rfl rfl (requests_tally hlt).1 (Nat.le_refl _)
      ⟨rejected, hx.tally⟩)

def advance (d : Daemon) : Daemon := { d with engine := d.engine.advance }

theorem Underway.idles (h : d.Underway config k p c)
    (hfit : d.engine.now.toNat + 1 < 2 ^ 64)
    (he : d.engine.advance = { d.engine with timers := d.engine.timers.advance.2 })
    (hp : d.engine.advance.Paired p c) : d.advance.Underway config k p c := by
  have hnow : (d.engine.timers.now + 1).toNat = d.engine.now.toNat + 1 := toNat_add_one hfit
  refine h.transfer hp rfl ?_ ?_ ?_ ?_
  all_goals simp only [Daemon.advance, Daemon.requests, Engine.now, he]
  · rfl
  · rfl
  · exact Nat.le_of_lt (hnow ▸ Nat.lt_succ_self _)

theorem Exchange.idles (h : d.Exchange config sent replies rejected)
    (he : d.engine.advance = { d.engine with timers := d.engine.timers.advance.2 }) :
    d.advance.Exchange config sent replies rejected := by
  refine ⟨?_, h.inbound, h.peer⟩
  simp only [Daemon.advance, he]
  exact h.gateway

theorem Underway.waits (h : d.Underway config k p c) (hfit : d.engine.now.toNat + 1 < 2 ^ 64)
    {timer : TimerId} {deadline : UInt64}
    (hw : d.engine.Waiting p.id ⟨.setup p, 0⟩ timer deadline)
    (hx : d.Exchange config sent replies rejected) (hlater : d.engine.now + 1 < deadline) :
    d.advance.Underway config k p c ∧
      d.advance.engine.Waiting p.id ⟨.setup p, 0⟩ timer deadline ∧
      d.advance.Exchange config sent replies rejected := by
  have hexpiring := h.paired.timed.mem_expiring_iff h.paired.steady.coherent hw.timer
  obtain ⟨he, hp⟩ := h.paired.advance_idle (mt hexpiring.1 (UInt64.not_le.2 hlater))
  exact ⟨h.idles hfit he hp, hw.advance h.paired.steady h.paired.timed hlater, hx.idles he⟩

/-- the wait is over, and the request is on its way again -/
theorem Underway.fires (h : d.Underway config k p c)
    (hN : config.engine.maxSetupRetries.toNat + 1 < 2 ^ 32) {timer : TimerId} {deadline : UInt64}
    (hw : d.engine.Waiting p.id ⟨.setup p, 0⟩ timer deadline) (hdue : deadline ≤ d.engine.now + 1)
    (hx : d.Exchange config [] [] rejected)
    (hr : k < config.peer.rejectCount.toNat) (hn : k < config.engine.maxSetupRetries.toNat)
    (hd : config.Waited (k + 1) deadline) (hi : ∃ w, config.peer.timeToWait = some w) :
    d.advance.Underway config (k + 1) p.resent c ∧
      d.advance.Exchange config [⟨p.entity, .ngSetupRequest p.request⟩] [] rejected := by
  obtain ⟨he, hp⟩ := h.paired.advance_due hw hdue
  have hattempts := h.attempts
  have htransmissions := h.transmissions
  have hrequests := h.requests
  refine ⟨{ h with
    paired := hp
    tick := ?_
    numbers := ?_
    attempts := ?_
    transmissions := ?_
    requests := ?_
    retried := hn
    refused := hr
    imposed := fun _ => hi
    waited := hd.mono ?_ }, ?_, hx.inbound, hx.peer⟩
  · simp only [Daemon.advance, he]
    exact h.tick
  · simp only [Daemon.advance, he]
    exact ⟨Nat.le_succ_of_le h.numbers.1, fun _ => h.numbers.1⟩
  · rw [RetryProcedure.resent, UInt32.toNat_add, UInt32.toNat_one, Nat.mod_eq_of_lt (by omega)]
    omega
  · rw [RetryProcedure.resent, UInt32.toNat_add, UInt32.toNat_one, Nat.mod_eq_of_lt (by omega)]
    omega
  · simp only [Daemon.requests, Daemon.advance, he, Engine.transmit, requestsIn_append] at hrequests ⊢
    simp only [requestsIn, List.countP_singleton, Event.isRequest, ↓reduceIte] at hrequests ⊢
    omega
  · simp only [Daemon.advance, he]
    exact UInt64.le_iff_toNat_le.1 hdue
  · simp only [Daemon.advance, he, Engine.transmit, hx.gateway]
    rfl

theorem Stage.advance (h : d.Stage config)
    (hN : config.engine.maxSetupRetries.toNat + 1 < 2 ^ 32)
    (hfit : d.engine.now.toNat + 1 < 2 ^ 64) : d.advance.Stage config := by
  cases h with
  | asked hu hp hx hk =>
    obtain ⟨he, hp'⟩ := hu.paired.advance_awaiting hp
    exact .asked (hu.idles hfit he hp') hp (hx.idles he) hk
  | refused hu hp hx hk hr =>
    obtain ⟨he, hp'⟩ := hu.paired.advance_awaiting hp
    exact .refused (hu.idles hfit he hp') hp (hx.idles he) hk hr
  | accepted hu hp hx hk ha =>
    obtain ⟨he, hp'⟩ := hu.paired.advance_awaiting hp
    exact .accepted (hu.idles hfit he hp') hp (hx.idles he) hk ha
  | @resting k p c rejected timer deadline hu hw hx hk hr hn hd hi =>
    by_cases hdue : deadline ≤ d.engine.now + 1
    · obtain ⟨hu', hx'⟩ := hu.fires hN hw hdue hx hr hn hd hi
      exact .asked hu' rfl hx' hk
    · obtain ⟨hu', hw', hx'⟩ := hu.waits hfit hw hx (UInt64.not_le.1 hdue)
      exact .resting hu' hw' hx' hk hr hn hd hi
  | ended ho =>
    have he := ho.steady.coherent.advance_of_empty ho.steady.quiet ho.tasks
    obtain ⟨rejected, hx⟩ := ho.exchange
    have hnow : (d.engine.timers.now + 1).toNat = d.engine.now.toNat + 1 := toNat_add_one hfit
    refine .ended (ho.transfer (ho.steady.after [.advance]) ?_ ?_ rfl ?_ ?_ ⟨rejected, hx.idles he⟩)
    all_goals simp only [Daemon.advance, Daemon.requests, Engine.now, he]
    exact Nat.le_of_lt (hnow ▸ Nat.lt_succ_self _)

theorem Stage.steady (h : d.Stage config) : d.engine.Steady := by
  cases h with
  | asked hu => exact hu.paired.steady
  | refused hu => exact hu.paired.steady
  | accepted hu => exact hu.paired.steady
  | resting hu => exact hu.paired.steady
  | ended ho => exact ho.steady

theorem Stage.repeat_advance (h : d.Stage config)
    (hN : config.engine.maxSetupRetries.toNat + 1 < 2 ^ 32) (n : Nat)
    (hfit : d.engine.now.toNat + n < 2 ^ 64) :
    ({ d with engine := n.repeat Engine.advance d.engine } : Daemon).Stage config ∧
      (n.repeat Engine.advance d.engine).now.toNat = d.engine.now.toNat + n := by
  induction n with
  | zero => exact ⟨h, rfl⟩
  | succ n ih =>
    obtain ⟨hstage, hnow⟩ := ih (by omega)
    have hnext : (n.repeat Engine.advance d.engine).advance.now =
        (n.repeat Engine.advance d.engine).now + 1 := hstage.steady.now_advance
    have hlt : (n.repeat Engine.advance d.engine).now.toNat + 1 < 2 ^ 64 := by omega
    refine ⟨hstage.advance hN hlt, ?_⟩
    rw [Nat.repeat, hnext, toNat_add_one hlt, hnow]
    omega

theorem Stage.withPacer (h : d.Stage config) (pacer : TickPacer) :
    ({ d with pacer } : Daemon).Stage config := by
  have hkeep {k : Nat} {p : RetryProcedure NgSetupRequest NgSetupResponse} {c : AmfConnection}
      (hu : d.Underway config k p c) : ({ d with pacer } : Daemon).Underway config k p c :=
    hu.transfer hu.paired rfl rfl rfl rfl (Nat.le_refl _)
  have hsame {sent replies : List PeerMessage} {rejected : UInt32}
      (hx : d.Exchange config sent replies rejected) :
      ({ d with pacer } : Daemon).Exchange config sent replies rejected :=
    ⟨hx.gateway, hx.inbound, hx.peer⟩
  cases h with
  | asked hu hp hx hk => exact .asked (hkeep hu) hp (hsame hx) hk
  | refused hu hp hx hk hr => exact .refused (hkeep hu) hp (hsame hx) hk hr
  | accepted hu hp hx hk ha => exact .accepted (hkeep hu) hp (hsame hx) hk ha
  | resting hu hw hx hk hr hn hd hi => exact .resting (hkeep hu) hw (hsame hx) hk hr hn hd hi
  | ended ho =>
    obtain ⟨rejected, hx⟩ := ho.exchange
    exact .ended (ho.transfer ho.steady rfl rfl rfl rfl (Nat.le_refl _) ⟨rejected, hsame hx⟩)

theorem Stage.tick (h : d.Stage config) (hN : config.engine.maxSetupRetries.toNat + 1 < 2 ^ 32)
    (reading : Duration)
    (hfit : d.engine.now.toNat + (d.pacer.due reading).1.toNat < 2 ^ 64) :
    (d.tick reading).2.Stage config := by
  have hp := h.withPacer (d.pacer.due reading).2
  unfold Daemon.tick
  dsimp only
  split
  · exact hp
  · exact (hp.repeat_advance hN _ hfit).1.tally hN

def refusalOf (config : DaemonConfig) : Rejection :=
  ⟨⟨.misc, "unspecified"⟩, config.peer.timeToWait⟩

theorem wait?_refusalOf (config : DaemonConfig) :
    (refusalOf config).wait? = config.peer.timeToWait.map (·.duration) := rfl

theorem Exchange.servePeer_eq (h : d.Exchange config [] replies rejected) : d.servePeer = d := by
  have hback : ({ d.engine with gateway := ⟨{ waiting := [] }⟩ } :
      Engine (TracedGateway ChannelGateway)) = d.engine := by
    rw [← h.gateway]
  simp only [servePeer, ChannelGateway.receive, h.gateway, List.foldl_nil, hback]

theorem Underway.served (h : d.Underway config k p c)
    (hx : d.Exchange config [⟨p.entity, .ngSetupRequest p.request⟩] [] rejected)
    {reply : PeerMessage} {amf : ScriptedAmf}
    (hr : ScriptedAmf.respond ⟨config.peer, rejected⟩ ⟨p.entity, .ngSetupRequest p.request⟩ =
      (some reply, amf)) :
    d.servePeer.Underway config k p c ∧ d.servePeer.inbound = [reply] ∧
      d.servePeer.engine.gateway = ⟨{ waiting := [] }⟩ ∧ d.servePeer.peer = { amf } := by
  have hserve : d.servePeer = { d with
      engine := { d.engine with gateway := ⟨{ waiting := [] }⟩ }
      inbound := [reply]
      peer := { amf } } := by
    simp [servePeer, ChannelGateway.receive, hx.gateway, hx.inbound, hx.peer, PeerService.serve, hr]
  rw [hserve]
  have hs := h.paired.steady.rewire fun _ => (⟨{ waiting := [] }⟩ : TracedGateway ChannelGateway)
  exact ⟨h.transfer (h.paired.transfer hs (h.paired.timed.transfer rfl rfl) rfl rfl) rfl rfl rfl rfl
    (Nat.le_refl _), rfl, rfl, rfl⟩

/-- the peer refuses as long as its script says -/
theorem Underway.meets_refusal (h : d.Underway config k p c)
    (hx : d.Exchange config [⟨p.entity, .ngSetupRequest p.request⟩] [] rejected)
    (hk : rejected.toNat = k) (hr : k < config.peer.rejectCount.toNat) :
    d.servePeer.Underway config k p c ∧ (rejected + 1).toNat = k + 1 ∧
      d.servePeer.Exchange config [] [⟨config.amf, .ngSetupFailure (refusalOf config)⟩]
        (rejected + 1) := by
  have hlt : rejected < config.peer.rejectCount := UInt32.lt_iff_toNat_lt.2 (hk ▸ hr)
  obtain ⟨hu, hin, hgate, hpeer⟩ := h.served hx (if_pos hlt)
  have hbound := config.peer.rejectCount.toNat_lt
  refine ⟨hu, ?_, hgate, hin.trans ?_, hpeer⟩
  · rw [UInt32.toNat_add, UInt32.toNat_one, Nat.mod_eq_of_lt (by omega), hk]
  · rw [h.entity]
    rfl

theorem Underway.meets_acceptance (h : d.Underway config k p c)
    (hx : d.Exchange config [⟨p.entity, .ngSetupRequest p.request⟩] [] rejected)
    (hk : rejected.toNat = k) (hr : ¬k < config.peer.rejectCount.toNat) :
    d.servePeer.Underway config k p c ∧ k = config.peer.rejectCount.toNat ∧
      ∃ response : NgSetupResponse, response.amfName = config.peer.amfName ∧
        d.servePeer.Exchange config [] [⟨config.amf, .ngSetupResponse response⟩] rejected := by
  have hlt : ¬rejected < config.peer.rejectCount := by
    rwa [UInt32.lt_iff_toNat_lt, hk]
  obtain ⟨hu, hin, hgate, hpeer⟩ := h.served hx (if_neg hlt)
  have hle := h.refused
  exact ⟨hu, by omega, _, rfl, hgate, hin.trans (by rw [h.entity]), hpeer⟩

theorem Stage.servePeer (h : d.Stage config) : d.servePeer.Stage config := by
  cases h with
  | refused hu hp hx hk hr =>
    rw [hx.servePeer_eq]
    exact .refused hu hp hx hk hr
  | accepted hu hp hx hk ha =>
    rw [hx.servePeer_eq]
    exact .accepted hu hp hx hk ha
  | resting hu hw hx hk hr hn hd hi =>
    rw [hx.servePeer_eq]
    exact .resting hu hw hx hk hr hn hd hi
  | ended ho =>
    obtain ⟨rejected, hx⟩ := ho.exchange
    rw [hx.servePeer_eq]
    exact .ended ho
  | @asked k p c rejected hu hp hx hk =>
    by_cases hr : k < config.peer.rejectCount.toNat
    · obtain ⟨hu', hk', hx'⟩ := hu.meets_refusal hx hk hr
      exact .refused hu' hp hx' hk' hr
    · obtain ⟨hu', hk', response, ha, hx'⟩ := hu.meets_acceptance hx hk hr
      exact .accepted hu' hp hx' hk' ha

/-- a reply that ends the setup with the outcome that the script leads to -/
theorem Underway.ends (h : d.Underway config k p c) {m : PeerMessage}
    (hx : d.Exchange config [] [m] rejected) {outcome : RetryOutcome NgSetupResponse}
    (hc : d.engine.Concluded outcome (d.engine.handleMessage m).2)
    (hout : config.ending = (AmfConnection.outcomeOf outcome, k + 1))
    (hw : config.Waited
      (min config.peer.rejectCount.toNat config.engine.maxSetupRetries.toNat) d.engine.now) :
    ({ d with inbound := [], engine := (d.engine.handleMessage m).2 } : Daemon).Ended config where
  steady := hc.steady
  tasks := hc.tasks
  slot := by rw [h.connection]
  result := by rw [hout]; exact hc.result
  requests := by
    obtain ⟨event, event', hevent, hevent', hlog⟩ := hc.log
    have hrequests := h.requests
    rw [hout, ← hrequests]
    simp [Daemon.requests, hlog, requestsIn, Event.isRequest_eq_false hevent,
      Event.isRequest_eq_false hevent', List.countP_append]
  waited := hc.now ▸ hw
  exchange := ⟨rejected, hc.gateway.trans hx.gateway, rfl, hx.peer⟩

theorem Underway.takes_acceptance (h : d.Underway config k p c) (hp : p.state = .awaitingResponse)
    {response : NgSetupResponse}
    (hx : d.Exchange config [] [⟨config.amf, .ngSetupResponse response⟩] rejected)
    (hk : k = config.peer.rejectCount.toNat) (ha : response.amfName = config.peer.amfName) :
    ({ d with
      inbound := []
      engine := (d.engine.handleMessage ⟨config.amf, .ngSetupResponse response⟩).2 } :
        Daemon).Ended config := by
  have hretried := h.retried
  have hc := h.paired.concluded (m := ⟨config.amf, .ngSetupResponse response⟩) hp h.entity.symm rfl
    (RetryProcedure.transition_success ngSetup hp response) rfl rfl (by simp)
  refine h.ends hx hc ?_ ?_
  · rw [AmfConnection.outcomeOf, ha]
    unfold DaemonConfig.ending
    split
    · next hzero => simp [hk, hzero]
    · next hsome =>
      have hpos : 0 < k := by
        rw [hk]
        exact Nat.pos_of_ne_zero fun he => hsome (UInt32.toNat_inj.1 he)
      obtain ⟨w, hw⟩ := h.imposed hpos
      have hle : config.peer.rejectCount ≤ config.engine.maxSetupRetries :=
        UInt32.le_iff_toNat_le.2 (hk ▸ hretried)
      simp [hw, hle, hk]
  · rw [← hk, Nat.min_eq_left hretried]
    exact h.waited

/-- a wait that begins once `k` waits have gone by ends when one more has -/
theorem waited_scheduled {timers : TimerService} {k : Nat} (h : config.Waited k timers.now)
    (htick : timers.tick = config.engine.tick.orMilli) {w : TimeToWait}
    (hw : config.peer.timeToWait = some w) (owner : ProcedureId) :
    config.Waited (k + 1) (timers.scheduled owner (timers.ticksFor w.duration)).deadline := by
  intro w' hw'
  obtain rfl := Option.some.inj (hw.symm.trans hw')
  have hwaited := h w hw
  rw [TimerService.toNat_deadline_ticksFor, htick, Nat.add_mul, Nat.one_mul]
  omega

/-- a refusal that leaves a retry -/
theorem Underway.rests (h : d.Underway config k p c)
    (hN : config.engine.maxSetupRetries.toNat + 1 < 2 ^ 32) (hp : p.state = .awaitingResponse)
    (hx : d.Exchange config [] [⟨config.amf, .ngSetupFailure (refusalOf config)⟩] rejected)
    {w : TimeToWait} (hw : config.peer.timeToWait = some w)
    (hn : k < config.engine.maxSetupRetries.toNat) {d' : Daemon}
    (hd : { d with
      inbound := []
      engine := (d.engine.handleMessage ⟨config.amf, .ngSetupFailure (refusalOf config)⟩).2 } =
        d') :
    d'.Underway config k (p.backedOff (refusalOf config)) c ∧
      d'.engine.Waiting p.id ⟨.setup (p.backedOff (refusalOf config)), 0⟩ d.engine.timers.nextId
        (d.engine.timers.scheduled p.id (d.engine.timers.ticksFor w.duration)).deadline ∧
      d'.Exchange config [] [] rejected ∧ d'.engine.now = d.engine.now := by
  subst hd
  have hdelay : (refusalOf config).wait? = some w.duration := by rw [wait?_refusalOf, hw]; rfl
  have hb : p.attempts < p.maxRetries := by
    rw [UInt32.lt_iff_toNat_lt, h.budget, h.attempts]
    exact hn
  have hnumbers := h.numbers.2 hp
  obtain ⟨he, hpaired, hwaiting⟩ := h.paired.backs
    (h.paired.backs_of_awaiting hp (m := ⟨config.amf, .ngSetupFailure (refusalOf config)⟩)
      h.entity.symm rfl hdelay hb) (by omega)
  have ha := (h.paired.steady.coherent.unarmed h.paired.setup (by
    simp [Machine.waitingFor, RetryProcedure.waitingFor, hp])).1
  rw [backedOff, backOff_eq ha] at he
  refine ⟨{ h with
    paired := hpaired
    tick := ?_
    numbers := ?_
    requests := ?_
    waited := ?_ }, hwaiting, ⟨?_, rfl, hx.peer⟩, ?_⟩
  · rw [he]
    exact h.tick
  · rw [he]
    have hnext : (d.engine.timers.nextId + 1).toNat ≤ k + 2 := by
      rw [toNat_add_one (by omega)]
      omega
    exact ⟨hnext, fun hs => by simp [RetryProcedure.backedOff] at hs⟩
  · have hrequests := h.requests
    simp only [Daemon.requests, he, requestsIn_append] at hrequests ⊢
    exact hrequests
  · rw [he]
    exact h.waited
  · rw [he]
    exact hx.gateway
  · rw [he]
    rfl

theorem Underway.gives_up_unretried (h : d.Underway config k p c) (hp : p.state = .awaitingResponse)
    (hx : d.Exchange config [] [⟨config.amf, .ngSetupFailure (refusalOf config)⟩] rejected)
    (hsome : config.peer.rejectCount ≠ 0) (hw : config.peer.timeToWait = none) :
    ({ d with
      inbound := []
      engine := (d.engine.handleMessage ⟨config.amf, .ngSetupFailure (refusalOf config)⟩).2 } :
        Daemon).Ended config := by
  have hzero : k = 0 := by
    refine Nat.eq_zero_of_not_pos fun hpos => ?_
    obtain ⟨w, hsome⟩ := h.imposed hpos
    simp [hw] at hsome
  have hfinal : (refusalOf config).wait? = none := by rw [wait?_refusalOf, hw]; rfl
  have hfailure := RetryProcedure.transition_failure ngSetup hp (refusalOf config)
  rw [RetryProcedure.onFailure_final hfinal] at hfailure
  have hc := h.paired.concluded (m := ⟨config.amf, .ngSetupFailure (refusalOf config)⟩) hp
    h.entity.symm rfl hfailure rfl rfl (by simp)
  refine h.ends hx hc ?_ fun w hsome => ?_
  · simp [DaemonConfig.ending, hsome, hw, hzero, AmfConnection.outcomeOf, refusalOf]
  · simp [hw] at hsome

theorem Underway.gives_up_spent (h : d.Underway config k p c)
    (hN : config.engine.maxSetupRetries.toNat + 1 < 2 ^ 32) (hp : p.state = .awaitingResponse)
    (hx : d.Exchange config [] [⟨config.amf, .ngSetupFailure (refusalOf config)⟩] rejected)
    (hr : k < config.peer.rejectCount.toNat) {w : TimeToWait}
    (hw : config.peer.timeToWait = some w) (hspent : k = config.engine.maxSetupRetries.toNat) :
    ({ d with
      inbound := []
      engine := (d.engine.handleMessage ⟨config.amf, .ngSetupFailure (refusalOf config)⟩).2 } :
        Daemon).Ended config := by
  have hattempts := h.attempts
  have hdelay : (refusalOf config).wait? = some w.duration := by rw [wait?_refusalOf, hw]; rfl
  have hb : ¬p.attempts < p.maxRetries := by
    rw [UInt32.lt_iff_toNat_lt, h.budget]
    omega
  have hfailure := RetryProcedure.transition_failure ngSetup hp (refusalOf config)
  rw [RetryProcedure.onFailure_spent hdelay hb] at hfailure
  have hc := h.paired.concluded (m := ⟨config.amf, .ngSetupFailure (refusalOf config)⟩) hp
    h.entity.symm rfl hfailure rfl rfl (by simp)
  refine h.ends hx hc ?_ ?_
  · have hsome : config.peer.rejectCount ≠ 0 := fun he => by simp [he] at hr
    have hmore : ¬config.peer.rejectCount ≤ config.engine.maxSetupRetries := fun hle => by
      have := UInt32.le_iff_toNat_le.1 hle
      omega
    have hsent : p.transmissions = config.engine.maxSetupRetries + 1 := by
      refine UInt32.toNat_inj.1 ?_
      rw [h.transmissions, UInt32.toNat_add, UInt32.toNat_one, Nat.mod_eq_of_lt hN, hspent]
    simp [DaemonConfig.ending, hsome, hw, hmore, AmfConnection.outcomeOf, refusalOf, hsent, hspent]
  · rw [← hspent, Nat.min_eq_right (Nat.le_of_lt hr)]
    exact h.waited

/-- a refusal that is final, or that finds the retries spent -/
theorem Underway.gives_up (h : d.Underway config k p c)
    (hN : config.engine.maxSetupRetries.toNat + 1 < 2 ^ 32) (hp : p.state = .awaitingResponse)
    (hx : d.Exchange config [] [⟨config.amf, .ngSetupFailure (refusalOf config)⟩] rejected)
    (hr : k < config.peer.rejectCount.toNat)
    (hlast : config.peer.timeToWait = none ∨ config.engine.maxSetupRetries.toNat ≤ k) :
    ({ d with
      inbound := []
      engine := (d.engine.handleMessage ⟨config.amf, .ngSetupFailure (refusalOf config)⟩).2 } :
        Daemon).Ended config := by
  cases hw : config.peer.timeToWait with
  | none => exact h.gives_up_unretried hp hx (fun he => by simp [he] at hr) hw
  | some w =>
    have hle := hlast.resolve_left (by simp [hw])
    have hretried := h.retried
    exact h.gives_up_spent hN hp hx hr hw (by omega)

theorem Underway.takes_refusal (h : d.Underway config k p c)
    (hN : config.engine.maxSetupRetries.toNat + 1 < 2 ^ 32) (hp : p.state = .awaitingResponse)
    (hx : d.Exchange config [] [⟨config.amf, .ngSetupFailure (refusalOf config)⟩] rejected)
    (hk : rejected.toNat = k + 1) (hr : k < config.peer.rejectCount.toNat) :
    ({ d with
      inbound := []
      engine := (d.engine.handleMessage ⟨config.amf, .ngSetupFailure (refusalOf config)⟩).2 } :
        Daemon).Stage config := by
  cases hw : config.peer.timeToWait with
  | none => exact .ended (h.gives_up hN hp hx hr (.inl hw))
  | some w =>
    by_cases hn : k < config.engine.maxSetupRetries.toNat
    · obtain ⟨hu, hwaiting, hx', -⟩ := h.rests hN hp hx hw hn rfl
      exact .resting hu hwaiting hx' hk hr hn (waited_scheduled h.waited h.tick hw p.id) ⟨w, hw⟩
    · exact .ended (h.gives_up hN hp hx hr (.inr (Nat.le_of_not_lt hn)))

theorem Stage.take (h : d.Stage config) (hN : config.engine.maxSetupRetries.toNat + 1 < 2 ^ 32)
    {m : PeerMessage} {rest : List PeerMessage} (hin : d.inbound = m :: rest) :
    (({ d with inbound := rest } : Daemon).deliver m).Stage config := by
  have hnone {sent : List PeerMessage} {rejected : UInt32}
      (hx : d.Exchange config sent [] rejected) : False := by
    rw [hx.inbound] at hin
    simp at hin
  cases h with
  | asked hu hp hx hk => exact (hnone hx).elim
  | resting hu hw hx => exact (hnone hx).elim
  | ended ho =>
    obtain ⟨rejected, hx⟩ := ho.exchange
    exact (hnone hx).elim
  | refused hu hp hx hk hr =>
    obtain ⟨rfl, rfl⟩ := List.cons.inj (hin.symm.trans hx.inbound)
    exact (hu.takes_refusal hN hp hx hk hr).tally hN
  | accepted hu hp hx hk ha =>
    obtain ⟨rfl, rfl⟩ := List.cons.inj (hin.symm.trans hx.inbound)
    exact (Stage.ended (hu.takes_acceptance hp hx hk ha)).tally hN

end NgapProcedures.Daemon
