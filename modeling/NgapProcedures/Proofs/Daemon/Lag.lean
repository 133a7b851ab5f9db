import NgapProcedures.Proofs.Daemon.Rounds
import NgapProcedures.Proofs.Engine.Alone

/-! The peer's wait by the clock. A backoff counts ticks from the engine's time, which is behind the
clock by the ticks not yet caught up with and the part of a tick that has gone by. The wait is kept but
for that lag, whatever comes in between, and a daemon that was late to catch up sends again early. -/

namespace NgapProcedures

def SessionInput.elapsed : SessionInput → Nat
  | clock elapsed => elapsed.nanos
  | _ => 0

namespace Session

def delivered? (s : Session) : SessionInput → Option PeerMessage
  | .deliver m => some m
  | .pump => s.daemon.servePeer.inbound.head?
  | _ => none

/-- No request was sent on the way: none was counted, and what waits for the peer waited before. -/
structure Silent (s s' : Session) : Prop where
  counted : s'.daemon.setupRequests = s.daemon.setupRequests
  channel : s'.daemon.engine.gateway.inner.waiting <:+ s.daemon.engine.gateway.inner.waiting

theorem Silent.refl (s : Session) : s.Silent s := ⟨rfl, List.suffix_refl _⟩

theorem Silent.trans {s s' s'' : Session} (h : s.Silent s') (h' : s'.Silent s'') : s.Silent s'' :=
  ⟨h'.counted.trans h.counted, h'.channel.trans h.channel⟩

theorem after_append (s : Session) (inputs rest : List SessionInput) :
    s.after (inputs ++ rest) = (s.after inputs).after rest :=
  List.foldl_append

theorem after_cons (s : Session) (input : SessionInput) (rest : List SessionInput) :
    s.after (input :: rest) = (s.step input).after rest :=
  List.foldl_cons ..

/-- the peer has its turn -/
def serve (s : Session) : Session := { s with daemon := s.daemon.servePeer }

theorem silent_serve (s : Session) : s.Silent s.serve := by
  obtain ⟨-, hengine, hrequests⟩ := s.daemon.servePeer_frame
  refine ⟨hrequests, ?_⟩
  simp only [serve, hengine]
  exact List.nil_suffix

def deliver (s : Session) (m : PeerMessage) (inbound : List PeerMessage) : Session :=
  { s with daemon := ({ s.daemon with inbound } : Daemon).deliver m }

theorem step_pump (s : Session) : s.step .pump =
    match s.serve.daemon.inbound with
    | [] => s.serve
    | m :: rest => s.serve.deliver m rest := by
  simp only [step, Daemon.pump, serve, deliver]
  cases s.daemon.servePeer.inbound <;> rfl

theorem clock_step (s : Session) (input : SessionInput) :
    (s.step input).clock.nanos = s.clock.nanos + input.elapsed := by
  cases input <;> rfl

theorem clock_after (s : Session) (inputs : List SessionInput) :
    (s.after inputs).clock.nanos = s.clock.nanos + (inputs.map SessionInput.elapsed).sum := by
  induction inputs generalizing s with
  | nil => rfl
  | cons input rest ih =>
    rw [after_cons, ih, clock_step, List.map_cons, List.sum_cons, Nat.add_assoc]

theorem clock_le_after (s : Session) (inputs : List SessionInput) :
    s.clock.nanos ≤ (s.after inputs).clock.nanos :=
  s.clock_after inputs ▸ Nat.le_add_right ..

end Session

open Session

structure Regular (config : DaemonConfig) (s : Session) : Prop where
  alone : s.daemon.engine.Alone
  paced : Paced s
  drained : s.daemon.engine.log = []
  tick : s.daemon.engine.timers.tick = config.engine.tick.orMilli
  length : s.daemon.pacer.tick = config.engine.tick.orMilli
  origin : s.daemon.pacer.origin = .zero

section

variable {config : DaemonConfig} {s : Session}

theorem Regular.total (h : Regular config s) (reading : Duration) :
    (s.daemon.pacer.total reading).toNat =
      min (reading.nanos / config.engine.tick.orMilli.nanos) (2 ^ 64 - 1) := by
  rw [TickPacer.total, toNat_ofNatClamp, h.origin, h.length]
  rfl

theorem Regular.now_le_total (h : Regular config s) :
    s.daemon.engine.now ≤ s.daemon.pacer.total s.clock :=
  h.paced.issued ▸ h.paced.behind

/-- a tick has not come before the clock shows it -/
theorem Regular.total_lt (h : Regular config s) {reading : Duration} {n : Nat} {deadline : UInt64}
    (hd : deadline.toNat = min n (2 ^ 64 - 1))
    (hn : reading.nanos < n * config.engine.tick.orMilli.nanos)
    (hfit : reading.nanos < (2 ^ 64 - 1) * config.engine.tick.orMilli.nanos) :
    s.daemon.pacer.total reading < deadline := by
  have hpos := Duration.orMilli_pos config.engine.tick
  have hticks := (Nat.div_lt_iff_lt_mul hpos).2 hn
  have hlast := (Nat.div_lt_iff_lt_mul hpos).2 hfit
  rw [UInt64.lt_iff_toNat_lt, h.total, hd]
  omega

theorem Regular.le_total (h : Regular config s) {reading : Duration} {n : Nat} {deadline : UInt64}
    (hd : deadline.toNat = min n (2 ^ 64 - 1))
    (hn : n * config.engine.tick.orMilli.nanos ≤ reading.nanos) :
    deadline ≤ s.daemon.pacer.total reading := by
  have hticks := (Nat.le_div_iff_mul_le (Duration.orMilli_pos config.engine.tick)).2 hn
  rw [UInt64.le_iff_toNat_le, h.total, hd]
  omega

theorem Regular.clock (h : Regular config s) (elapsed : Duration) :
    Regular config (s.step (.clock elapsed)) :=
  ⟨h.alone, h.paced.clock elapsed, h.drained, h.tick, h.length, h.origin⟩

theorem Regular.serve (h : Regular config s) : Regular config s.serve := by
  obtain ⟨hpacer, hengine, -⟩ := s.daemon.servePeer_frame
  have hs : s.serve.daemon.engine.Steady := by
    rw [Session.serve, hengine]
    exact h.alone.steady.rewire fun g => ⟨g.inner.receive.2⟩
  refine ⟨h.alone.transfer hs ?_ ?_ ?_ ?_, h.paced.serve, ?_, ?_, ?_, ?_⟩
  all_goals simp only [Session.serve, hpacer, hengine]
  · exact h.drained
  · exact h.tick
  · exact h.length
  · exact h.origin

theorem Regular.deliver (h : Regular config s) (m : PeerMessage) (inbound : List PeerMessage) :
    Regular config (s.deliver m inbound) := by
  have hs := h.alone.steady
  have hp : Paced { s with daemon := { s.daemon with inbound } } := ⟨h.paced.issued, h.paced.behind⟩
  exact ⟨(h.alone.handleMessage m).transfer (hs.after [.message m, .drainEvents]) rfl rfl rfl rfl,
    hp.deliver hs m, rfl, (hs.tick_after [.message m]).trans h.tick, h.length, h.origin⟩

theorem Regular.caughtUp (h : Regular config s) : Regular config (s.step .tick) := by
  have hs := h.alone.steady
  have hpaced := h.paced.tick hs
  have hpacer : (s.step .tick).daemon.pacer = (s.daemon.pacer.due s.clock).2 :=
    s.daemon.pacer_tick s.clock
  refine ⟨?_, hpaced, ?_, ?_, by rw [hpacer]; exact h.length, by rw [hpacer]; exact h.origin⟩
  all_goals
    rcases s.daemon.tick_cases s.clock with ⟨-, he⟩ | he
  all_goals simp only [step, he]
  · exact h.alone
  · exact (h.alone.advanceBy _).transfer (hs.after [.advanceBy _, .drainEvents]) rfl rfl rfl rfl
  · exact h.drained
  · rfl
  · exact h.tick
  · exact (hs.tick_after [.advanceBy _]).trans h.tick

theorem Regular.step (h : Regular config s) (input : SessionInput) :
    Regular config (s.step input) := by
  cases input with
  | clock elapsed => exact h.clock elapsed
  | tick => exact h.caughtUp
  | deliver m => exact h.deliver m s.daemon.inbound
  | pump =>
    rw [step_pump]
    split
    · exact h.serve
    · exact h.serve.deliver _ _

theorem Regular.after (h : Regular config s) (inputs : List SessionInput) :
    Regular config (s.after inputs) := by
  induction inputs generalizing s with
  | nil => exact h
  | cons input rest ih => exact ih (h.step input)

theorem Regular.start {ids : IdSource} (hstart : Session.start config ids = .ok s) :
    Regular config s := by
  obtain ⟨e, he, hl⟩ := Session.start_eq config ids (Session.names_ne_of_start hstart)
  obtain rfl := Except.ok.inj (he.symm.trans hstart)
  have hnext : e.timers.nextId.toNat = 1 := congrArg (·.nextId.toNat) hl.timers
  have halone : e.Alone := .live ⟨hl.paired, by omega, fun _ => by omega⟩
  have hnow : e.now = 0 := congrArg TimerService.now hl.timers
  refine ⟨halone.transfer (halone.steady.after [.drainEvents]) rfl rfl rfl rfl, ⟨hnow.symm, ?_⟩, rfl,
    congrArg TimerService.tick hl.timers, rfl, rfl⟩
  exact UInt64.le_iff_toNat_le.2 (Nat.zero_le _)

structure Dormant (s : Session) (p : RetryProcedure NgSetupRequest NgSetupResponse)
    (c : AmfConnection) (k : TimerId) (deadline : UInt64) : Prop where
  paired : s.daemon.engine.Paired p c
  waiting : s.daemon.engine.Waiting p.id ⟨.setup p, 0⟩ k deadline

variable {p : RetryProcedure NgSetupRequest NgSetupResponse} {c : AmfConnection} {k : TimerId}
  {deadline : UInt64}

theorem Dormant.state (h : Dormant s p c k deadline) : p.state = .backoff :=
  RetryProcedure.waitingFor_eq_timer_iff.1 h.waiting.backoff

theorem Dormant.transfer {s' : Session} (h : Dormant s p c k deadline)
    (hs : s'.daemon.engine.Steady) (htasks : s'.daemon.engine.tasks = s.daemon.engine.tasks)
    (hparents : s'.daemon.engine.parents = s.daemon.engine.parents)
    (ht : s'.daemon.engine.timers = s.daemon.engine.timers)
    (ha : s'.daemon.engine.armed = s.daemon.engine.armed) : Dormant s' p c k deadline :=
  ⟨h.paired.transfer hs (h.paired.timed.transfer ht ha) htasks hparents,
    htasks ▸ h.waiting.task, h.waiting.backoff, ht ▸ h.waiting.timer⟩

theorem Dormant.serve (h : Dormant s p c k deadline) (hr : Regular config s) :
    Dormant s.serve p c k deadline := by
  refine h.transfer hr.serve.alone.steady ?_ ?_ ?_ ?_
  all_goals simp only [Session.serve, s.daemon.servePeer_frame.2.1]

theorem Dormant.deliver (h : Dormant s p c k deadline) (hr : Regular config s) (m : PeerMessage)
    (inbound : List PeerMessage) :
    Dormant (s.deliver m inbound) p c k deadline ∧ s.Silent (s.deliver m inbound) := by
  have hs := (hr.deliver m inbound).alone.steady
  have he := h.paired.handleMessage_backoff h.state m
  have hdropped : s.deliver m inbound =
      { s with daemon := ({ s.daemon with inbound } : Daemon).tally } := by
    simp only [Session.deliver, Daemon.deliver, he]
  rw [hdropped] at hs ⊢
  refine ⟨h.transfer hs rfl rfl rfl rfl, ?_, List.suffix_refl _⟩
  exact Daemon.setupRequests_tally (by simp [hr.drained])

/-- catching up with the clock while the tick is still to come -/
theorem Dormant.sleeps (h : Dormant s p c k deadline) (hr : Regular config s)
    (hlater : s.daemon.pacer.total s.clock < deadline) :
    Dormant (s.step .tick) p c k deadline ∧ s.Silent (s.step .tick) := by
  have hs := (hr.step .tick).alone.steady
  have hlt := UInt64.lt_iff_toNat_lt.1 hlater
  have hdue := hr.paced.due
  obtain ⟨hp, hw, hidle⟩ := h.paired.sleeps h.waiting (s.daemon.pacer.due s.clock).1.toNat
    (by omega)
  have hlog : (s.daemon.engine.advanceBy (s.daemon.pacer.due s.clock).1).log = [] :=
    hidle.log.trans hr.drained
  have hgateway : (s.daemon.engine.advanceBy (s.daemon.pacer.due s.clock).1).gateway =
      s.daemon.engine.gateway := hidle.gateway
  simp only [Session.step] at hs ⊢
  rcases s.daemon.tick_cases s.clock with ⟨-, he⟩ | he
  · rw [he] at hs ⊢
    exact ⟨h.transfer hs rfl rfl rfl rfl, rfl, List.suffix_refl _⟩
  · rw [he] at hs ⊢
    refine ⟨⟨hp.transfer hs (hp.timed.transfer rfl rfl) rfl rfl, hw.task, hw.backoff, hw.timer⟩, ?_,
      ?_⟩
    · exact Daemon.setupRequests_tally (by simp [hlog])
    · simp only [Daemon.tally, Engine.drainEvents, hgateway]
      exact List.suffix_refl _

/-- catching up with the clock once the tick has come -/
theorem Dormant.fires (h : Dormant s p c k deadline) (hr : Regular config s)
    (hnow : s.daemon.engine.now < deadline) (hdue : deadline ≤ s.daemon.pacer.total s.clock) :
    (s.step .tick).daemon.setupRequests = s.daemon.setupRequests + 1 := by
  have hlt := UInt64.lt_iff_toNat_lt.1 hnow
  have hle := UInt64.le_iff_toNat_le.1 hdue
  have htotal := hr.paced.due
  obtain ⟨-, hlog⟩ := h.paired.fires h.waiting hnow (s.daemon.pacer.due s.clock).1.toNat (by omega)
  have hlog : (s.daemon.engine.advanceBy (s.daemon.pacer.due s.clock).1).log =
      [.requestSent p.id p.resent.transmissions] := by
    rw [hr.drained] at hlog
    exact hlog
  simp only [Session.step]
  rcases s.daemon.tick_cases s.clock with ⟨hzero, -⟩ | he
  · simp only [hzero, UInt64.toNat_zero] at htotal
    omega
  · rw [he]
    simp only [Daemon.tally, Engine.drainEvents, hlog, List.foldl_cons, List.foldl_nil, ↓reduceIte]

theorem Dormant.step (h : Dormant s p c k deadline) (hr : Regular config s) (input : SessionInput)
    (hlater : s.daemon.pacer.total (s.step input).clock < deadline) :
    Dormant (s.step input) p c k deadline ∧ s.Silent (s.step input) := by
  cases input with
  | clock elapsed => exact ⟨h.transfer hr.alone.steady rfl rfl rfl rfl, rfl, List.suffix_refl _⟩
  | tick => exact h.sleeps hr hlater
  | deliver m => exact h.deliver hr m s.daemon.inbound
  | pump =>
    rw [step_pump]
    split
    · exact ⟨h.serve hr, s.silent_serve⟩
    · next m rest _ =>
      obtain ⟨hdeliver, hsilent⟩ := (h.serve hr).deliver hr.serve m rest
      exact ⟨hdeliver, s.silent_serve.trans hsilent⟩

/-- As long as the clock has not reached the tick, nothing is sent. -/
theorem Dormant.after (h : Dormant s p c k deadline) (hr : Regular config s)
    (inputs : List SessionInput) (hlater : s.daemon.pacer.total (s.after inputs).clock < deadline) :
    Dormant (s.after inputs) p c k deadline ∧ s.Silent (s.after inputs) := by
  induction inputs generalizing s with
  | nil => exact ⟨h, .refl s⟩
  | cons input rest ih =>
    have hsame (reading : Duration) :
        (s.step input).daemon.pacer.total reading = s.daemon.pacer.total reading :=
      UInt64.toNat_inj.1 (((hr.step input).total reading).trans (hr.total reading).symm)
    have hmono := s.daemon.pacer.total_mono ((s.step input).clock_le_after rest)
    obtain ⟨hstep, hsilent⟩ := h.step hr input (UInt64.lt_of_le_of_lt hmono hlater)
    obtain ⟨hrest, hsilent'⟩ := ih hstep (hr.step input) (by rw [hsame]; exact hlater)
    exact ⟨hrest, hsilent.trans hsilent'⟩

theorem Regular.backs_deliver (h : Regular config s) {m : PeerMessage} {q : ProcedureId} {t : Task}
    {r : Rejection} {delay : Duration} (hb : s.daemon.engine.Backs m q t r delay)
    (inbound : List PeerMessage) : ∃ p c k deadline,
      Dormant (s.deliver m inbound) p c k deadline ∧ s.Silent (s.deliver m inbound) ∧
      deadline.toNat = min (s.daemon.engine.now.toNat +
        max 1 (delay.ticksToCover config.engine.tick.orMilli)) (2 ^ 64 - 1) := by
  cases h.alone with
  | ended _ hempty =>
    have ht := hb.task
    simp [hempty q] at ht
  | @live p c hcounted =>
    obtain ⟨rfl, rfl, -⟩ := hcounted.paired.eq_of_backs hb
    obtain ⟨hcounted', hw, hgateway, event, hevent, hlog⟩ := hcounted.backs hb
    have hs := (h.deliver m inbound).alone.steady
    rw [h.drained] at hlog
    refine ⟨p.backedOff r, c, _, _, ⟨hcounted'.paired.transfer hs
      (hcounted'.paired.timed.transfer rfl rfl) rfl rfl, hw.task, hw.backoff, hw.timer⟩, ⟨?_, ?_⟩, ?_⟩
    · refine Daemon.setupRequests_tally fun event' hm => ?_
      simp only [hlog, List.nil_append, List.mem_singleton] at hm
      exact hm ▸ Event.isRequest_eq_false hevent
    · simp only [Session.deliver, Daemon.deliver, Daemon.tally, Engine.drainEvents, hgateway]
      exact List.suffix_refl _
    · rw [TimerService.toNat_deadline_ticksFor, h.tick]
      rfl

/-- a refusal that is handed to the engine sends the setup to rest -/
theorem Regular.backs (h : Regular config s) {input : SessionInput} {m : PeerMessage}
    (hin : s.delivered? input = some m) {q : ProcedureId} {t : Task} {r : Rejection}
    {delay : Duration} (hb : s.daemon.engine.Backs m q t r delay) : ∃ p c k deadline,
      Dormant (s.step input) p c k deadline ∧ s.Silent (s.step input) ∧
      deadline.toNat = min (s.daemon.engine.now.toNat +
        max 1 (delay.ticksToCover config.engine.tick.orMilli)) (2 ^ 64 - 1) := by
  cases input with
  | clock elapsed => simp [delivered?] at hin
  | tick => simp [delivered?] at hin
  | deliver m' =>
    obtain rfl : m' = m := Option.some.inj hin
    exact h.backs_deliver hb s.daemon.inbound
  | pump =>
    obtain ⟨rest, hrest⟩ : ∃ rest, s.serve.daemon.inbound = m :: rest := List.head?_eq_some_iff.1 hin
    have hengine : s.serve.daemon.engine = _ := s.daemon.servePeer_frame.2.1
    have hb' : s.serve.daemon.engine.Backs m q t r delay := by
      rw [hengine]
      exact ⟨hb.recipient, hb.task, hb.rejection, hb.wait, hb.retries⟩
    have hnow : s.serve.daemon.engine.now = s.daemon.engine.now := by
      rw [hengine]
      rfl
    obtain ⟨p, c, k, deadline, hd, hsilent, hdeadline⟩ := h.serve.backs_deliver hb' rest
    rw [hnow] at hdeadline
    rw [step_pump, hrest]
    exact ⟨p, c, k, deadline, hd, s.silent_serve.trans hsilent, hdeadline⟩

end

def refusedOnce : DaemonConfig where
  peer := { rejectCount := 1, timeToWait := some .s1 }
  engine := { tick := .ofSeconds 1, maxSetupRetries := 1 }

/-- whether the next reply is a refusal that has the setup wait for a second -/
def refuses (s : Session) : Bool :=
  let m : PeerMessage := ⟨refusedOnce.amf, .ngSetupFailure ⟨⟨.misc, "unspecified"⟩, some .s1⟩⟩
  s.delivered? .pump = some m && s.daemon.engine.recipient? m = some ⟨"proc-1"⟩ &&
    (s.daemon.engine.tasks.get? ⟨"proc-1"⟩).map (fun t =>
      (t.machine.rejection? m.pdu, t.machine.retries)) =
        some (some ⟨⟨.misc, "unspecified"⟩, some .s1⟩, true)

theorem exists_backs_of_refuses (h : refuses s = true) : ∃ m q t r,
    s.delivered? .pump = some m ∧ s.daemon.engine.Backs m q t r (.ofSeconds 1) := by
  simp only [refuses, Bool.and_eq_true, decide_eq_true_eq] at h
  obtain ⟨⟨hin, hr⟩, ht⟩ := h
  obtain ⟨t, hb⟩ := Engine.exists_backs hr ht rfl
  exact ⟨_, _, t, _, hin, hb⟩

/-- what can be computed of the session that starts holds of it -/
theorem exists_start (p : Session → Bool)
    (h : (Session.start refusedOnce (.sequential)).toOption.any p = true) :
    ∃ s, Session.start refusedOnce (.sequential) = .ok s ∧ p s = true := by
  cases hs : Session.start refusedOnce (.sequential) with
  | error e => simp [hs, Except.toOption] at h
  | ok s => exact ⟨s, rfl, by simpa [hs, Except.toOption] using h⟩

/-- The wait that a refusal asks for, by the clock. The request is sent again when the daemon catches
up with the clock for the first time at `due` or later. That is the whole wait, in whole ticks, from
the time that the engine had counted when the refusal was delivered, so the wait is kept but for the
lag of that time behind the clock. Counts of ticks have 64 bits. -/
theorem wait_less_lag (config : DaemonConfig) (ids : IdSource) (s₀ : Session)
    (hstart : Session.start config ids = .ok s₀) (inputs : List SessionInput) (input : SessionInput)
    (m : PeerMessage) (hin : (s₀.after inputs).delivered? input = some m) (q : ProcedureId) (t : Task)
    (r : Rejection) (delay : Duration)
    (hb : (s₀.after inputs).daemon.engine.Backs m q t r delay) :
    let s := s₀.after inputs
    let s' := s.step input
    let tick := config.engine.tick.orMilli
    let counted := s.daemon.engine.now.toNat
    let due := (counted + max 1 (delay.ticksToCover tick)) * tick.nanos
    let lag := s.clock.nanos - counted * tick.nanos
    counted * tick.nanos ≤ s.clock.nanos ∧ s.clock.nanos + delay.nanos ≤ due + lag ∧
      ∀ future, (s'.after future).clock.nanos < due →
        (s'.after future).clock.nanos < (2 ^ 64 - 1) * tick.nanos →
        s.Silent (s'.after future) ∧
        ∀ elapsed, due ≤ (s'.after future).clock.nanos + elapsed.nanos →
          (s'.after (future ++ [.clock elapsed, .tick])).daemon.setupRequests =
            s.daemon.setupRequests + 1 := by
  intro s s' tick counted due lag
  have hr : Regular config s := (Regular.start hstart).after inputs
  have hpos : 0 < tick.nanos := Duration.orMilli_pos _
  have hcounted : counted * tick.nanos ≤ s.clock.nanos := by
    have hbehind := UInt64.le_iff_toNat_le.1 hr.now_le_total
    rw [hr.total] at hbehind
    exact (Nat.le_div_iff_mul_le hpos).1 (Nat.le_trans hbehind (Nat.min_le_left ..))
  have hcover : delay.nanos ≤ max 1 (delay.ticksToCover tick) * tick.nanos :=
    (Duration.ticksToCover_le_iff hpos _).1 (Nat.le_max_right ..)
  have hdue : due = counted * tick.nanos + max 1 (delay.ticksToCover tick) * tick.nanos :=
    Nat.add_mul ..
  refine ⟨hcounted, by omega, fun future hearly hfit => ?_⟩
  obtain ⟨p, c, k, deadline, hd, hsilent, hdeadline⟩ := hr.backs hin hb
  have hr' := (hr.step input).after future
  obtain ⟨hdormant, hsilent'⟩ :=
    hd.after (hr.step input) future ((hr.step input).total_lt hdeadline hearly hfit)
  refine ⟨hsilent.trans hsilent', fun elapsed hreached => ?_⟩
  have hmoved : Dormant ((s'.after future).step (.clock elapsed)) p c k deadline :=
    ⟨hdormant.paired, hdormant.waiting⟩
  have hnow := UInt64.lt_of_le_of_lt hr'.now_le_total (hr'.total_lt hdeadline hearly hfit)
  rw [Session.after_append]
  exact (hmoved.fires (hr'.step (.clock elapsed)) hnow (hr'.le_total hdeadline hreached)).trans
    (congrArg (· + 1) (hsilent.trans hsilent').counted)

/-- A daemon that has caught up with the clock keeps a wait of one second, and then sends again. -/
theorem wait_less_lag_caught_up : ∃ s₀, Session.start refusedOnce (.sequential) = .ok s₀ ∧
    let s := s₀.after [.clock (.ofSeconds 5), .tick]
    s.Silent (s.after [.pump, .clock (.ofMillis 999), .tick]) ∧
    (s.after [.pump, .clock (.ofMillis 999), .clock (.ofMillis 1), .tick]).daemon.setupRequests =
      s.daemon.setupRequests + 1 := by
  obtain ⟨s₀, hstart, hrun⟩ := exists_start
    (fun s₀ => refuses (s₀.after [.clock (.ofSeconds 5), .tick]) &&
      (s₀.after [.clock (.ofSeconds 5), .tick]).daemon.engine.now = 5 && s₀.clock = .zero)
    (by decide +kernel)
  simp only [Bool.and_eq_true, decide_eq_true_eq] at hrun
  obtain ⟨⟨hrefuses, hnow⟩, hzero⟩ := hrun
  obtain ⟨m, q, t, r, hin, hb⟩ := exists_backs_of_refuses hrefuses
  obtain ⟨-, -, hall⟩ := wait_less_lag refusedOnce (.sequential) s₀ hstart _ .pump m hin q t r _ hb
  have hclock : (s₀.after [.clock (.ofSeconds 5), .tick]).clock.nanos = 5000000000 := by
    rw [clock_after, hzero]
    rfl
  have hdue : (UInt64.toNat 5 + max 1 ((Duration.ofSeconds 1).ticksToCover
      refusedOnce.engine.tick.orMilli)) * refusedOnce.engine.tick.orMilli.nanos = 6000000000 := by
    decide
  refine ⟨s₀, hstart, ?_⟩
  dsimp only at hall ⊢
  generalize s₀.after [.clock (.ofSeconds 5), .tick] = s at hnow hclock hall ⊢
  rw [hnow, hdue] at hall
  have hearly (future : List SessionInput)
      (hf : (future.map SessionInput.elapsed).sum = 999000000) :
      ((s.step .pump).after future).clock.nanos = 5999000000 := by
    rw [clock_after, hf, clock_step, hclock]
    rfl
  have hwaits := hearly [.clock (.ofMillis 999), .tick] (by decide)
  have hends := hearly [.clock (.ofMillis 999)] (by decide)
  rw [after_cons, after_cons]
  constructor
  · refine (hall [.clock (.ofMillis 999), .tick] ?_ ?_).1
    all_goals
      rw [hwaits]
      decide
  · refine (hall [.clock (.ofMillis 999)] ?_ ?_).2 (.ofMillis 1) ?_
    all_goals
      rw [hends]
      decide

/-- The daemon reads that five seconds have gone by, takes a refusal that asks it to wait for one, and
sends again when it catches up, by the clock at the same time. -/
theorem wait_cut_short : ∃ s₀, Session.start refusedOnce (.sequential) = .ok s₀ ∧
    let s := s₀.after [.clock (.ofSeconds 5)]
    (∃ m q t r, s.delivered? .pump = some m ∧ s.daemon.engine.Backs m q t r (.ofSeconds 1)) ∧
    (s.after [.pump, .tick]).clock.nanos < s.clock.nanos + (Duration.ofSeconds 1).nanos ∧
    (s.after [.pump, .tick]).daemon.setupRequests = s.daemon.setupRequests + 1 := by
  obtain ⟨s₀, hstart, hrun⟩ := exists_start
    (fun s₀ => refuses (s₀.after [.clock (.ofSeconds 5)]) &&
      ((s₀.after [.clock (.ofSeconds 5)]).after [.pump, .tick]).daemon.setupRequests =
        (s₀.after [.clock (.ofSeconds 5)]).daemon.setupRequests + 1)
    (by decide +kernel)
  simp only [Bool.and_eq_true, decide_eq_true_eq] at hrun
  obtain ⟨hrefuses, hsent⟩ := hrun
  refine ⟨s₀, hstart, ?_⟩
  intro s
  refine ⟨exists_backs_of_refuses hrefuses, ?_, hsent⟩
  rw [clock_after]
  exact Nat.add_lt_add_left (by decide) _

end NgapProcedures
