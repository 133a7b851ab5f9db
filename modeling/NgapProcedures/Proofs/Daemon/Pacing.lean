import NgapProcedures.Proofs.Daemon.Lag
import NgapProcedures.Proofs.Daemon.Readings
import NgapProcedures.Proofs.Engine.Indifference

/-! Ticks by the clock, however often it is read. What a pacer hands out adds up to the whole ticks
between its origin and the last reading, and a daemon that catches up in many steps comes to the same
state as one that catches up in one, and has told the same. -/

namespace NgapProcedures

namespace TickPacer

/-- A new pacer hands out the whole ticks up to the last reading. -/
theorem handedOut_poll_new (origin tick : Duration) {readings : List Duration}
    (hmono : readings.Pairwise fun a b => a.nanos ≤ b.nanos) :
    let (dues, p) := (new origin tick).poll readings
    handedOut dues = min (((readings.getLastD origin).nanos - origin.nanos) / tick.orMilli.nanos)
      (2 ^ 64 - 1) ∧ p.issued.toNat = handedOut dues := by
  let pacer := new origin tick
  have hzero : (pacer.total origin).toNat = 0 := by
    rw [toNat_total_new, Nat.sub_self, Nat.zero_div]
    rfl
  have hsorted : (pacer.counts readings).Pairwise (· ≤ ·) :=
    hmono.map _ fun _ _ h => UInt64.le_iff_toNat_le.1 (pacer.total_mono h)
  have hagree := (pacer.issued_eq_handedOut_iff rfl readings).2 hsorted
  have hlast : (pacer.poll readings).2.issued.toNat =
      (pacer.total (readings.getLastD origin)).toNat := by
    rw [pacer.toNat_issued_poll, counts, List.getLastD_eq_getLast?, List.getLast?_map,
      List.getLastD_eq_getLast?]
    cases readings.getLast? with
    | none => exact hzero.symm
    | some reading => rfl
  exact ⟨by rw [← hagree, hlast, toNat_total_new], hagree⟩

end TickPacer

theorem Gateway.send_congr {γ : Type} [Gateway γ] {g h : γ} (he : g = h) (m : PeerMessage) :
    (send g m).2 = (send h m).2 :=
  congrArg (fun g => (send g m).2) he

def Tie.same (γ : Type) [Gateway γ] (config : EngineConfig) : Tie γ γ :=
  { Tie.sameClock γ γ config with
    gateways := fun g h => g = h
    send := fun he m => Gateway.send_congr he m }

namespace Engine

variable {γ : Type} [Gateway γ] {e f : Engine γ} {l : List Event}

theorem Twin.eq_of_same {config : EngineConfig} (h : Twin (.same γ config) { backlog := l } e f) :
    e = { f with log := l ++ f.log } := by
  have htasks : e.tasks = f.tasks := h.tasks.trans (Table.map_of_id Task.shift_zero _)
  have hresults : e.results = f.results := Table.ext_get? h.results
  obtain ⟨hc, hi, hg, hk, hl, hr, -, hp, hw, ht, hcl, -, hs⟩ := h
  obtain ⟨harmed, htimers⟩ := Clockwork.mk.inj hk
  cases e; cases f
  simp_all [Tie.same]

/-- Draining the log before the ticks loses nothing of it, and changes nothing else. -/
theorem advanceBy_drained (hq : e.wakes = []) (ticks : UInt64) :
    (e.drainEvents.2.advanceBy ticks).drainEvents.2 = (e.advanceBy ticks).drainEvents.2 ∧
      e.log ++ (e.drainEvents.2.advanceBy ticks).log = (e.advanceBy ticks).log := by
  have hself : Abreast (.same γ e.config) { backlog := e.log } e e.drainEvents.2 :=
    ⟨⟨⟨rfl, rfl⟩, rfl, rfl, rfl, (List.append_nil _).symm, rfl,
      (Table.map_of_id Task.shift_zero e.tasks).symm, rfl, rfl, rfl, rfl, fun _ => rfl, rfl⟩, hq⟩
  rw [advanceBy_eq, advanceBy_eq,
    (hself.advances ticks.toNat fun _ _ => trivial).toTwin.eq_of_same]
  exact ⟨rfl, rfl⟩

theorem advanceBy_advanceBy (e : Engine γ) {a b ticks : UInt64}
    (h : a.toNat + b.toNat = ticks.toNat) : (e.advanceBy a).advanceBy b = e.advanceBy ticks := by
  simp only [advanceBy_eq]
  rw [← after_append, ← List.replicate_add, h]

end Engine

namespace Daemon

def count (n : UInt32) (events : List Event) : UInt32 :=
  events.foldl (fun n event => if event matches .requestSent .. then n + 1 else n) n

theorem count_append (n : UInt32) (a b : List Event) : count n (a ++ b) = count (count n a) b :=
  List.foldl_append

/-- the events that a daemon takes off the log when it catches up with a reading of its clock -/
def told (d : Daemon) (reading : Duration) : List Event :=
  if (d.pacer.due reading).1 = 0 then [] else (d.engine.advanceBy (d.pacer.due reading).1).log

variable {d : Daemon}

/-- Where nothing is left in the log, it makes no difference whether no tick is due or some are. -/
theorem tick_eq (h : d.engine.log = []) (reading : Duration) :
    (d.tick reading).2 = { d with
      pacer := (d.pacer.due reading).2
      engine := (d.engine.advanceBy (d.pacer.due reading).1).drainEvents.2
      setupRequests := count d.setupRequests (d.told reading) } ∧
    d.told reading = (d.engine.advanceBy (d.pacer.due reading).1).log := by
  unfold tick told
  by_cases hzero : (d.pacer.due reading).1 = 0
  · have hstays : d.engine.advanceBy (d.pacer.due reading).1 = d.engine := by
      rw [hzero]
      rfl
    have hempty : d.engine.drainEvents.2 = d.engine := by
      simp only [Engine.drainEvents]
      rw [← h]
    simp only [hzero, if_true] at hstays ⊢
    simp only [hstays, hempty, h]
    exact ⟨rfl, trivial⟩
  · simp only [hzero, if_false]
    exact ⟨rfl, trivial⟩

/-- Two readings caught up with in turn come to the same as the later one alone. -/
theorem tick_tick (hlog : d.engine.log = []) (hs : d.engine.Steady) {reading later : Duration}
    (hbehind : d.pacer.issued ≤ d.pacer.total reading) (hle : reading.nanos ≤ later.nanos) :
    ((d.tick reading).2.tick later).2 = (d.tick later).2 ∧
      d.told reading ++ (d.tick reading).2.told later = d.told later := by
  obtain ⟨hfirst, htold⟩ := tick_eq hlog reading
  obtain ⟨hwhole, htoldWhole⟩ := tick_eq hlog later
  have hempty : (d.tick reading).2.engine.log = [] := by
    rw [hfirst]
    rfl
  obtain ⟨hsecond, htoldSecond⟩ := tick_eq hempty later
  -- the ticks due at the two readings are those due at the later one
  have hdue : (d.pacer.due reading).1.toNat + ((d.pacer.due reading).2.due later).1.toNat =
      (d.pacer.due later).1.toNat := by
    have hmono := d.pacer.total_mono hle
    have h₁ := TickPacer.toNat_due hbehind
    have h₂ : _ = (d.pacer.total later).toNat :=
      TickPacer.toNat_due (p := (d.pacer.due reading).2) hmono
    have h₃ := TickPacer.toNat_due (UInt64.le_trans hbehind hmono)
    have hissued : (d.pacer.due reading).2.issued = d.pacer.total reading := rfl
    rw [hissued] at h₂
    omega
  obtain ⟨hengine, hlogs⟩ := Engine.advanceBy_drained
    (hs.after [.advanceBy (d.pacer.due reading).1]).quiet ((d.pacer.due reading).2.due later).1
  have hbatches : (d.engine.after [.advanceBy (d.pacer.due reading).1]).advanceBy _ = _ :=
    d.engine.advanceBy_advanceBy hdue
  rw [hbatches] at hengine hlogs
  have hsteps : d.told reading ++ (d.tick reading).2.told later = d.told later := by
    rw [htold, htoldSecond, htoldWhole, hfirst]
    exact hlogs
  refine ⟨?_, hsteps⟩
  rw [hsecond, hwhole, ← hsteps, count_append]
  simp only [hfirst, Daemon.mk.injEq]
  exact ⟨hengine, trivial, trivial, rfl, trivial, trivial⟩

end Daemon

namespace Session

def tells (s : Session) : SessionInput → List Event
  | .clock _ => []
  | .tick => s.daemon.told s.clock
  | .deliver m => (s.daemon.engine.handleMessage m).2.log
  | .pump =>
    match s.serve.daemon.inbound with
    | [] => []
    | m :: _ => (s.serve.daemon.engine.handleMessage m).2.log

def tellsDuring (s : Session) : List SessionInput → List Event
  | [] => []
  | input :: rest => s.tells input ++ (s.step input).tellsDuring rest

/-- the clock goes on part by part, and after each part the daemon catches up with it -/
def polled (parts : List Duration) : List SessionInput :=
  parts.flatMap fun elapsed => [.clock elapsed, .tick]

theorem tellsDuring_append (s : Session) (inputs rest : List SessionInput) :
    s.tellsDuring (inputs ++ rest) = s.tellsDuring inputs ++ (s.after inputs).tellsDuring rest := by
  induction inputs generalizing s with
  | nil => rfl
  | cons input inputs ih =>
    rw [List.cons_append, tellsDuring, tellsDuring, ih, after_cons, List.append_assoc]

end Session

open Session

structure Orderly (s : Session) : Prop where
  paced : Paced s
  steady : s.daemon.engine.Steady
  drained : s.daemon.engine.log = []

section

variable {s : Session}

theorem Orderly.startup {config : DaemonConfig} {ids : IdSource} {reading : Duration} {d : Daemon}
    (h : Daemon.startup config ids reading = .ok d) : Orderly ⟨d, reading⟩ := by
  let e := Engine.new (⟨{}⟩ : TracedGateway ChannelGateway) ids config.engine
  let launch := Operation.connect config.controller
    (e.setupRequest config.amf config.setupMessage)
  have hs : e.Steady := Engine.steady_new ..
  have hnow : (e.after [launch]).now.toNat = 0 := hs.now_after [launch] (Nat.two_pow_pos 64)
  simp only [Daemon.startup] at h
  split at h
  · simp at h
  · next handle engine he =>
    have hengine : e.after [launch] = engine := congrArg Prod.snd he
    obtain rfl := Except.ok.inj h
    rw [hengine] at hnow
    refine ⟨⟨(UInt64.toNat_inj.1 hnow).symm, UInt64.le_iff_toNat_le.2 (Nat.zero_le _)⟩, ?_, rfl⟩
    exact hengine ▸ hs.after [launch, .drainEvents]

theorem Orderly.serve (h : Orderly s) : Orderly s.serve := by
  have hengine := s.daemon.servePeer_frame.2.1
  refine ⟨h.paced.serve, ?_, ?_⟩
  all_goals simp only [Session.serve, hengine]
  · exact h.steady.rewire fun g => ⟨g.inner.receive.2⟩
  · exact h.drained

theorem Orderly.deliver (h : Orderly s) (m : PeerMessage) (inbound : List PeerMessage) :
    Orderly (s.deliver m inbound) := by
  have hp : Paced { s with daemon := { s.daemon with inbound } } := ⟨h.paced.issued, h.paced.behind⟩
  exact ⟨hp.deliver h.steady m, h.steady.after [.message m, .drainEvents], rfl⟩

theorem Orderly.step (h : Orderly s) (input : SessionInput) : Orderly (s.step input) := by
  cases input with
  | clock elapsed => exact ⟨h.paced.clock elapsed, h.steady, h.drained⟩
  | tick =>
    refine ⟨h.paced.tick h.steady, ?_, ?_⟩
    all_goals simp only [Session.step, (Daemon.tick_eq h.drained s.clock).1]
    · exact h.steady.after [.advanceBy _, .drainEvents]
    · rfl
  | deliver m => exact h.deliver m s.daemon.inbound
  | pump =>
    rw [step_pump]
    split
    · exact h.serve
    · exact h.serve.deliver _ _

theorem Orderly.after (h : Orderly s) (inputs : List SessionInput) : Orderly (s.after inputs) := by
  induction inputs generalizing s with
  | nil => exact h
  | cons input rest ih => exact ih (h.step input)

/-- Nothing stays in the log, and every request that was told of is counted. -/
theorem Orderly.counted (h : Orderly s) (input : SessionInput) :
    (s.step input).daemon.setupRequests = Daemon.count s.daemon.setupRequests (s.tells input) := by
  cases input with
  | clock elapsed => rfl
  | tick => simp only [Session.step, (Daemon.tick_eq h.drained s.clock).1, Session.tells]
  | deliver m => rfl
  | pump =>
    have hserve := s.silent_serve.counted
    rw [step_pump, Session.tells]
    cases s.serve.daemon.inbound with
    | nil => exact hserve
    | cons m rest => exact congrArg (Daemon.count · _) hserve

/-- Two parts of an advance of the clock come to the same as the whole of it. -/
theorem Orderly.polled_pair (h : Orderly s) (first second : Duration) :
    s.after (polled [first, second]) = s.after (polled [first + second]) ∧
      s.tellsDuring (polled [first, second]) = s.tellsDuring (polled [first + second]) := by
  have hlater : (s.clock + first).nanos ≤ (s.clock + first + second).nanos := Nat.le_add_right ..
  have hclock : s.clock + first + second = s.clock + (first + second) :=
    congrArg Duration.mk (Nat.add_assoc ..)
  obtain ⟨hdaemon, htold⟩ := Daemon.tick_tick h.drained h.steady (h.paced.clock first).behind hlater
  rw [hclock] at hdaemon htold
  simp only [Session.polled, List.flatMap_cons, List.flatMap_nil, List.cons_append, List.nil_append,
    List.append_nil, Session.after, List.foldl_cons, List.foldl_nil, tellsDuring, tells,
    Session.step, hclock]
  exact ⟨congrArg (Session.mk · _) hdaemon, htold⟩

theorem Orderly.polled (h : Orderly s) (first : Duration) (rest : List Duration) :
    s.after (polled (first :: rest)) = s.after (polled [rest.foldl (· + ·) first]) ∧
      s.tellsDuring (polled (first :: rest)) =
        s.tellsDuring (polled [rest.foldl (· + ·) first]) := by
  induction rest generalizing first with
  | nil => exact ⟨rfl, rfl⟩
  | cons second rest ih =>
    obtain ⟨hstate, htold⟩ := h.polled_pair first second
    obtain ⟨hstate', htold'⟩ := ih (first + second)
    have hsplit : Session.polled (first :: second :: rest) =
        Session.polled [first, second] ++ Session.polled rest := rfl
    have hjoin : Session.polled ((first + second) :: rest) =
        Session.polled [first + second] ++ Session.polled rest := rfl
    rw [hsplit, s.after_append, tellsDuring_append, hstate, htold, ← s.after_append,
      ← tellsDuring_append, ← hjoin]
    exact ⟨hstate', htold'⟩

end

/-- Ticks by the clock do not drift, and do not depend on how often the clock is read. The ticks that a
pacer hands out are the whole ticks up to the last reading, as far as 64 bits can count them, so that
two ways to get to the same reading hand out as many. A daemon that catches up part by part comes to
the same session as one that catches up once, its engine, its messages and its counts included, and it
has told the same events in the same order. -/
theorem pacing_independent_of_polling :
    (∀ (origin tick : Duration) (readings : List Duration),
      (readings.Pairwise fun a b => a.nanos ≤ b.nanos) →
      let (dues, p) := (TickPacer.new origin tick).poll readings
      TickPacer.handedOut dues =
          min (((readings.getLastD origin).nanos - origin.nanos) / tick.orMilli.nanos) (2 ^ 64 - 1) ∧
        p.issued.toNat = TickPacer.handedOut dues) ∧
    (∀ (origin tick : Duration) (readings readings' : List Duration),
      (readings.Pairwise fun a b => a.nanos ≤ b.nanos) →
      (readings'.Pairwise fun a b => a.nanos ≤ b.nanos) →
      readings.getLastD origin = readings'.getLastD origin →
      TickPacer.handedOut ((TickPacer.new origin tick).poll readings).1 =
        TickPacer.handedOut ((TickPacer.new origin tick).poll readings').1) ∧
    ∀ (config : DaemonConfig) (ids : IdSource) (reading : Duration) (d : Daemon),
      Daemon.startup config ids reading = .ok d →
      ∀ (inputs : List SessionInput) (first : Duration) (rest : List Duration),
        let s := (⟨d, reading⟩ : Session).after inputs
        s.after (polled (first :: rest)) = s.after (polled [rest.foldl (· + ·) first]) ∧
          s.tellsDuring (polled (first :: rest)) =
            s.tellsDuring (polled [rest.foldl (· + ·) first]) := by
  refine ⟨fun origin tick readings => TickPacer.handedOut_poll_new origin tick,
    fun origin tick readings readings' hmono hmono' hlast => ?_,
    fun config ids reading d hstart inputs => ((Orderly.startup hstart).after inputs).polled⟩
  have h := (TickPacer.handedOut_poll_new origin tick hmono).1
  have h' := (TickPacer.handedOut_poll_new origin tick hmono').1
  exact h.trans (hlast ▸ h'.symm)

/-- Three readings with a part of a tick in each, and a refused setup that is sent again when the
third part has gone by. -/
theorem pacing_independent_of_polling_three_parts :
    TickPacer.handedOut ((TickPacer.new (.ofMillis 5) .zero).poll
      [⟨5900000⟩, ⟨6800000⟩, ⟨7700000⟩]).1 = 2 ∧
    ∃ s, Session.start refusedOnce (.sequential) = .ok s ∧
      (s.after [.pump]).tellsDuring (polled [.ofMillis 400, .ofMillis 400, .ofMillis 400]) =
        [.requestSent ⟨"proc-1"⟩ 2] ∧
      (s.after [.pump]).after (polled [.ofMillis 400, .ofMillis 400, .ofMillis 400]) =
        (s.after [.pump]).after (polled [.ofMillis 1200]) := by
  obtain ⟨hcount, -, hsession⟩ := pacing_independent_of_polling
  obtain ⟨s, hstart, htold⟩ := exists_start (fun s =>
    s.clock = .zero &&
      (s.after [.pump]).tellsDuring (polled [.ofMillis 1200]) = [.requestSent ⟨"proc-1"⟩ 2])
    (by decide +kernel)
  simp only [Bool.and_eq_true, decide_eq_true_eq] at htold
  obtain ⟨hclock, htold⟩ := htold
  have hdaemon : Daemon.startup refusedOnce (.sequential) .zero = .ok s.daemon := by
    cases hd : Daemon.startup refusedOnce (.sequential) .zero with
    | error error => simp [Session.start, hd, Except.map] at hstart
    | ok d =>
      rw [Session.start, hd] at hstart
      rw [← Except.ok.inj hstart]
  have hs : s = ⟨s.daemon, .zero⟩ := by rw [← hclock]
  obtain ⟨hstate, hsteps⟩ := hsession refusedOnce (.sequential) .zero s.daemon hdaemon [.pump]
    (.ofMillis 400) [.ofMillis 400, .ofMillis 400]
  rw [← hs] at hstate hsteps
  exact ⟨(hcount _ _ _ (by simp)).1.trans (by decide), s, hstart, hsteps.trans htold, hstate⟩

end NgapProcedures
