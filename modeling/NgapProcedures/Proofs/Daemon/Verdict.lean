import NgapProcedures.Proofs.Daemon.Rounds
import NgapProcedures.Proofs.Engine.Loss

/-! The verdict on a session with the scripted AMF. However the turns come, a daemon that has settled
reports what the script and the retry budget lead to, and each retry took its wait. -/

namespace NgapProcedures

/-- what is reported of a peer that refuses so many requests, each with the same wait, to a daemon
with so many retries -/
def expectedReport (rejects : UInt32) (wait : Option TimeToWait) (amfName : String)
    (retries : UInt32) (ticks : UInt64) : Report :=
  if rejects = 0 then ⟨.connected, some amfName, none, ticks, 1, []⟩
  else
    match wait with
    | none => ⟨.failed, none, some "setup rejected: misc:unspecified", ticks, 1, []⟩
    | some _ =>
      if rejects ≤ retries then ⟨.connected, some amfName, none, ticks, rejects + 1, []⟩
      else ⟨.failed, none, some ("setup retries exhausted after " ++ toString (retries.toNat + 1) ++
        " attempts"), ticks, retries + 1, []⟩

namespace Daemon

variable {config : DaemonConfig} {d : Daemon}

theorem Stage.ended_of_settled (h : d.Stage config) (hs : d.settled = true) : d.Ended config := by
  have hpending {k : Nat} {p : RetryProcedure NgSetupRequest NgSetupResponse} {c : AmfConnection}
      (hu : d.Underway config k p c) : False := by
    have hempty := (hu.paired.steady.coherent.slot hu.paired.connection).2
    simp [settled, Engine.ready, Engine.result?, hu.connection, hempty] at hs
  cases h with
  | asked hu => exact (hpending hu).elim
  | refused hu => exact (hpending hu).elim
  | accepted hu => exact (hpending hu).elim
  | resting hu => exact (hpending hu).elim
  | ended ho => exact ho

theorem report_eq (hN : config.engine.maxSetupRetries.toNat + 1 < 2 ^ 32)
    (hresult : d.engine.result? d.connection = some (.connection config.ending.1))
    (hrequests : d.setupRequests.toNat = config.ending.2) :
    d.report [] = expectedReport config.peer.rejectCount config.peer.timeToWait config.peer.amfName
      config.engine.maxSetupRetries d.engine.now := by
  have hcount {n : UInt32} (h : d.setupRequests.toNat = n.toNat) : d.setupRequests = n :=
    UInt32.toNat_inj.1 h
  have hadd {n : UInt32} (h : n.toNat + 1 < 2 ^ 32) : (n + 1).toNat = n.toNat + 1 := by
    rw [UInt32.toNat_add, UInt32.toNat_one, Nat.mod_eq_of_lt h]
  unfold expectedReport
  by_cases hzero : config.peer.rejectCount = 0
  · have hend : config.ending = (.success config.peer.amfName, 1) := by
      simp [DaemonConfig.ending, hzero]
    rw [hend] at hresult hrequests
    simp [report, hresult, hcount (hrequests.trans UInt32.toNat_one.symm), hzero]
  · cases hwait : config.peer.timeToWait with
    | none =>
      have hend : config.ending =
          (.failure (.setup (.rejected ⟨⟨.misc, "unspecified"⟩, none⟩)), 1) := by
        simp [DaemonConfig.ending, hzero, hwait]
      have hreason : ConnectionFailure.message
          (.setup (.rejected ⟨⟨.misc, "unspecified"⟩, none⟩)) =
            "setup rejected: misc:unspecified" := by decide
      rw [hend] at hresult hrequests
      simp only [report, hresult, hcount (hrequests.trans UInt32.toNat_one.symm), hreason, hzero,
        ↓reduceIte, List.map_nil]
    | some w =>
      by_cases hle : config.peer.rejectCount ≤ config.engine.maxSetupRetries
      · have hend : config.ending =
            (.success config.peer.amfName, config.peer.rejectCount.toNat + 1) := by
          simp [DaemonConfig.ending, hzero, hwait, hle]
        have hlt := UInt32.le_iff_toNat_le.1 hle
        rw [hend] at hresult hrequests
        simp [report, hresult, hcount (hrequests.trans (hadd (by omega)).symm), hzero, hle]
      · have hend : config.ending = (.failure (.setup (.retriesExhausted
            ⟨⟨.misc, "unspecified"⟩, some w⟩ (config.engine.maxSetupRetries + 1))),
            config.engine.maxSetupRetries.toNat + 1) := by
          simp [DaemonConfig.ending, hzero, hwait, hle]
        have hreason : ConnectionFailure.message (.setup (.retriesExhausted
            ⟨⟨.misc, "unspecified"⟩, some w⟩ (config.engine.maxSetupRetries + 1))) =
            "setup retries exhausted after " ++
              toString (config.engine.maxSetupRetries.toNat + 1) ++ " attempts" := by
          rewrite [← hadd hN]
          rfl
        rw [hend] at hresult hrequests
        simp only [report, hresult, hcount (hrequests.trans (hadd hN).symm), hreason, hzero, hle,
          ↓reduceIte, List.map_nil]

theorem requests_transportLost (h : d.engine.Steady) :
    ({ d with engine := d.engine.transportLost.2 } : Daemon).requests = d.requests := by
  obtain ⟨cancelled, -, hlog⟩ := h.reported.log
  have hcancelled : requestsIn (cancelled.map .procedureCancelled) = 0 := by
    simp [requestsIn, Event.isRequest]
  simp only [Daemon.requests, hlog, requestsIn_append, hcancelled]
  split <;> rfl

theorem Ended.shutdown (h : d.Ended config)
    (hN : config.engine.maxSetupRetries.toNat + 1 < 2 ^ 32) :
    d.shutdown = expectedReport config.peer.rejectCount config.peer.timeToWait config.peer.amfName
      config.engine.maxSetupRetries d.engine.now := by
  have hlost : d.engine.transportLost.1 = [] := List.eq_nil_iff_forall_not_mem.2 fun entity he => by
    obtain ⟨q, t, ht, -⟩ := h.steady.reported.mem_lost_iff.1 he
    simp [h.tasks q] at ht
  have hrequests := (requests_transportLost h.steady).trans h.requests
  have hle := config.ending_requests_le
  have hresult : d.engine.result? d.connection = some (.connection config.ending.1) := by
    rw [Engine.result?, h.slot]
    exact h.result
  have hkept := (h.steady.reported.kept h.settled).trans hresult
  have hstep : (d.engine.step .transportLost).2.now.toNat = d.engine.now.toNat :=
    h.steady.now_step (by simp) d.engine.now.toNat_lt
  have hnow : d.engine.transportLost.2.now = d.engine.now := UInt64.toNat_inj.1 hstep
  have hreport := report_eq (d := tally { d with engine := d.engine.transportLost.2 }) hN hkept
    ((requests_tally (by omega)).2.trans hrequests)
  have hshutdown : d.shutdown = (tally { d with engine := d.engine.transportLost.2 }).report
      d.engine.transportLost.1 := rfl
  rw [hshutdown, hlost, hreport]
  exact congrArg _ hnow

end Daemon

section

variable {config : DaemonConfig} {s : Session}

/-- A turn goes from one stage to the next or stays. -/
theorem Paced.turn_stage (h : Paced s) (hs : s.daemon.Stage config)
    (hN : config.engine.maxSetupRetries.toNat + 1 < 2 ^ 32) (turn : Turn) :
    (s.turn turn).daemon.Stage config := by
  cases turn with
  | clock elapsed => exact hs
  | tick =>
    have hlast := toNat_le_last (s.daemon.pacer.total s.clock)
    have hdue := h.due
    exact hs.tick hN _ (by omega)
  | serve => exact hs.servePeer
  | take =>
    cases hin : s.daemon.inbound with
    | nil =>
      have hsame : s.turn .take = s := by simp [Session.turn, hin]
      rw [hsame]
      exact hs
    | cons m rest =>
      rw [Session.turn_take hin]
      exact hs.take hN hin

theorem Paced.play (h : Paced s) (hs : s.daemon.Stage config)
    (hN : config.engine.maxSetupRetries.toNat + 1 < 2 ^ 32) (turns : List Turn) :
    (s.play turns).daemon.Stage config := by
  induction turns generalizing s with
  | nil => exact hs
  | cons turn rest ih =>
    exact ih (h.turn hs.steady turn) (h.turn_stage hs hN turn)

end

structure Verdict (config : DaemonConfig) (report : Report) : Prop where
  told : report = expectedReport config.peer.rejectCount config.peer.timeToWait config.peer.amfName
    config.engine.maxSetupRetries report.ticks
  waited : config.Waited
    (min config.peer.rejectCount.toNat config.engine.maxSetupRetries.toNat) report.ticks

/-- However the clock goes on, the daemon catches up, the peer answers and its replies are taken, the
report of a daemon that has settled is the one that the script and the retries lead to. -/
theorem report_of_settled (config : DaemonConfig) (ids : IdSource)
    (hN : config.engine.maxSetupRetries.toNat < 2 ^ 32 - 1)
    (hids : ids.draw.1 ≠ ids.draw.2.draw.1) :
    ∃ s, Session.start config ids = .ok s ∧
      (∀ turns, (s.play turns).daemon.settled = true →
        Verdict config (s.play turns).daemon.shutdown) ∧
      ∀ inputs, (∀ m, .deliver m ∉ inputs) →
        s.after inputs = s.play (inputs.flatMap SessionInput.turns) := by
  obtain ⟨s, hstart, hasking, -⟩ := Session.start_asking config ids (by omega) hids
  refine ⟨s, hstart, fun turns hsettled => ?_, fun inputs h => s.after_eq_play h⟩
  have hended := (hasking.inStep.paced.play hasking.stage (by omega) turns).ended_of_settled hsettled
  have hreport := hended.shutdown (by omega)
  have hticks : (s.play turns).daemon.shutdown.ticks = (s.play turns).daemon.engine.now := by
    rw [hreport]
    unfold expectedReport
    split
    · rfl
    · split
      · rfl
      · split <;> rfl
  exact ⟨by rw [hticks, hreport], by rw [hticks]; exact hended.waited⟩

/-- with as many retries as refusals the peer accepts at last -/
theorem report_of_settled_last_retry :
    let config : DaemonConfig := {
      peer := { rejectCount := 1, timeToWait := some .s1 }
      engine := { maxSetupRetries := 1 } }
    ∃ s turns, Session.start config (.sequential) = .ok s ∧
      (s.play turns).daemon.settled = true ∧
      (s.play turns).daemon.shutdown =
        ⟨.connected, some "open5gs-amf0", none, (s.play turns).daemon.shutdown.ticks, 2, []⟩ := by
  intro config
  obtain ⟨s, hstart, hreport, -⟩ := report_of_settled config (.sequential) (by decide) (by decide)
  obtain ⟨s', turns, hstart', hsettled⟩ := Session.settles config (.sequential) (by decide)
    (by decide) (by decide)
  obtain rfl : s = s' := Except.ok.inj (hstart.symm.trans hstart')
  exact ⟨s, turns, hstart, hsettled, (hreport turns hsettled).told⟩

end NgapProcedures
