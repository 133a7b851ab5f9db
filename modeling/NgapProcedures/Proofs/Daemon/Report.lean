import Mathlib.Data.List.Induction
import NgapProcedures.Proofs.Daemon.Account
import NgapProcedures.Proofs.Daemon.Verdict

/-! The report of a daemon that is shut down, whatever it was told before. The outcome is the one
that the connection had come to, or else the shutdown cancels it and loses both entities. The
requests that are counted are those that were handed to the gateway. -/

namespace NgapProcedures

open Engine

namespace Session

def takes (s : Session) : SessionInput → List PeerMessage
  | .pump => s.daemon.engine.gateway.inner.receive.1
  | _ => []

def taken (s : Session) : List SessionInput → List PeerMessage
  | [] => []
  | input :: rest => s.takes input ++ (s.step input).taken rest

/-- the messages that were handed to the gateway by the time the daemon is shut down: the peer has
taken them, or they wait for it -/
def handed (s : Session) (inputs : List SessionInput) : List PeerMessage :=
  s.taken inputs ++ (s.after inputs).daemon.engine.transportLost.2.gateway.inner.waiting

/-- the response was delivered by the input with which the daemon settled -/
def SettledBy (config : DaemonConfig) (s : Session) (inputs : List SessionInput)
    (response : NgSetupResponse) : Prop :=
  ∃ before input later, inputs = before ++ input :: later ∧
    (s.after before).daemon.settled = false ∧
    (s.after (before ++ [input])).daemon.settled = true ∧
    (s.after before).delivered? input = some ⟨config.amf, .ngSetupResponse response⟩

variable {config : DaemonConfig} {s : Session} {taken : List PeerMessage}
  {outcome : Option ConnectionOutcome}

theorem taken_append (s : Session) (inputs : List SessionInput) (input : SessionInput) :
    s.taken (inputs ++ [input]) = s.taken inputs ++ (s.after inputs).takes input := by
  induction inputs generalizing s with
  | nil => exact List.append_nil _
  | cons first rest ih =>
    rw [List.cons_append, taken, taken, ih, after_cons, List.append_assoc]

theorem SettledBy.snoc {inputs : List SessionInput} {response : NgSetupResponse}
    (h : s.SettledBy config inputs response) (input : SessionInput) :
    s.SettledBy config (inputs ++ [input]) response := by
  obtain ⟨before, first, later, rfl, hrest⟩ := h
  exact ⟨before, first, later ++ [input], by simp, hrest⟩

theorem account_step (h : s.daemon.Account config taken outcome)
    (hN : config.engine.maxSetupRetries.toNat + 1 < 2 ^ 32) (input : SessionInput) :
    ∃ outcome', (s.step input).daemon.Account config (taken ++ s.takes input) outcome' ∧
      Daemon.Decides config (s.delivered? input) outcome outcome' := by
  cases input with
  | clock elapsed =>
    simp only [takes, List.append_nil]
    exact ⟨_, h, .stays _⟩
  | tick =>
    simp only [takes, List.append_nil]
    exact ⟨_, h.tick hN s.clock, .stays _⟩
  | deliver m =>
    simp only [takes, List.append_nil]
    exact h.deliver hN m
  | pump =>
    rw [step_pump, delivered?]
    split
    · exact ⟨_, h.servePeer, .stays _⟩
    · next m rest hin =>
      have hm : s.daemon.servePeer.inbound.head? = some m := congrArg List.head? hin
      rw [hm]
      exact (h.servePeer.withInbound rest).deliver hN m

/-- whatever the daemon is told, the account is kept, and an acceptance has made the success -/
theorem account_after (h : s.daemon.Account config [] none)
    (hN : config.engine.maxSetupRetries.toNat + 1 < 2 ^ 32) (inputs : List SessionInput) :
    ∃ outcome, (s.after inputs).daemon.Account config (s.taken inputs) outcome ∧
      ∀ name, outcome = some (.success name) → ∃ response, s.SettledBy config inputs response ∧
        response.amfName = name := by
  induction inputs using List.reverseRecOn with
  | nil => exact ⟨none, h, by simp⟩
  | append_singleton inputs input ih =>
    obtain ⟨outcome, haccount, hsettled⟩ := ih
    obtain ⟨outcome', haccount', hd⟩ := account_step haccount hN input
    have hafter : s.after (inputs ++ [input]) = (s.after inputs).step input :=
      s.after_append inputs [input]
    rw [taken_append, hafter]
    refine ⟨outcome', haccount', fun name hname => ?_⟩
    cases hd with
    | stays =>
      obtain ⟨response, hby, hresponse⟩ := hsettled name hname
      exact ⟨response, hby.snoc input, hresponse⟩
    | ends hends =>
      obtain ⟨response, hm, hresponse⟩ := hends name (Option.some.inj hname)
      refine ⟨response, ⟨inputs, input, [], rfl, haccount.fate.settled, ?_, hm⟩, hresponse⟩
      rw [hafter]
      exact haccount'.fate.settled

end Session

def Report.on (outcome : ConnectionOutcome) (ticks : UInt64) (setupRequests : UInt32)
    (lost : List String) : Report :=
  match outcome with
  | .success name => ⟨.connected, some name, none, ticks, setupRequests, lost⟩
  | .failure failure => ⟨.failed, none, some failure.message, ticks, setupRequests, lost⟩
  | .cancelled => ⟨.cancelled, none, none, ticks, setupRequests, lost⟩

theorem Report.setupRequests_on (outcome : ConnectionOutcome) (ticks : UInt64)
    (setupRequests : UInt32) (lost : List String) :
    (Report.on outcome ticks setupRequests lost).setupRequests = setupRequests := by
  cases outcome <;> rfl

namespace Daemon

variable {config : DaemonConfig} {d : Daemon} {taken : List PeerMessage}
  {outcome : Option ConnectionOutcome}

/-- The shutdown cancels a connection that is outstanding, and keeps the outcome of any other. -/
theorem Fate.result_transportLost (h : d.Fate config outcome) :
    d.engine.transportLost.2.result? d.connection =
      some (.connection (outcome.getD .cancelled)) := by
  cases h with
  | @outstanding p c h =>
    have hp := h.counted.paired
    rw [h.connection]
    exact (hp.steady.reported.cancelled hp.connection).2.1
  | closed h =>
    have hresult : d.engine.result? d.connection = some (.connection _) := h.slot ▸ h.result
    have hready : d.engine.ready d.connection = true := Option.isSome_iff_exists.2 ⟨_, hresult⟩
    exact (h.steady.reported.kept hready).trans hresult

theorem Fate.mem_lost_iff (h : d.Fate config outcome) {entity : EntityId} :
    entity ∈ d.engine.transportLost.1 ↔
      outcome = none ∧ (entity = config.amf ∨ entity = config.controller) := by
  rw [h.steady.reported.mem_lost_iff]
  cases h with
  | @outstanding p c h =>
    have hp := h.counted.paired
    rw [← h.amf, ← h.controller]
    constructor
    · rintro ⟨q, t, ht, rfl⟩
      rcases hp.only ht with rfl | rfl
      · obtain rfl := Option.some.inj (hp.setup.symm.trans ht)
        exact ⟨rfl, .inl rfl⟩
      · obtain rfl := Option.some.inj (hp.connection.symm.trans ht)
        exact ⟨rfl, .inr rfl⟩
    · rintro ⟨-, rfl | rfl⟩
      · exact ⟨_, _, hp.setup, rfl⟩
      · exact ⟨_, _, hp.connection, rfl⟩
  | closed h => simp [h.tasks]

theorem report_eq_on {lost : List EntityId} {o : ConnectionOutcome}
    (h : d.engine.result? d.connection = some (.connection o)) :
    d.report lost = .on o d.engine.now d.setupRequests (lost.map (·.text)) := by
  cases o <;> simp [report, Report.on, h]

/-- The report tells what the connection has come to, with the shutdown at the latest. -/
theorem Account.shutdown_eq (h : d.Account config taken outcome)
    (hN : config.engine.maxSetupRetries.toNat + 1 < 2 ^ 32) :
    ∃ ticks requests, requests.toNat = d.requests ∧
      d.shutdown = .on (outcome.getD .cancelled) ticks requests
        (d.engine.transportLost.1.map (·.text)) := by
  have hr := requests_transportLost h.fate.steady
  have hlt := Nat.lt_of_le_of_lt h.fate.requests_le hN
  rw [← hr] at hlt
  exact ⟨_, _, (requests_tally hlt).2.trans hr,
    report_eq_on (d := Daemon.tally { d with engine := d.engine.transportLost.2 })
      h.fate.result_transportLost⟩

end Daemon

/-- what a report says of the session that it closes -/
structure Truthful (config : DaemonConfig) (s : Session) (inputs : List SessionInput)
    (report : Report) : Prop where
  decided : report.outcome ≠ .pending
  settled : (s.after inputs).daemon.settled = true →
    (report.outcome = .connected ∨ report.outcome = .failed) ∧ report.lost = []
  unsettled : (s.after inputs).daemon.settled = false → report.outcome = .cancelled ∧
    report.lost.Pairwise (· < ·) ∧
    ∀ name, name ∈ report.lost ↔ name = config.amf.text ∨ name = config.controller.text
  amfName : report.amfName.isSome = true ↔ report.outcome = .connected
  named : ∀ name, report.amfName = some name → ∃ response,
    s.SettledBy config inputs response ∧ response.amfName = name
  reason : report.reason.isSome = true ↔ report.outcome = .failed
  handed : s.handed inputs = List.replicate report.setupRequests.toNat config.request
  bounded : report.setupRequests.toNat ≤ config.engine.maxSetupRetries.toNat + 1

section

variable {config : DaemonConfig} {s : Session} {inputs : List SessionInput}

theorem Daemon.Outstanding.truthful {p : RetryProcedure NgSetupRequest NgSetupResponse}
    {c : AmfConnection} (h : (s.after inputs).daemon.Outstanding config p c) {ticks : UInt64}
    {requests : UInt32} {lost : List EntityId}
    (hascending : lost.Pairwise fun a b => compare a b = .lt)
    (hlost : ∀ entity, entity ∈ lost ↔ entity = config.amf ∨ entity = config.controller)
    (hhanded : s.handed inputs = List.replicate requests.toNat config.request)
    (hbounded : requests.toNat ≤ config.engine.maxSetupRetries.toNat + 1) :
    Truthful config s inputs (.on .cancelled ticks requests (lost.map (·.text))) where
  decided := nofun
  settled hs := by
    rw [(Daemon.Fate.outstanding h).settled] at hs
    simp at hs
  unsettled _ := by
    refine ⟨rfl, List.pairwise_map.2 (hascending.imp fun h => compareOfLessAndEq_eq_lt.1 h), ?_⟩
    intro name
    simp only [Report.on, List.mem_map, hlost]
    constructor
    · rintro ⟨entity, rfl | rfl, rfl⟩
      · exact .inl rfl
      · exact .inr rfl
    · rintro (rfl | rfl)
      · exact ⟨_, .inl rfl, rfl⟩
      · exact ⟨_, .inr rfl, rfl⟩
  amfName := by simp [Report.on]
  named := nofun
  reason := by simp [Report.on]
  handed := hhanded
  bounded := hbounded

theorem Daemon.Closed.truthful {outcome : ConnectionOutcome}
    (h : (s.after inputs).daemon.Closed config outcome) {ticks : UInt64} {requests : UInt32}
    (hnamed : ∀ name, outcome = .success name → ∃ response,
      s.SettledBy config inputs response ∧ response.amfName = name)
    (hhanded : s.handed inputs = List.replicate requests.toNat config.request)
    (hbounded : requests.toNat ≤ config.engine.maxSetupRetries.toNat + 1) :
    Truthful config s inputs (.on outcome ticks requests []) where
  decided := by cases outcome <;> nofun
  settled _ := by
    cases outcome with
    | success name => exact ⟨.inl rfl, rfl⟩
    | failure f => exact ⟨.inr rfl, rfl⟩
    | cancelled => exact absurd rfl h.natural
  unsettled hs := by
    rw [(Daemon.Fate.closed h).settled] at hs
    simp at hs
  amfName := by cases outcome <;> simp [Report.on]
  named name hname := by
    cases outcome with
    | success name' =>
      obtain rfl := Option.some.inj hname
      exact hnamed _ rfl
    | failure f => simp [Report.on] at hname
    | cancelled => exact absurd rfl h.natural
  reason := by cases outcome <;> simp [Report.on]
  handed := by rw [Report.setupRequests_on, hhanded]
  bounded := by rw [Report.setupRequests_on]; exact hbounded

theorem Daemon.Account.truthful {outcome : Option ConnectionOutcome}
    (h : (s.after inputs).daemon.Account config (s.taken inputs) outcome)
    (hN : config.engine.maxSetupRetries.toNat + 1 < 2 ^ 32)
    (hnamed : ∀ name, outcome = some (.success name) → ∃ response,
      s.SettledBy config inputs response ∧ response.amfName = name) :
    Truthful config s inputs (s.after inputs).daemon.shutdown := by
  have hfate := h.fate
  have hreported := hfate.steady.reported
  obtain ⟨ticks, requests, hrequests, hreport⟩ := h.shutdown_eq hN
  have hhanded : s.handed inputs = List.replicate requests.toNat config.request := by
    rw [Session.handed, hreported.unsent.2, hrequests]
    exact h.handed
  have hbounded : requests.toNat ≤ config.engine.maxSetupRetries.toNat + 1 :=
    hrequests ▸ hfate.requests_le
  rw [hreport]
  cases hfate with
  | outstanding ho =>
    apply ho.truthful hreported.ascending _ hhanded hbounded
    intro entity
    exact h.fate.mem_lost_iff.trans (and_iff_right rfl)
  | closed ho =>
    have hnobody : (s.after inputs).daemon.engine.transportLost.1 = [] := by
      apply List.eq_nil_iff_forall_not_mem.2
      intro entity he
      simpa using (h.fate.mem_lost_iff.1 he).1
    rw [hnobody]
    exact ho.truthful (fun name hname => hnamed name (congrArg some hname)) hhanded hbounded

end

/-- A daemon starts with its request handed to the gateway, once, and whatever it is told then, the
report that it ends with is true to what happened. -/
theorem report_truthful (config : DaemonConfig) (ids : IdSource) (reading : Duration)
    (hN : config.engine.maxSetupRetries.toNat < 2 ^ 32 - 1)
    (hids : ids.draw.1 ≠ ids.draw.2.draw.1) :
    ∃ d, Daemon.startup config ids reading = .ok d ∧
      d.engine.gateway = ⟨{ waiting := [config.request] }⟩ ∧
      ∀ inputs, Truthful config ⟨d, reading⟩ inputs
        ((⟨d, reading⟩ : Session).after inputs).daemon.shutdown := by
  have hN : config.engine.maxSetupRetries.toNat + 1 < 2 ^ 32 := by omega
  obtain ⟨e, hstart, hl⟩ := Daemon.startup_eq config ids reading hids
  let d : Daemon := { Daemon.launched config ids e with pacer := .new reading config.engine.tick }
  have hnext : d.engine.timers.nextId.toNat = 1 := congrArg (·.nextId.toNat) hl.timers
  have hrequests : d.requests = 1 := Daemon.requests_launched hl
  have hgateway : d.engine.gateway = ⟨{ waiting := [config.request] }⟩ := hl.gateway
  have haccount : d.Account config [] none := by
    have hcounted : d.engine.Counted _ _ := ⟨hl.paired, by omega, fun _ => by omega⟩
    have hretried : 0 ≤ config.engine.maxSetupRetries := UInt32.le_iff_toNat_le.2 (Nat.zero_le _)
    refine ⟨.outstanding ⟨hcounted, rfl, rfl, rfl, rfl, rfl, hretried, hrequests⟩, ?_, ?_⟩
    · rw [hgateway]
    · rw [hgateway, hrequests]
      rfl
  refine ⟨d.tally, hstart, hgateway, fun inputs => ?_⟩
  obtain ⟨outcome, haccount', hnamed⟩ :=
    Session.account_after (s := ⟨d.tally, reading⟩) (haccount.tally hN) hN inputs
  exact haccount'.truthful hN hnamed

/-- A daemon that waits out a refusal is shut down, and both its entities are lost. -/
theorem report_truthful_refused_once : ∃ d, Daemon.startup refusedOnce (.sequential) .zero = .ok d ∧
    let report := ((⟨d, .zero⟩ : Session).after [.pump]).daemon.shutdown
    report.outcome = .cancelled ∧ report.amfName = none ∧
      ∀ name, name ∈ report.lost ↔ name = "amf-1" ∨ name = "ngc" := by
  obtain ⟨d, hstart, -, htruthful⟩ :=
    report_truthful refusedOnce (.sequential) .zero (by decide) (by decide)
  obtain ⟨s, hs, hpending⟩ := exists_start (fun s => !(s.after [.pump]).daemon.settled)
    (by decide +kernel)
  obtain rfl : s = ⟨d, .zero⟩ := by
    rw [Session.start, hstart] at hs
    exact (Except.ok.inj hs).symm
  have h := htruthful [.pump]
  obtain ⟨houtcome, -, hlost⟩ := h.unsettled (by simpa using hpending)
  refine ⟨d, hstart, houtcome, Option.not_isSome_iff_eq_none.1 fun hname => ?_, hlost⟩
  have hconnected := h.amfName.1 hname
  simp [houtcome] at hconnected

/-- the same report as a whole -/
example : (Session.start refusedOnce (.sequential)).toOption.map
    (fun s => (s.after [.pump]).daemon.shutdown) =
      some ⟨.cancelled, none, none, 0, 1, ["amf-1", "ngc"]⟩ := by decide +kernel

end NgapProcedures
