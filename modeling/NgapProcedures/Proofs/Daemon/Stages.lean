import NgapProcedures.Proofs.Daemon.Turns

/-! The stages of a session with the scripted AMF. The request is on its way to the peer, or the
reply on its way back, or the setup waits out a refusal, or both instances have ended. Every turn
goes from one stage to the next or stays, and the retries that were made tell how many refusals
there were and how much time went by. -/

namespace NgapProcedures

namespace DaemonConfig

/-- the outcome of the connection, and the number of requests it takes -/
def ending (c : DaemonConfig) : ConnectionOutcome × Nat :=
  if c.peer.rejectCount = 0 then (.success c.peer.amfName, 1)
  else
    let refusal : Rejection := ⟨⟨.misc, "unspecified"⟩, c.peer.timeToWait⟩
    match c.peer.timeToWait with
    | none => (.failure (.setup (.rejected refusal)), 1)
    | some _ =>
      if c.peer.rejectCount ≤ c.engine.maxSetupRetries then
        (.success c.peer.amfName, c.peer.rejectCount.toNat + 1)
      else
        (.failure (.setup (.retriesExhausted refusal (c.engine.maxSetupRetries + 1))),
          c.engine.maxSetupRetries.toNat + 1)

/-- time has gone by for that many waits, as far as the count of ticks goes -/
def Waited (c : DaemonConfig) (waits : Nat) (now : UInt64) : Prop :=
  ∀ w, c.peer.timeToWait = some w →
    min (waits * w.duration.ticksToCover c.engine.tick.orMilli) (2 ^ 64 - 1) ≤ now.toNat

theorem Waited.mono {c : DaemonConfig} {waits : Nat} {now now' : UInt64} (h : c.Waited waits now)
    (hle : now.toNat ≤ now'.toNat) : c.Waited waits now' :=
  fun w hw => Nat.le_trans (h w hw) hle

/-- no more requests than one for each retry and one more -/
theorem ending_requests_le (c : DaemonConfig) :
    c.ending.2 ≤ c.engine.maxSetupRetries.toNat + 1 := by
  unfold ending
  split
  · simp
  · split
    · simp
    · split
      · next h => simpa using UInt32.le_iff_toNat_le.1 h
      · simp

end DaemonConfig

def Event.isRequest (event : Event) : Bool := event matches .requestSent ..

theorem Event.isRequest_eq_false {event : Event} (h : ∀ id n, event ≠ .requestSent id n) :
    event.isRequest = false := by
  cases event <;> simp_all [Event.isRequest]

def requestsIn (log : List Event) : Nat := log.countP Event.isRequest

namespace Daemon

def requests (d : Daemon) : Nat := d.setupRequests.toNat + requestsIn d.engine.log

structure Exchange (config : DaemonConfig) (d : Daemon) (sent replies : List PeerMessage)
    (rejected : UInt32) : Prop where
  gateway : d.engine.gateway = ⟨{ waiting := sent }⟩
  inbound : d.inbound = replies
  peer : d.peer = { amf := ⟨config.peer, rejected⟩ }

structure Underway (config : DaemonConfig) (d : Daemon) (k : Nat)
    (p : RetryProcedure NgSetupRequest NgSetupResponse) (c : AmfConnection) : Prop where
  paired : d.engine.Paired p c
  connection : d.connection = ⟨c.id, 1⟩
  tick : d.engine.timers.tick = config.engine.tick.orMilli
  numbers : d.engine.timers.nextId.toNat ≤ k + 2 ∧
    (p.state = .awaitingResponse → d.engine.timers.nextId.toNat ≤ k + 1)
  entity : p.entity = config.amf
  budget : p.maxRetries = config.engine.maxSetupRetries
  attempts : p.attempts.toNat = k
  transmissions : p.transmissions.toNat = k + 1
  requests : d.requests = k + 1
  retried : k ≤ config.engine.maxSetupRetries.toNat
  refused : k ≤ config.peer.rejectCount.toNat
  imposed : 0 < k → ∃ w, config.peer.timeToWait = some w
  waited : config.Waited k d.engine.now

structure Ended (config : DaemonConfig) (d : Daemon) : Prop where
  steady : d.engine.Steady
  tasks : ∀ q, d.engine.tasks.get? q = none
  slot : d.connection.slot = 1
  result : d.engine.results.get? 1 = some (.connection config.ending.1)
  requests : d.requests = config.ending.2
  waited : config.Waited
    (min config.peer.rejectCount.toNat config.engine.maxSetupRetries.toNat) d.engine.now
  exchange : ∃ rejected, d.Exchange config [] [] rejected

inductive Stage (config : DaemonConfig) (d : Daemon) : Prop where
  | asked {k : Nat} {p : RetryProcedure NgSetupRequest NgSetupResponse} {c : AmfConnection}
      {rejected : UInt32} (hu : d.Underway config k p c) (hp : p.state = .awaitingResponse)
      (hx : d.Exchange config [⟨p.entity, .ngSetupRequest p.request⟩] [] rejected)
      (hk : rejected.toNat = k)
  | refused {k : Nat} {p : RetryProcedure NgSetupRequest NgSetupResponse} {c : AmfConnection}
      {rejected : UInt32} (hu : d.Underway config k p c) (hp : p.state = .awaitingResponse)
      (hx : d.Exchange config []
        [⟨config.amf, .ngSetupFailure ⟨⟨.misc, "unspecified"⟩, config.peer.timeToWait⟩⟩] rejected)
      (hk : rejected.toNat = k + 1) (hr : k < config.peer.rejectCount.toNat)
  | accepted {k : Nat} {p : RetryProcedure NgSetupRequest NgSetupResponse} {c : AmfConnection}
      {rejected : UInt32} {response : NgSetupResponse} (hu : d.Underway config k p c)
      (hp : p.state = .awaitingResponse)
      (hx : d.Exchange config [] [⟨config.amf, .ngSetupResponse response⟩] rejected)
      (hk : k = config.peer.rejectCount.toNat) (ha : response.amfName = config.peer.amfName)
  | resting {k : Nat} {p : RetryProcedure NgSetupRequest NgSetupResponse} {c : AmfConnection}
      {rejected : UInt32} {timer : TimerId} {deadline : UInt64} (hu : d.Underway config k p c)
      (hw : d.engine.Waiting p.id ⟨.setup p, 0⟩ timer deadline) (hx : d.Exchange config [] [] rejected)
      (hk : rejected.toNat = k + 1) (hr : k < config.peer.rejectCount.toNat)
      (hn : k < config.engine.maxSetupRetries.toNat)
      (hd : config.Waited (k + 1) deadline) (hi : ∃ w, config.peer.timeToWait = some w)
  | ended (ho : d.Ended config)

theorem Ended.settled {config : DaemonConfig} {d : Daemon} (h : d.Ended config) :
    d.settled = true := by
  simp [Daemon.settled, Engine.ready, Engine.result?, h.slot, h.result]

theorem toNat_foldl_count {α : Type} (p : α → Bool) (l : List α) (n : UInt32)
    (h : n.toNat + l.countP p < 2 ^ 32) :
    (l.foldl (fun n a => if p a then n + 1 else n) n).toNat = n.toNat + l.countP p := by
  induction l generalizing n with
  | nil => rfl
  | cons a rest ih =>
    rw [List.countP_cons] at h ⊢
    rw [List.foldl_cons]
    by_cases hp : p a = true
    · simp only [hp, ↓reduceIte] at h ⊢
      have hn : (n + 1).toNat = n.toNat + 1 := by
        rw [UInt32.toNat_add, UInt32.toNat_one, Nat.mod_eq_of_lt (by omega)]
      rw [ih (n + 1) (by omega), hn]
      omega
    · simp only [hp, Bool.false_eq_true, ↓reduceIte] at h ⊢
      exact ih n (by omega)

/-- a drained log loses no request, as long as they can be counted -/
theorem requests_tally {d : Daemon} (h : d.requests < 2 ^ 32) :
    d.tally.requests = d.requests ∧ d.tally.setupRequests.toNat = d.requests := by
  have hcount := toNat_foldl_count Event.isRequest d.engine.log d.setupRequests h
  exact ⟨hcount, hcount⟩

theorem setupRequests_tally {d : Daemon} (h : ∀ event ∈ d.engine.log, event.isRequest = false) :
    d.tally.setupRequests = d.setupRequests := by
  have hfold (log : List Event) (h : ∀ event ∈ log, event.isRequest = false) (n : UInt32) :
      log.foldl (fun n event => if event.isRequest then n + 1 else n) n = n := by
    induction log with
    | nil => rfl
    | cons event rest ih =>
      rw [List.foldl_cons, h event (List.mem_cons_self ..)]
      exact ih fun event hm => h event (List.mem_cons_of_mem _ hm)
  exact hfold d.engine.log h d.setupRequests

theorem requestsIn_append (a b : List Event) : requestsIn (a ++ b) = requestsIn a + requestsIn b :=
  List.countP_append ..

section

variable {config : DaemonConfig} {d d' : Daemon}

theorem Underway.transfer {k : Nat} {p : RetryProcedure NgSetupRequest NgSetupResponse}
    {c : AmfConnection} (h : d.Underway config k p c) (hp : d'.engine.Paired p c)
    (hc : d'.connection = d.connection)
    (ht : d'.engine.timers.tick = d.engine.timers.tick)
    (hn : d'.engine.timers.nextId = d.engine.timers.nextId) (hr : d'.requests = d.requests)
    (hw : d.engine.now.toNat ≤ d'.engine.now.toNat) : d'.Underway config k p c :=
  { h with
    paired := hp
    connection := hc.trans h.connection
    tick := ht.trans h.tick
    numbers := hn ▸ h.numbers
    requests := hr.trans h.requests
    waited := h.waited.mono hw }

theorem Ended.transfer (h : d.Ended config) (hs : d'.engine.Steady)
    (ht : d'.engine.tasks = d.engine.tasks) (hres : d'.engine.results = d.engine.results)
    (hc : d'.connection = d.connection) (hr : d'.requests = d.requests)
    (hw : d.engine.now.toNat ≤ d'.engine.now.toNat)
    (hx : ∃ rejected, d'.Exchange config [] [] rejected) : d'.Ended config where
  steady := hs
  tasks := ht ▸ h.tasks
  slot := hc ▸ h.slot
  result := hres ▸ h.result
  requests := hr.trans h.requests
  waited := h.waited.mono hw
  exchange := hx

end

end Daemon

end NgapProcedures
