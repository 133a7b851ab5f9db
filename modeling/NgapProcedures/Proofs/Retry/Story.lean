import Mathlib.Algebra.GroupWithZero.Nat
import Mathlib.Data.List.TakeWhile
import NgapProcedures.Proofs.Retry.Verdict

/-! What observers are told of a retry procedure, in its order: its launch and its first request, then
a backoff and the next request any number of times within the budget, perhaps one more backoff, and
its end. Backoffs and requests are numbered by counters of their own, which keep in step. -/

namespace NgapProcedures

def Event.isLaunch : Event → Bool
  | procedureLaunched .. => true
  | _ => false

def Event.closes : Event → Bool
  | procedureSucceeded _ | procedureRejected .. | retriesExhausted .. | procedureCancelled _ => true
  | _ => false

theorem Outcome.closes_farewell {σ : Type} (outcome : Outcome σ RetryFailure) (id : ProcedureId) :
    (outcome.farewell id).closes = true := by
  rcases outcome with _ | (_ | _) | _ <;> rfl

theorem Outcome.isLaunch_farewell {σ : Type} (outcome : Outcome σ RetryFailure) (id : ProcedureId) :
    (outcome.farewell id).isLaunch = false := by
  rcases outcome with _ | (_ | _) | _ <;> rfl

theorem Rejection.millis_of_wait? {r : Rejection} {delay : Duration} (h : r.wait? = some delay) :
    (UInt64.ofNatClamp delay.millis).toNat = delay.millis := by
  obtain ⟨w, -, rfl⟩ := Option.map_eq_some_iff.1 h
  cases w <;> rfl

/-- backoffs with such delays in milliseconds, the first of them the `k`-th, each with the request that
follows it -/
def rounds (id : ProcedureId) : Nat → List UInt64 → List Event
  | _, [] => []
  | k, ms :: rest => .backoffStarted id (.ofNat k) ms :: .requestSent id (.ofNat (k + 1)) ::
      rounds id (k + 1) rest

theorem rounds_snoc (id : ProcedureId) (k : Nat) (waits : List UInt64) (ms : UInt64) :
    rounds id k (waits ++ [ms]) = rounds id k waits ++
      [.backoffStarted id (.ofNat (k + waits.length)) ms,
        .requestSent id (.ofNat (k + waits.length + 1))] := by
  induction waits generalizing k with
  | nil => rfl
  | cons w rest ih =>
    have hk : k + 1 + rest.length = k + (rest.length + 1) := by omega
    simp only [List.cons_append, rounds, ih, List.length_cons, hk]

theorem mem_rounds {id : ProcedureId} {event : Event} {k : Nat} {waits : List UInt64}
    (h : event ∈ rounds id k waits) :
    (∃ n ms, event = .backoffStarted id n ms) ∨ ∃ n, event = .requestSent id n := by
  induction waits generalizing k with
  | nil => simp [rounds] at h
  | cons w rest ih =>
    simp only [rounds, List.mem_cons] at h
    rcases h with rfl | rfl | h
    · exact .inl ⟨_, _, rfl⟩
    · exact .inr ⟨_, rfl⟩
    · exact ih h

/-- what is told of a procedure up to its end: its backoffs, one of them perhaps not over -/
def opened (id : ProcedureId) (kind : Kind) (entity : EntityId) (waits : List UInt64)
    (pending : Option UInt64) : List Event :=
  .procedureLaunched id kind.name entity :: .requestSent id 1 :: rounds id 1 waits ++
    pending.toList.map (.backoffStarted id (.ofNat (waits.length + 1)) ·)

theorem closes_of_mem_opened {id : ProcedureId} {kind : Kind} {entity : EntityId}
    {waits : List UInt64} {pending : Option UInt64} {event : Event}
    (h : event ∈ opened id kind entity waits pending) : event.closes = false := by
  simp only [opened, List.cons_append, List.mem_cons, List.mem_append, List.mem_map] at h
  rcases h with rfl | rfl | h | ⟨ms, -, rfl⟩
  · rfl
  · rfl
  · rcases mem_rounds h with ⟨n, ms, rfl⟩ | ⟨n, rfl⟩ <;> rfl
  · rfl

theorem isLaunch_of_mem_opened {id : ProcedureId} {kind : Kind} {entity : EntityId}
    {waits : List UInt64} {pending : Option UInt64} {event : Event}
    (h : event ∈ (opened id kind entity waits pending).tail) : event.isLaunch = false := by
  simp only [opened, List.cons_append, List.tail_cons, List.mem_cons, List.mem_append,
    List.mem_map] at h
  rcases h with rfl | h | ⟨ms, -, rfl⟩
  · rfl
  · rcases mem_rounds h with ⟨n, ms, rfl⟩ | ⟨n, rfl⟩ <;> rfl
  · rfl

/-- What events tell up to the next launch. The first of them is one itself: the name of an instance
that is gone may be given out again. -/
def lifetime : List Event → List Event
  | [] => []
  | event :: rest => event :: rest.takeWhile fun event => !event.isLaunch

def Relaunched (events : List Event) : Prop :=
  ∃ before launch rest, events = before ++ launch :: rest ∧ before ≠ [] ∧ launch.isLaunch = true

theorem lifetime_append_launch {before : List Event} (hne : before ≠ []) {launch : Event}
    (hl : launch.isLaunch = true) (rest : List Event) :
    lifetime (before ++ launch :: rest) = lifetime before := by
  cases before with
  | nil => exact absurd rfl hne
  | cons event before =>
    have hcut : (before ++ launch :: rest).takeWhile (fun event => !event.isLaunch) =
        before.takeWhile fun event => !event.isLaunch := by
      rw [List.takeWhile_append]
      split
      · next hlen =>
        rw [(List.takeWhile_prefix _).eq_of_length hlen]
        simp [hl]
      · rfl
    exact congrArg (event :: ·) hcut

theorem Relaunched.lifetime_append {events : List Event} (h : Relaunched events)
    (more : List Event) : lifetime (events ++ more) = lifetime events := by
  obtain ⟨before, launch, rest, rfl, hne, hl⟩ := h
  rw [List.append_assoc, List.cons_append, lifetime_append_launch hne hl,
    lifetime_append_launch hne hl]

theorem Relaunched.append {events : List Event} (h : Relaunched events) (more : List Event) :
    Relaunched (events ++ more) := by
  obtain ⟨before, launch, rest, rfl, hne, hl⟩ := h
  exact ⟨before, launch, rest ++ more, by simp, hne, hl⟩

/-- What is told of a retry procedure with its outcome, if it has one. Its backoffs are those that the
peer imposed, `waits` that are over, one `pending`, and one `spent` on a budget that was used up. -/
structure Story (id : ProcedureId) (kind : Kind) (entity : EntityId) (budget : Nat)
    (imposed : List Duration) (outcome : Option (RetryOutcome Unit)) (events : List Event)
    (waits : List UInt64) (pending spent : Option UInt64) : Prop where
  events_eq : events = opened id kind entity waits pending ++ outcome.toList.map (·.farewell id)
  imposed_eq : imposed.map Duration.millis =
    (waits ++ pending.toList ++ spent.toList).map UInt64.toNat
  within : waits.length + pending.toList.length ≤ budget
  /-- only a cancellation ends a backoff that is not over -/
  unfinished : pending.isSome = true → outcome = none ∨ outcome = some .cancelled
  spent_iff : spent.isSome = true ↔
    ∃ last attempts, outcome = some (.failure (.retriesExhausted last attempts))
  /-- the retries are exhausted once all of them were made -/
  exhausted : ∀ last attempts, outcome = some (.failure (.retriesExhausted last attempts)) →
    waits.length = budget ∧ attempts.toNat = budget + 1

namespace Story

variable {id : ProcedureId} {kind : Kind} {entity : EntityId} {budget : Nat}
  {imposed : List Duration} {outcome : Option (RetryOutcome Unit)} {events : List Event}
  {waits : List UInt64} {pending spent : Option UInt64}

theorem mem_iff (h : Story id kind entity budget imposed outcome events waits pending spent)
    {event : Event} (hc : event.closes = true) :
    event ∈ events ↔ ∃ o, outcome = some o ∧ event = o.farewell id := by
  rw [h.events_eq, List.mem_append, or_iff_right fun hm => ?_]
  · cases outcome <;> simp
  · simp [closes_of_mem_opened hm] at hc

/-- a story tells of one launch -/
theorem lifetime_eq
    (h : Story id kind entity budget imposed outcome events waits pending spent) :
    lifetime events = events := by
  have htail : ∀ event ∈ events.tail, event.isLaunch = false := by
    intro event hm
    rw [h.events_eq, List.tail_append_of_ne_nil (by simp [opened]), List.mem_append] at hm
    rcases hm with hm | hm
    · exact isLaunch_of_mem_opened hm
    · obtain ⟨o, -, rfl⟩ := List.mem_map.1 hm
      exact o.isLaunch_farewell id
  have hne : events ≠ [] := by simp [h.events_eq, opened]
  cases events with
  | nil => exact absurd rfl hne
  | cons event rest =>
    exact congrArg _ (List.takeWhile_eq_self_iff.2 fun event hm => by simp [htail event hm])

theorem closed_iff (h : Story id kind entity budget imposed outcome events waits pending spent) :
    outcome.isSome = true ↔ ∃ event ∈ events, event.closes = true := by
  constructor
  · intro ho
    obtain ⟨o, rfl⟩ := Option.isSome_iff_exists.1 ho
    exact ⟨_, (h.mem_iff (o.closes_farewell id)).2 ⟨o, rfl, rfl⟩, o.closes_farewell id⟩
  · rintro ⟨event, hm, hc⟩
    obtain ⟨o, rfl, -⟩ := (h.mem_iff hc).1 hm
    rfl

/-- the end that is told is the outcome -/
theorem outcome_iff (h : Story id kind entity budget imposed outcome events waits pending spent) :
    (.procedureSucceeded id ∈ events ↔ outcome = some (.success ())) ∧
    ((∃ reason, .procedureRejected id reason ∈ events) ↔
      ∃ r, outcome = some (.failure (.rejected r))) ∧
    ((∃ attempts, .retriesExhausted id attempts ∈ events ∧ attempts.toNat = budget + 1) ↔
      ∃ last attempts, outcome = some (.failure (.retriesExhausted last attempts)) ∧
        attempts.toNat = budget + 1) ∧
    (.procedureCancelled id ∈ events ↔ outcome = some .cancelled) := by
  refine ⟨?_, ?_, ?_, ?_⟩
  · rw [h.mem_iff rfl]
    rcases outcome with _ | (_ | (_ | _) | _) <;> simp [Outcome.farewell]
  · simp only [h.mem_iff (show (Event.procedureRejected id _).closes from rfl)]
    rcases outcome with _ | (_ | (_ | _) | _) <;> simp [Outcome.farewell]
  · simp only [h.mem_iff (show (Event.retriesExhausted id _).closes from rfl)]
    rcases outcome with _ | (_ | (_ | _) | _) <;> simp [Outcome.farewell]
  · rw [h.mem_iff rfl]
    rcases outcome with _ | (_ | (_ | _) | _) <;> simp [Outcome.farewell]

end Story

namespace Machine

def attempts : Machine → UInt32
  | setup p => p.attempts
  | update p => p.attempts
  | connection .. => 0

def budget : Machine → UInt32
  | setup p => p.maxRetries
  | update p => p.maxRetries
  | connection .. => 0

theorem retries_iff (m : Machine) : m.retries = true ↔ m.attempts.toNat < m.budget.toNat := by
  cases m with
  | connection c slot => simp [retries, attempts, budget]
  | _ => simp [retries, attempts, budget, UInt32.lt_iff_toNat_lt]

theorem budget_launched (m : Machine) : m.launched.budget = m.budget := by
  cases m <;> rfl

theorem budget_resent (m : Machine) : m.resent.budget = m.budget := by
  cases m <;> rfl

theorem budget_backedOff (m : Machine) (r : Rejection) : (m.backedOff r).budget = m.budget := by
  cases m <;> rfl

theorem retryOutcome?_cancellation {m : Machine} (h : m.kind ≠ .amfConnection) :
    m.cancellation.retryOutcome? = some .cancelled := by
  cases m with
  | connection c slot => exact absurd rfl h
  | _ => rfl

/-- A retry procedure that awaits a reply or waits out a backoff, and what has been told of it: the
numbers that it goes by are those of the story. -/
structure Recounted (m : Machine) (imposed : List Duration) (events : List Event)
    (waits : List UInt64) (pending : Option UInt64) : Prop where
  story : Story m.id m.kind m.entity m.budget.toNat imposed none events waits pending none
  retry : m.kind ≠ .amfConnection
  attempts : m.attempts.toNat = waits.length
  transmissions : m.transmissions.toNat = waits.length + 1
  waiting : m.waitingFor = if pending.isSome then .timer else .response

variable {m : Machine} {imposed : List Duration} {events : List Event} {waits : List UInt64}
  {pending : Option UInt64}

theorem nextAttempt_eq (h : m.kind ≠ .amfConnection) : m.nextAttempt = m.attempts + 1 := by
  cases m with
  | connection c slot => exact absurd rfl h
  | _ => rfl

theorem Recounted.pending_of_response (h : m.Recounted imposed events waits pending)
    (hw : m.waitingFor = .response) : pending = none := by
  have hwaiting := h.waiting
  cases pending with
  | none => rfl
  | some ms => simp [hw] at hwaiting

theorem Recounted.pending_of_timer (h : m.Recounted imposed events waits pending)
    (hw : m.waitingFor = .timer) : ∃ ms, pending = some ms := by
  have hwaiting := h.waiting
  cases pending with
  | none => simp [hw] at hwaiting
  | some ms => exact ⟨ms, rfl⟩

theorem Recounted.resent (h : m.Recounted imposed events waits pending) {ms : UInt64}
    (hp : pending = some ms) (hN : m.budget.toNat + 1 < 2 ^ 32) :
    m.resent.Recounted imposed (events ++ [.requestSent m.id m.resent.transmissions])
      (waits ++ [ms]) none := by
  subst hp
  have hlen : waits.length + 1 ≤ m.budget.toNat := h.story.within
  have hattempts := h.attempts
  have htransmissions := h.transmissions
  have hnumbers : m.resent.attempts.toNat = waits.length + 1 ∧
      m.resent.transmissions.toNat = waits.length + 2 ∧ m.resent.waitingFor = .response := by
    have hadd {n : UInt32} {k : Nat} (hn : n.toNat = k) (hk : k + 1 < 2 ^ 32) :
        (n + 1).toNat = k + 1 := by
      rw [UInt32.toNat_add, hn]
      exact Nat.mod_eq_of_lt hk
    cases m with
    | connection c slot => exact absurd rfl h.retry
    | _ => exact ⟨hadd hattempts (by omega), hadd htransmissions (by omega), rfl⟩
  obtain ⟨ha, ht, hw⟩ := hnumbers
  obtain ⟨hid, hentity, hkind⟩ := m.static_resent
  have hsent : m.resent.transmissions = .ofNat (1 + waits.length + 1) :=
    UInt32.ofNat_toNat.symm.trans (congrArg UInt32.ofNat (by omega))
  refine ⟨⟨?_, ?_, ?_, by simp, by simp, by simp⟩, hkind ▸ h.retry, by simp [ha], by simp [ht], hw⟩
  · rw [h.story.events_eq, hid, hentity, hkind, hsent]
    simp [opened, rounds_snoc, Nat.add_comm]
  · simpa using h.story.imposed_eq
  · simpa [m.budget_resent] using hlen

theorem Recounted.backedOff (h : m.Recounted imposed events waits none) {r : Rejection}
    {delay : Duration} (hw : r.wait? = some delay) (hb : m.retries = true) :
    (m.backedOff r).Recounted (imposed ++ [delay])
      (events ++ [.backoffStarted m.id m.nextAttempt (.ofNatClamp delay.millis)])
      waits (some (.ofNatClamp delay.millis)) := by
  obtain ⟨hid, hentity, hkind⟩ := m.static_backedOff r
  have hlt := (m.retries_iff).1 hb
  rw [h.attempts] at hlt
  have hnumbers : (m.backedOff r).attempts = m.attempts ∧
      (m.backedOff r).transmissions = m.transmissions := by
    cases m <;> exact ⟨rfl, rfl⟩
  obtain ⟨ha, ht⟩ := hnumbers
  have hnext : m.nextAttempt = .ofNat (waits.length + 1) := by
    rw [nextAttempt_eq h.retry, UInt32.ofNat_add, ← h.attempts, UInt32.ofNat_toNat]
    rfl
  refine ⟨⟨?_, ?_, ?_, by simp, by simp, by simp⟩, hkind ▸ h.retry, by rw [ha, h.attempts],
    by rw [ht, h.transmissions], waitingFor_backedOff r hb⟩
  · rw [h.story.events_eq, hid, hentity, hkind, hnext]
    simp [opened]
  · have := h.story.imposed_eq
    simp_all [Rejection.millis_of_wait? hw]
  · rw [m.budget_backedOff]
    exact hlt

/-- the story ends with a cancellation at any time -/
theorem Recounted.cancelled (h : m.Recounted imposed events waits pending) :
    Story m.id m.kind m.entity m.budget.toNat imposed (some .cancelled)
      (events ++ [.procedureCancelled m.id]) waits pending none where
  events_eq := by simp [h.story.events_eq, Outcome.farewell]
  imposed_eq := h.story.imposed_eq
  within := h.story.within
  unfinished _ := .inr rfl
  spent_iff := by simp
  exhausted := by simp

/-- the story ends with a reply that decides the outcome -/
theorem Recounted.answered (h : m.Recounted imposed events waits none) {pdu : Pdu}
    {outcome : RetryOutcome Unit} (hv : m.verdict? pdu = some outcome) :
    ∃ spent, Story m.id m.kind m.entity m.budget.toNat
      (imposed ++ ((m.rejection? pdu).bind Rejection.wait?).toList) (some outcome)
      (events ++ [outcome.farewell m.id]) waits none spent := by
  have himposed := h.story.imposed_eq
  have hevents : events ++ [outcome.farewell m.id] =
      opened m.id m.kind m.entity waits none ++ (some outcome).toList.map (·.farewell m.id) := by
    simp [h.story.events_eq]
  rcases (verdict?_exhausted hv).2 with ⟨hne, hwait⟩ | ⟨last, delay, rfl, hr, hw, hb⟩
  · exact ⟨none, hevents, by simpa [hwait] using himposed, h.story.within, by simp,
      by simpa using hne, fun last attempts heq => absurd (Option.some.inj heq) (hne last attempts)⟩
  · refine ⟨some (.ofNatClamp delay.millis), hevents, ?_, h.story.within, by simp, by simp, ?_⟩
    · simp_all [Rejection.millis_of_wait? hw]
    · rintro _ _ heq
      obtain ⟨rfl, rfl⟩ : last = _ ∧ m.transmissions = _ := by simpa using heq
      have hle : waits.length ≤ m.budget.toNat := h.story.within
      have hge := mt (m.retries_iff).2 (by simp [hb])
      rw [h.attempts] at hge
      exact ⟨by omega, by rw [h.transmissions]; omega⟩

end Machine

end NgapProcedures
