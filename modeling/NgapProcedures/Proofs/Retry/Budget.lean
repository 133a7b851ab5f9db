import Mathlib.Data.List.Basic
import NgapProcedures.Proofs.Retry.Course

/-! The budget of retries. A procedure with `n` retries sends at most `n + 1` requests and arms at
most `n` timers, whatever events it is fed, and it ends exhausted exactly when `n + 1` of the
rejections that it accepted imposed a wait. The counts follow its state and its number of retries;
an event that is not accepted changes neither. -/

namespace NgapProcedures

def Effect.delay? : Effect → Option Duration
  | startTimer delay => some delay
  | _ => none

/-- the outcome that a reply brings about at once -/
def Reply.verdict? {σ : Type} : Reply σ → Option (RetryOutcome σ)
  | success response => some (.success response)
  | failure r => if r.wait?.isNone then some (.failure (.rejected r)) else none

namespace Passage

variable {σ : Type}

def requests (passages : List (Passage σ)) : List PeerMessage :=
  (passages.flatMap Passage.effects).filterMap Effect.message?

def delays (passages : List (Passage σ)) : List Duration :=
  (passages.flatMap Passage.effects).filterMap Effect.delay?

def rejections (passages : List (Passage σ)) : List Rejection :=
  passages.filterMap (·.event.rejection?)

def wait? (x : Passage σ) : Option Duration := x.event.rejection?.bind Rejection.wait?

def waits (passages : List (Passage σ)) : List Duration := passages.filterMap wait?

def Sends (x : Passage σ) : Prop := ∃ message, .send message ∈ x.effects

structure Tally (passages : List (Passage σ)) (r d w : Nat) : Prop where
  requests : (requests passages).length = r
  delays : (delays passages).length = d
  waits : (waits passages).length = w

theorem Tally.nil : Tally (σ := σ) [] 0 0 0 := ⟨rfl, rfl, rfl⟩

theorem Tally.snoc {passages : List (Passage σ)} {x : Passage σ} {r d w r' d' w' : Nat}
    (h : Tally passages r d w) (hr : (x.effects.filterMap Effect.message?).length = r')
    (hd : (x.effects.filterMap Effect.delay?).length = d') (hw : x.wait?.toList.length = w') :
    Tally (passages ++ [x]) (r + r') (d + d') (w + w') where
  requests := by simp [Passage.requests, ← h.requests, ← hr]
  delays := by simp [Passage.delays, ← h.delays, ← hd]
  waits := by
    rw [← h.waits, ← hw, Passage.waits, Passage.waits, List.filterMap_append,
      List.length_append]
    cases hx : x.wait? <;> simp [hx]

theorem rejections_snoc (passages : List (Passage σ)) (r : Rejection) (fx : List Effect) :
    rejections (passages ++ [⟨.reply (.failure r), fx⟩]) = rejections passages ++ [r] := by
  simp [rejections, RetryEvent.rejection?]

end Passage

namespace RetryProcedure

open Passage

variable {ρ σ : Type}

/-- The counts keep to a budget of `n` retries. It is spent when the outcome is that the retries are
exhausted, and only then. -/
inductive Bounded (passages : List (Passage σ)) (n : Nat) (outcome : Option (RetryOutcome σ)) :
    Prop where
  | exhausted {last : Rejection} {attempts : UInt32}
      (ho : outcome = some (.failure (.retriesExhausted last attempts)))
      (ht : Tally passages (n + 1) n (n + 1)) (hl : (rejections passages).getLast? = some last)
  | within {r d w : Nat}
      (ho : ∀ last attempts, outcome ≠ some (.failure (.retriesExhausted last attempts)))
      (ht : Tally passages r d w) (hr : r ≤ n + 1) (hd : d ≤ n) (hw : w ≤ n)

section

variable {passages : List (Passage σ)} {n : Nat} {outcome : Option (RetryOutcome σ)}

theorem Bounded.requests_le (h : Bounded passages n outcome) :
    (requests passages).length ≤ n + 1 := by
  cases h with
  | exhausted _ ht _ => exact Nat.le_of_eq ht.requests
  | within _ ht hr _ _ => rwa [ht.requests]

theorem Bounded.delays_le (h : Bounded passages n outcome) : (delays passages).length ≤ n := by
  cases h with
  | exhausted _ ht _ => exact Nat.le_of_eq ht.delays
  | within _ ht _ hd _ => rwa [ht.delays]

theorem Bounded.exhausted_iff (h : Bounded passages n outcome) :
    (∃ last attempts, outcome = some (.failure (.retriesExhausted last attempts))) ↔
      (waits passages).length = n + 1 := by
  cases h with
  | exhausted ho ht _ => exact iff_of_true ⟨_, _, ho⟩ ht.waits
  | within ho ht _ _ hw =>
    refine iff_of_false (fun ⟨last, attempts, h⟩ => ho last attempts h) ?_
    rw [ht.waits]
    omega

theorem Bounded.of_exhausted (h : Bounded passages n outcome) {last : Rejection}
    {attempts : UInt32} (ho : outcome = some (.failure (.retriesExhausted last attempts))) :
    (requests passages).length = n + 1 ∧ (delays passages).length = n ∧
      (rejections passages).getLast? = some last := by
  cases h with
  | exhausted ho' ht hl =>
    obtain ⟨rfl, -⟩ : _ ∧ _ := by simpa [ho'] using ho
    exact ⟨ht.requests, ht.delays, hl⟩
  | within ho' => exact absurd ho (ho' last attempts)

end

/-- what has been counted, by the state of the procedure -/
def Counted (passages : List (Passage σ)) (p : RetryProcedure ρ σ) : Prop :=
  let n := p.maxRetries.toNat
  let k := p.attempts.toNat
  match p.state with
  | .created => passages = [] ∧ p.attempts = 0 ∧ p.outcome = none
  | .awaitingResponse => Tally passages (k + 1) k k ∧ k ≤ n ∧ p.outcome = none
  | .backoff => Tally passages (k + 1) (k + 1) (k + 1) ∧ k < n ∧ p.outcome = none
  | .completed | .cancelled => Bounded passages n p.outcome

variable {P : RetryProtocol ρ σ} {p p' : RetryProcedure ρ σ} {event : RetryEvent σ}
  {fx : List Effect} {passages : List (Passage σ)}

theorem messages_farewell (p : RetryProcedure ρ σ) :
    (p.release ++ [Effect.emit (.procedureCancelled p.id)]).filterMap Effect.message? = [] := by
  unfold release
  split <;> rfl

theorem delays_farewell (p : RetryProcedure ρ σ) :
    (p.release ++ [Effect.emit (.procedureCancelled p.id)]).filterMap Effect.delay? = [] := by
  unfold release
  split <;> rfl

/-- until the procedure ends, its budget has room -/
theorem Counted.room (h : Counted passages p) (hs : p.isTerminal = false) :
    p.outcome = none ∧ ∃ r d w, Tally passages r d w ∧ r ≤ p.maxRetries.toNat + 1 ∧
      d ≤ p.maxRetries.toNat ∧ w ≤ p.maxRetries.toNat := by
  cases hstate : p.state with
  | created =>
    simp only [Counted, hstate] at h
    obtain ⟨rfl, -, ho⟩ := h
    exact ⟨ho, _, _, _, .nil, Nat.zero_le _, Nat.zero_le _, Nat.zero_le _⟩
  | awaitingResponse =>
    simp only [Counted, hstate] at h
    obtain ⟨ht, hk, ho⟩ := h
    exact ⟨ho, _, _, _, ht, Nat.succ_le_succ hk, hk, hk⟩
  | backoff =>
    simp only [Counted, hstate] at h
    obtain ⟨ht, hk, ho⟩ := h
    exact ⟨ho, _, _, _, ht, Nat.le_succ_of_le hk, hk, hk⟩
  | completed => simp [isTerminal, hstate] at hs
  | cancelled => simp [isTerminal, hstate] at hs

theorem Counted.bounded (h : Counted passages p) :
    Bounded passages p.maxRetries.toNat p.outcome := by
  by_cases hs : p.isTerminal = false
  · obtain ⟨ho, r, d, w, ht, hr, hd, hw⟩ := h.room hs
    exact .within (by simp [ho]) ht hr hd hw
  · cases hstate : p.state <;> simp_all [Counted, isTerminal]

theorem Counted.accepted (h : Counted passages p) (ha : Accepted P p event p' fx) :
    Counted (passages ++ [⟨event, fx⟩]) p' := by
  cases ha with
  | launched hs =>
    simp only [Counted, hs] at h
    obtain ⟨rfl, hk, ho⟩ := h
    have ht := Tally.nil.snoc (x := ⟨.launch, p.launched.sendRequest P⟩) (σ := σ) rfl rfl rfl
    have hk' : p.launched.attempts.toNat = 0 := by rw [RetryProcedure.launched, hk]; rfl
    exact ⟨by rwa [hk'], by omega, ho⟩
  | succeeded hs response =>
    simp only [Counted, hs] at h
    obtain ⟨ht, hk, -⟩ := h
    exact .within (by simp) (ht.snoc rfl rfl rfl) (Nat.succ_le_succ hk) hk hk
  | rejected hs hw =>
    simp only [Counted, hs] at h
    obtain ⟨ht, hk, -⟩ := h
    exact .within (by simp) (ht.snoc rfl rfl (congrArg (·.toList.length) hw))
      (Nat.succ_le_succ hk) hk hk
  | backedOff hs hw hb =>
    simp only [Counted, hs] at h
    obtain ⟨ht, -, ho⟩ := h
    exact ⟨ht.snoc rfl rfl (congrArg (·.toList.length) hw), UInt32.lt_iff_toNat_lt.1 hb, ho⟩
  | exhausted hs hw hb =>
    simp only [Counted, hs] at h
    obtain ⟨ht, hk, -⟩ := h
    have hn : p.attempts.toNat = p.maxRetries.toNat :=
      Nat.le_antisymm hk (UInt32.le_iff_toNat_le.1 (UInt32.not_lt.1 hb))
    rw [hn] at ht
    exact .exhausted rfl (ht.snoc rfl rfl (congrArg (·.toList.length) hw))
      (by simp [rejections_snoc])
  | resent hs hb =>
    simp only [Counted, hs] at h
    obtain ⟨ht, hk, ho⟩ := h
    have hn := toNat_attempts_resent hb
    have ht' := ht.snoc (x := ⟨.timerFired, p.resent.sendRequest P⟩) rfl rfl rfl
    exact ⟨by rwa [hn], hn ▸ hk, ho⟩
  | cancelled hs =>
    obtain ⟨-, r, d, w, ht, hr', hd', hw'⟩ := h.room hs
    have hr := congrArg List.length p.messages_farewell
    have hd := congrArg List.length p.delays_farewell
    exact .within (by simp [RetryProcedure.cancelled]) (ht.snoc hr hd rfl) hr' hd' hw'

theorem Run.counted {id : ProcedureId} {request : ProcedureRequest ρ}
    (h : Run P id request passages p) : Counted passages p := by
  induction h with
  | start => exact ⟨rfl, rfl, rfl⟩
  | snoc _ ha ih => exact ih.accepted ha

/-- only the launch and the end of a backoff send -/
theorem Accepted.of_sends (ha : Accepted P p event p' fx) {message : PeerMessage}
    (hm : .send message ∈ fx) :
    message = ⟨p.entity, P.requestPdu p.request⟩ ∧
      (p.state = .created ∨ p.state = .backoff ∧ event = .timerFired) := by
  cases ha with
  | launched hs => exact ⟨by simpa [sendRequest, RetryProcedure.launched] using hm, .inl hs⟩
  | resent hs hb => exact ⟨by simpa [sendRequest, RetryProcedure.resent] using hm, .inr ⟨hs, rfl⟩⟩
  | cancelled hs => simp [release] at hm
  | _ => simp_all [RetryProcedure.exhausted]

/-- only a rejection with a wait arms a timer, with that wait -/
theorem Accepted.of_startTimer (ha : Accepted P p event p' fx) {delay : Duration}
    (hd : .startTimer delay ∈ fx) : ∃ r, event = .reply (.failure r) ∧ r.wait? = some delay := by
  cases ha with
  | @backedOff _ r delay' hw hb =>
    obtain rfl : delay = delay' := by simpa using hd
    exact ⟨r, rfl, hw⟩
  | cancelled hs => simp [release] at hd
  | _ => simp_all [RetryProcedure.exhausted, sendRequest]

section

variable {id : ProcedureId} {request : ProcedureRequest ρ}

theorem Run.created (h : Run P id request passages p) (hs : p.state = .created) :
    passages = [] := by
  have hc := h.counted
  simp only [Counted, hs] at hc
  exact hc.1

theorem Run.awaiting (h : Run P id request passages p) (hs : p.state = .awaitingResponse) :
    ∃ before x, passages = before ++ [x] ∧ x.Sends := by
  cases h with
  | start => simp [new] at hs
  | snoc _ ha =>
    refine ⟨_, _, rfl, ?_⟩
    cases ha with
    | launched => exact ⟨_, List.mem_cons_self ..⟩
    | resent => exact ⟨_, List.mem_cons_self ..⟩
    | _ => simp_all [RetryProcedure.backedOff, RetryProcedure.exhausted,
        RetryProcedure.cancelled]

theorem Run.backoff (h : Run P id request passages p) (hs : p.state = .backoff) :
    ∃ before x r delay fx, passages = before ++ [x] ++ [⟨.reply (.failure r), fx⟩] ∧ x.Sends ∧
      r.wait? = some delay ∧ ¬Passage.Sends (σ := σ) ⟨.reply (.failure r), fx⟩ := by
  cases h with
  | start => simp [new] at hs
  | snoc h ha =>
    cases ha with
    | backedOff hs' hw hb =>
      obtain ⟨before, x, rfl, hx⟩ := h.awaiting hs'
      exact ⟨before, x, _, _, _, rfl, hx, hw, by simp [Sends]⟩
    | _ => simp_all [RetryProcedure.launched, RetryProcedure.exhausted, RetryProcedure.resent,
        RetryProcedure.cancelled]

/-- between a request and the next one there is one rejection, and the end of its wait -/
theorem Run.between {before mid rest : List (Passage σ)} {a b : Passage σ}
    (h : Run P id request (before ++ a :: mid ++ b :: rest) p) (ha : a.Sends) (hb : b.Sends)
    (hmid : ∀ x ∈ mid, ¬x.Sends) :
    b.event = .timerFired ∧
      ∃ r delay fx, mid = [⟨.reply (.failure r), fx⟩] ∧ r.wait? = some delay := by
  obtain ⟨q, q', hq, hacc⟩ := h.split
  obtain ⟨message, hm⟩ := hb
  rcases (hacc.of_sends hm).2 with hs | ⟨hs, he⟩
  · exact absurd (hq.created hs) (by simp)
  obtain ⟨before', x, r, delay, fx, heq, hx, hw, hquiet⟩ := hq.backoff hs
  refine ⟨he, r, delay, fx, ?_, hw⟩
  -- the passages up to the request at `b`, read from their end: the rejection, then a request
  rcases List.eq_nil_or_concat' mid with rfl | ⟨mid, y, rfl⟩
  · obtain ⟨-, rfl⟩ := List.append_singleton_inj.1 heq
    exact absurd ha hquiet
  rw [← List.cons_append, ← List.append_assoc] at heq
  obtain ⟨heq', rfl⟩ := List.append_singleton_inj.1 heq
  rcases List.eq_nil_or_concat' mid with rfl | ⟨mid, y, rfl⟩
  · rfl
  rw [← List.cons_append, ← List.append_assoc] at heq'
  obtain ⟨-, rfl⟩ := List.append_singleton_inj.1 heq'
  exact absurd hx (hmid y (by simp))

end

theorem transition_terminal (P : RetryProtocol ρ σ) (h : p.isTerminal = true)
    (event : RetryEvent σ) : p.transition P event = (p, []) := by
  cases hs : p.state <;> simp_all [isTerminal, transition]

theorem after_terminal (P : RetryProtocol ρ σ) (h : p.isTerminal = true)
    (events : List (RetryEvent σ)) : p.after P events = p ∧ p.effects P events = [] := by
  induction events with
  | nil => exact ⟨rfl, rfl⟩
  | cons event events ih =>
    have ht := transition_terminal P h event
    refine ⟨?_, by rw [effects, ht, List.nil_append, ih.2]⟩
    rw [after, List.foldl_cons, ht]
    exact ih.1

/-- a reply that decides the outcome is the end of a procedure that awaits it -/
theorem Accepted.of_verdict {reply : Reply σ} {outcome : RetryOutcome σ}
    (ha : Accepted P p (.reply reply) p' fx) (hv : reply.verdict? = some outcome) :
    p'.state = .completed ∧ p'.outcome = some outcome ∧ ∃ e, fx = [.emit e] := by
  cases ha with
  | succeeded hs response => exact ⟨rfl, by simpa [Reply.verdict?] using hv, _, rfl⟩
  | rejected hs hw => exact ⟨rfl, by simpa [Reply.verdict?, hw] using hv, _, rfl⟩
  | backedOff hs hw hb => simp [Reply.verdict?, hw] at hv
  | exhausted hs hw hb => simp [Reply.verdict?, hw] at hv

/-- what a budget of retries promises of a procedure that is fed events -/
structure WithinBudget (P : RetryProtocol ρ σ) (p : RetryProcedure ρ σ)
    (events : List (RetryEvent σ)) : Prop where
  requests_le :
    ((p.effects P events).filterMap Effect.message?).length ≤ p.maxRetries.toNat + 1
  delays_le : ((p.effects P events).filterMap Effect.delay?).length ≤ p.maxRetries.toNat
  /-- every request is the original one, to the original entity -/
  request_eq : ∀ message, .send message ∈ p.effects P events →
    message = ⟨p.entity, P.requestPdu p.request⟩
  /-- what is asked for is asked for at the accepted events -/
  effects_eq : p.effects P events = (p.course P events).flatMap Passage.effects
  /-- between two requests stands one rejection with a wait, and the end of the wait sends -/
  between : ∀ before a mid b rest, p.course P events = before ++ a :: mid ++ b :: rest →
    a.Sends → b.Sends → (∀ x ∈ mid, ¬x.Sends) → b.event = .timerFired ∧
      ∃ r delay fx, mid = [⟨.reply (.failure r), fx⟩] ∧ r.wait? = some delay
  /-- a timer runs for the wait of the rejection at which it is armed -/
  delay_eq : ∀ x ∈ p.course P events, ∀ delay, .startTimer delay ∈ x.effects →
    ∃ r, x.event = .reply (.failure r) ∧ r.wait? = some delay
  exhausted_iff : (∃ last attempts, (p.after P events).outcome =
      some (.failure (.retriesExhausted last attempts))) ↔
    (waits (p.course P events)).length = p.maxRetries.toNat + 1
  exhausted : ∀ last attempts, (p.after P events).outcome =
      some (.failure (.retriesExhausted last attempts)) →
    ((p.effects P events).filterMap Effect.message?).length = p.maxRetries.toNat + 1 ∧
      ((p.effects P events).filterMap Effect.delay?).length = p.maxRetries.toNat ∧
      (rejections (p.course P events)).getLast? = some last
  /-- a reply that decides the outcome is the end at once, and nothing is sent any more -/
  settled : ∀ before reply rest outcome, events = before ++ .reply reply :: rest →
    (p.after P before).accepts P (.reply reply) = true → reply.verdict? = some outcome →
      (p.after P (before ++ [.reply reply])).state = .completed ∧
      (p.after P (before ++ [.reply reply])).outcome = some outcome ∧
      (∃ event, p.effects P events = p.effects P before ++ [.emit event]) ∧
      p.after P events = p.after P (before ++ [.reply reply])
  /-- an event that is not accepted changes nothing and asks for nothing -/
  stale : ∀ before event rest, events = before ++ event :: rest →
    (p.after P before).accepts P event = false →
      (p.after P before).transition P event = (p.after P before, [])

theorem withinBudget_new (P : RetryProtocol ρ σ) (id : ProcedureId)
    (request : ProcedureRequest ρ) (events : List (RetryEvent σ)) :
    WithinBudget P (new id request) events := by
  obtain ⟨hrun, hfx⟩ := run_after P id request events
  have hbounded := hrun.counted.bounded
  rw [hrun.static.2.2] at hbounded
  have hmem {effect : Effect} (h : effect ∈ (new id request).effects P events) :
      ∃ x ∈ (new id request).course P events, effect ∈ x.effects := by
    rw [hfx] at h
    exact List.mem_flatMap.1 h
  constructor
  case requests_le => rw [hfx]; exact hbounded.requests_le
  case delays_le => rw [hfx]; exact hbounded.delays_le
  case request_eq =>
    intro message hm
    obtain ⟨x, hx, hm⟩ := hmem hm
    obtain ⟨before, q, q', hq, ha⟩ := hrun.accepted_of_mem hx
    rw [(ha.of_sends hm).1, hq.static.1, hq.static.2.1]
    rfl
  case effects_eq => exact hfx
  case between =>
    intro before a mid b rest heq
    exact Run.between (heq ▸ hrun)
  case delay_eq =>
    intro x hx delay hd
    obtain ⟨before, q, q', hq, ha⟩ := hrun.accepted_of_mem hx
    exact ha.of_startTimer hd
  case exhausted_iff => exact hbounded.exhausted_iff
  case exhausted =>
    intro last attempts ho
    rw [hfx]
    exact hbounded.of_exhausted ho
  case settled =>
    rintro before reply rest outcome rfl hacc hv
    obtain ⟨hq, -⟩ := run_after P id request before
    rcases hq.transition_cases (.reply reply) with ⟨hno, -⟩ | ⟨-, ha⟩
    · simp [hno] at hacc
    obtain ⟨hs, ho, event, he⟩ := ha.of_verdict hv
    rw [after_append P _ before (_ :: rest), after_append P _ before [_], effects_append]
    generalize (new id request).after P before = q at hs ho he ⊢
    have hend := after_terminal P (p := (q.transition P (.reply reply)).1)
      (by simp [isTerminal, hs]) rest
    refine ⟨hs, ho, ⟨event, ?_⟩, hend.1⟩
    rw [effects, he, hend.2, List.append_nil]
  case stale =>
    rintro before event rest rfl hno
    obtain ⟨hq, -⟩ := run_after P id request before
    rcases hq.transition_cases event with ⟨-, he⟩ | ⟨hacc, -⟩
    · exact he
    · simp [hno] at hacc

example (id : ProcedureId) (request : ProcedureRequest RanConfigurationUpdate)
    (cause : Cause) :
    ((new id { request with maxRetries := 1 } : RetryProcedure _ Unit).after
      ranConfigurationUpdate [.timerFired, .launch, .timerFired,
        .reply (.failure ⟨cause, some .s1⟩), .timerFired,
        .reply (.failure ⟨cause, some .s2⟩)]).outcome =
      some (.failure (.retriesExhausted ⟨cause, some .s2⟩ 2)) := rfl

end RetryProcedure

end NgapProcedures
