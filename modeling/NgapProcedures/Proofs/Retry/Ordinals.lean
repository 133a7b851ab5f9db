import Mathlib.Algebra.GroupWithZero.Nat
import NgapProcedures.Proofs.Settlement

/-! The numbers that a retry procedure keeps and tells. It counts its retries, which its budget bounds,
and its requests, of which there is one more. Each request is followed by its number, and retries that
are exhausted are reported with the number of all requests. The counters have 32 bits, which is enough
for every retry of every budget, and for every request but the last one on the largest budget. -/

namespace NgapProcedures

def Effect.transmits : Effect → Bool
  | send _ | emit (.requestSent ..) => true
  | _ => false

namespace Passage

variable {σ : Type} {passages : List (Passage σ)}

theorem requests_snoc (passages : List (Passage σ)) (x : Passage σ) :
    requests (passages ++ [x]) = requests passages ++ x.effects.filterMap Effect.message? := by
  simp [requests]

/-- what was handed over before a place in the effects, and after it -/
theorem length_requests_split {before rest : List Effect}
    (h : passages.flatMap Passage.effects = before ++ rest) :
    (before.filterMap Effect.message?).length + (rest.filterMap Effect.message?).length =
      (requests passages).length := by
  rw [requests, h, List.filterMap_append, List.length_append]

/-- each effect of a course is one of a single passage -/
theorem effects_split {before rest : List Effect} {effect : Effect}
    (h : passages.flatMap Passage.effects = before ++ effect :: rest) :
    ∃ earlier x later front back, passages = earlier ++ x :: later ∧
      x.effects = front ++ effect :: back ∧
      before = earlier.flatMap Passage.effects ++ front ∧
      rest = back ++ later.flatMap Passage.effects := by
  induction passages generalizing before with
  | nil => simp at h
  | cons y passages ih =>
    have later (skipped : List Effect) (hy : before = y.effects ++ skipped)
        (hrest : passages.flatMap Passage.effects = skipped ++ effect :: rest) :
        ∃ earlier x later front back, y :: passages = earlier ++ x :: later ∧
          x.effects = front ++ effect :: back ∧
          before = earlier.flatMap Passage.effects ++ front ∧
          rest = back ++ later.flatMap Passage.effects := by
      obtain ⟨earlier, x, later, front, back, rfl, hx, rfl, rfl⟩ := ih hrest
      exact ⟨y :: earlier, x, later, front, back, rfl, hx, by simp [hy], rfl⟩
    rw [List.flatMap_cons] at h
    rcases List.append_eq_append_iff.1 h with ⟨skipped, hy, hrest⟩ | ⟨kept, hy, hrest⟩
    · exact later skipped hy hrest
    · cases kept with
      | nil => exact later [] (by simp [hy]) hrest.symm
      | cons first back =>
        obtain ⟨rfl, rfl⟩ := List.cons.inj hrest
        exact ⟨[], y, passages, before, back, rfl, hy, by simp, rfl⟩

end Passage

namespace RetryProcedure

open Passage

variable {ρ σ : Type} {P : RetryProtocol ρ σ} {p p' : RetryProcedure ρ σ} {event : RetryEvent σ}
  {fx : List Effect} {id : ProcedureId} {request : ProcedureRequest ρ}
  {passages : List (Passage σ)}

theorem messages_sendRequest (P : RetryProtocol ρ σ) (p : RetryProcedure ρ σ) :
    (p.sendRequest P).filterMap Effect.message? = [⟨p.entity, P.requestPdu p.request⟩] := rfl

/-- how the counters of a procedure go with the requests of its course -/
inductive Numbered (passages : List (Passage σ)) (p : RetryProcedure ρ σ) : Prop where
  | unlaunched (hl : ∀ x ∈ passages, x.event ≠ .launch) (hr : requests passages = [])
      (ht : p.transmissions = 0) (hs : p.state = .created ∧ p.attempts = 0 ∨ p.state = .cancelled)
  | launched (hr : (requests passages).length = p.attempts.toNat + 1)
      (ht : p.transmissions = .ofNat (requests passages).length) (hs : p.state ≠ .created)

theorem Numbered.transmissions_eq (h : Numbered passages p) :
    p.transmissions = .ofNat (requests passages).length := by
  cases h with
  | unlaunched _ hr ht => simp [hr, ht]
  | launched _ ht => exact ht

theorem Numbered.requests_eq (h : Numbered passages p) (hs : p.state ≠ .created)
    (hs' : p.state ≠ .cancelled) : (requests passages).length = p.attempts.toNat + 1 := by
  cases h with
  | unlaunched _ _ _ hopen => rcases hopen with ⟨hc, -⟩ | hc <;> contradiction
  | launched hr => exact hr

theorem Numbered.requests_eq_nil (h : Numbered passages p) (hs : p.state = .created) :
    requests passages = [] := by
  cases h with
  | unlaunched _ hr => exact hr
  | launched _ _ hlaunched => exact absurd hs hlaunched

theorem Numbered.quiet (h : Numbered passages p) (hs : p.state ≠ .created)
    (hs' : p.state ≠ .cancelled) (hquiet : fx.filterMap Effect.message? = [])
    (ha : p'.attempts = p.attempts) (ht : p'.transmissions = p.transmissions)
    (hp : p'.state ≠ .created) : Numbered (passages ++ [⟨event, fx⟩]) p' := by
  have hsame : requests (passages ++ [⟨event, fx⟩]) = requests passages := by
    rw [requests_snoc, hquiet, List.append_nil]
  apply Numbered.launched
  · rw [hsame, ha]
    exact h.requests_eq hs hs'
  · rw [hsame, ht]
    exact h.transmissions_eq
  · exact hp

theorem Numbered.accepted (h : Numbered passages p) (ha : Accepted P p event p' fx) :
    Numbered (passages ++ [⟨event, fx⟩]) p' := by
  cases ha with
  | launched hs =>
    cases h with
    | unlaunched hl hr ht hopen =>
      have hnone : p.attempts = 0 := by simpa [hs] using hopen
      have hone : (requests (passages ++ [⟨.launch, p.launched.sendRequest P⟩])).length = 1 := by
        rw [requests_snoc, messages_sendRequest, hr]
        rfl
      have hattempts : p.launched.attempts = 0 := hnone
      apply Numbered.launched
      · rw [hone, hattempts]
        rfl
      · rw [hone]
        rfl
      · simp [RetryProcedure.launched]
    | launched _ _ hlaunched => exact absurd hs hlaunched
  | succeeded hs response => exact h.quiet (by simp [hs]) (by simp [hs]) rfl rfl rfl (by simp)
  | rejected hs hw => exact h.quiet (by simp [hs]) (by simp [hs]) rfl rfl rfl (by simp)
  | backedOff hs hw hb =>
    exact h.quiet (by simp [hs]) (by simp [hs]) rfl rfl rfl (by simp [RetryProcedure.backedOff])
  | exhausted hs hw hb =>
    exact h.quiet (by simp [hs]) (by simp [hs]) rfl rfl rfl (by simp [RetryProcedure.exhausted])
  | resent hs hb =>
    have hr := h.requests_eq (by simp [hs]) (by simp [hs])
    have hone : (requests (passages ++ [⟨.timerFired, p.resent.sendRequest P⟩])).length =
        (requests passages).length + 1 := by
      rw [requests_snoc, messages_sendRequest, List.length_append]
      rfl
    have hsent : p.resent.transmissions = p.transmissions + 1 := rfl
    apply Numbered.launched
    · rw [hone, toNat_attempts_resent hb, hr]
    · rw [hone, hsent, h.transmissions_eq, UInt32.ofNat_add]
      rfl
    · simp [RetryProcedure.resent]
  | cancelled hs =>
    cases h with
    | unlaunched hl hr ht hopen =>
      apply Numbered.unlaunched
      · intro x hx
        rcases List.mem_append.1 hx with hx | hx
        · exact hl x hx
        · simp [List.mem_singleton.1 hx]
      · rw [requests_snoc, hr, messages_farewell, List.append_nil]
      · exact ht
      · exact .inr rfl
    | launched hr ht hlaunched =>
      have hopen : p.state ≠ .cancelled := fun he => by simp [isTerminal, he] at hs
      exact (Numbered.launched hr ht hlaunched).quiet hlaunched hopen p.messages_farewell rfl rfl
        (by simp [RetryProcedure.cancelled])

theorem Run.numbered (h : Run P id request passages p) : Numbered passages p := by
  induction h with
  | start => exact .unlaunched (by simp) rfl rfl (.inl ⟨rfl, rfl⟩)
  | snoc _ ha ih => exact ih.accepted ha

/-- a request and its number go out together -/
theorem Accepted.of_transmits (ha : Accepted P p event p' fx) {effect : Effect} (hm : effect ∈ fx)
    (ht : effect.transmits = true) : fx = p'.sendRequest P := by
  cases ha with
  | launched => rfl
  | resent => rfl
  | cancelled =>
    simp only [release, List.mem_append, List.mem_singleton] at hm
    rcases hm with hm | rfl
    · split at hm <;> simp_all [Effect.transmits]
    · simp [Effect.transmits] at ht
  | backedOff =>
    rcases List.mem_pair.1 hm with rfl | rfl <;> simp [Effect.transmits] at ht
  | _ => simp_all [Effect.transmits, RetryProcedure.exhausted]

/-- Each request is directly followed by its number, and each number directly follows its request. -/
theorem Run.of_transmits (h : Run P id request passages p) {before rest : List Effect}
    {effect : Effect} (heq : passages.flatMap Passage.effects = before ++ effect :: rest)
    (ht : effect.transmits = true) :
    ∃ earlier later message, let told := Effect.emit (.requestSent id
        (.ofNat ((earlier.filterMap Effect.message?).length + 1)))
      (before = earlier ∧ effect = .send message ∧ rest = told :: later) ∨
      (before = earlier ++ [.send message] ∧ effect = told ∧ rest = later) := by
  obtain ⟨earlier, x, later, front, back, rfl, hx, rfl, rfl⟩ := effects_split heq
  obtain ⟨q, q', hq, ha⟩ := h.split
  have hfx := ha.of_transmits (show effect ∈ x.effects by simp [hx]) ht
  have hsnoc := hq.snoc ha
  have hid : q'.id = id := hsnoc.id_eq
  have hnumber : q'.transmissions =
      .ofNat (((earlier.flatMap Passage.effects).filterMap Effect.message?).length + 1) := by
    rw [hsnoc.numbered.transmissions_eq, requests_snoc, hfx, messages_sendRequest,
      List.length_append]
    rfl
  rw [hfx, sendRequest, hid, hnumber] at hx
  refine ⟨earlier.flatMap Passage.effects, later.flatMap Passage.effects,
    ⟨q'.entity, P.requestPdu q'.request⟩, ?_⟩
  -- the effect is the first or the second of the two
  cases front with
  | nil =>
    obtain ⟨rfl, rfl⟩ := List.cons.inj hx
    exact .inl ⟨by simp, rfl, rfl⟩
  | cons first front =>
    obtain ⟨rfl, htail⟩ := List.cons.inj hx
    cases front with
    | nil =>
      obtain ⟨rfl, rfl⟩ := List.cons.inj htail
      exact .inr ⟨rfl, rfl, rfl⟩
    | cons second front => simp at htail

/-- Retries are exhausted by a rejection after the last of them. -/
theorem Accepted.of_exhausted (hc : p.Consistent) (ha : Accepted P p event p' fx) :
    (∀ last attempts, p'.outcome = some (.failure (.retriesExhausted last attempts)) →
      attempts = p.transmissions ∧ p'.transmissions = p.transmissions ∧
        p.state = .awaitingResponse ∧ p.attempts = p.maxRetries) ∧
    ∀ i attempts, .emit (.retriesExhausted i attempts) ∈ fx → i = p.id ∧
      attempts = p.transmissions ∧ p.state = .awaitingResponse ∧ p.attempts = p.maxRetries := by
  have hopen : p.outcome = none := hc.undecided ha.not_isTerminal
  cases ha with
  | exhausted hs hw hb =>
    have hspent : p.attempts = p.maxRetries := UInt32.le_antisymm hc.within (UInt32.not_lt.1 hb)
    constructor
    · intro last attempts ho
      obtain ⟨-, rfl⟩ : _ = last ∧ p.transmissions = attempts := by
        simpa [RetryProcedure.exhausted] using ho
      exact ⟨rfl, rfl, hs, hspent⟩
    · intro i attempts hm
      obtain ⟨rfl, rfl⟩ : i = p.id ∧ attempts = p.transmissions := by
        simpa [RetryProcedure.exhausted] using hm
      exact ⟨rfl, rfl, hs, hspent⟩
  | launched hs => simp [RetryProcedure.launched, hopen, sendRequest]
  | backedOff hs hw hb => simp [RetryProcedure.backedOff, hopen]
  | resent hs hb => simp [RetryProcedure.resent, hopen, sendRequest]
  | cancelled hs => simp [RetryProcedure.cancelled, release]
  | _ => simp

theorem Run.launched_requests (h : Run P id request passages p)
    (hl : ∃ x ∈ passages, x.event = .launch) :
    (requests passages).length = p.attempts.toNat + 1 := by
  obtain ⟨x, hx, hlaunch⟩ := hl
  cases h.numbered with
  | unlaunched hnone => exact absurd hlaunch (hnone x hx)
  | launched hr => exact hr

/-- There is a retry left in a backoff, so the requests so far are no more than the retries. -/
theorem Run.requests_le_of_backoff (h : Run P id request passages p) (hs : p.state = .backoff) :
    (requests passages).length ≤ p.maxRetries.toNat := by
  rw [h.numbered.requests_eq (by simp [hs]) (by simp [hs])]
  exact UInt32.lt_iff_toNat_lt.1 (h.backoff_lt hs)

section

variable (h : Run P id request passages p) (hfit : (requests passages).length < 2 ^ 32)

include h hfit

theorem Run.toNat_transmissions : p.transmissions.toNat = (requests passages).length := by
  rw [h.numbered.transmissions_eq]
  exact UInt32.toNat_ofNat_of_lt' hfit

theorem Run.announced {before rest : List Effect} {i : ProcedureId} {n : UInt32}
    (heq : passages.flatMap Passage.effects = before ++ .emit (.requestSent i n) :: rest) :
    i = id ∧ n.toNat = (before.filterMap Effect.message?).length ∧
      ∃ message, before.getLast? = some (.send message) := by
  have hcount := length_requests_split heq
  obtain ⟨earlier, later, message, ⟨-, he, -⟩ | ⟨rfl, he, -⟩⟩ := h.of_transmits heq rfl
  · simp at he
  · cases he
    have hone : ((earlier ++ [Effect.send message]).filterMap Effect.message?).length =
        (earlier.filterMap Effect.message?).length + 1 := by
      rw [List.filterMap_append, List.length_append]
      rfl
    refine ⟨rfl, ?_, message, List.getLast?_concat⟩
    rw [hone]
    exact UInt32.toNat_ofNat_of_lt' (show _ < 2 ^ 32 by omega)

theorem Run.announces {before rest : List Effect} {message : PeerMessage}
    (heq : passages.flatMap Passage.effects = before ++ .send message :: rest) :
    ∃ n, rest.head? = some (.emit (.requestSent id n)) ∧
      n.toNat = (before.filterMap Effect.message?).length + 1 := by
  have hcount := length_requests_split heq
  obtain ⟨earlier, later, message', ⟨rfl, -, rfl⟩ | ⟨-, he, -⟩⟩ := h.of_transmits heq rfl
  · refine ⟨_, rfl, UInt32.toNat_ofNat_of_lt' (show _ < 2 ^ 32 from ?_)⟩
    simp only [List.filterMap_cons, Effect.message?, List.length_cons] at hcount
    omega
  · simp at he

theorem Run.attempts_of_outcome {last : Rejection} {attempts : UInt32}
    (ho : p.outcome = some (.failure (.retriesExhausted last attempts))) :
    attempts.toNat = p.maxRetries.toNat + 1 := by
  have hsame : attempts = p.transmissions := by
    cases h with
    | start => simp [new] at ho
    | snoc h ha =>
      obtain ⟨rfl, hkept, -⟩ := (ha.of_exhausted h.consistent).1 last attempts ho
      exact hkept.symm
  rw [hsame, h.toNat_transmissions hfit, (h.counted.bounded.of_exhausted ho).1]

theorem Run.attempts_of_event {i : ProcedureId} {attempts : UInt32}
    (hm : .emit (.retriesExhausted i attempts) ∈ passages.flatMap Passage.effects) :
    i = id ∧ attempts.toNat = request.maxRetries.toNat + 1 := by
  obtain ⟨before, rest, heq⟩ := List.append_of_mem hm
  obtain ⟨earlier, x, later, front, back, rfl, hx, rfl, -⟩ := effects_split heq
  obtain ⟨q, q', hq, ha⟩ := h.split
  obtain ⟨rfl, rfl, hs, hspent⟩ := (ha.of_exhausted hq.consistent).2 i attempts (by simp [hx])
  have hle : (requests earlier).length < 2 ^ 32 := by
    have hcount := length_requests_split heq
    rw [List.filterMap_append, List.length_append] at hcount
    rw [requests]
    omega
  refine ⟨hq.id_eq, ?_⟩
  rw [hq.toNat_transmissions hle, hq.numbered.requests_eq (by simp [hs]) (by simp [hs]), hspent,
    hq.static.2.2]

end

/-- A retry has room in both counters as long as the request that it makes has. -/
theorem Run.room (h : Run P id request passages p) (hs : p.state = .backoff)
    (hfit : (requests passages).length + 1 < 2 ^ 32) :
    p.attempts.toNat + 1 < 2 ^ 32 ∧ p.transmissions.toNat + 1 < 2 ^ 32 := by
  rw [h.toNat_transmissions (by omega), ← h.numbered.requests_eq (by simp [hs]) (by simp [hs])]
  exact ⟨by omega, hfit⟩

theorem panic?_onFailure (p : RetryProcedure ρ σ) (r : Rejection) :
    (p.onFailure r).1.panic? = p.panic? := by
  unfold onFailure
  split
  · rfl
  · split <;> rfl

theorem panic?_transition (P : RetryProtocol ρ σ) {panic : Panic} (h : p.panic? = some panic)
    (event : RetryEvent σ) : (p.transition P event).1.panic? = some panic := by
  cases panic
  unfold transition
  split
  all_goals try exact h
  · exact (panic?_onFailure p _).trans h
  · split
    · dsimp only
      split
      · exact h
      · rfl
    · split <;> exact h

theorem panic?_after (P : RetryProtocol ρ σ) {panic : Panic} (h : p.panic? = some panic)
    (events : List (RetryEvent σ)) : (p.after P events).panic? = some panic := by
  induction events generalizing p with
  | nil => exact h
  | cons event rest ih => exact ih (panic?_transition P h event)

/-- what events lead to and what is asked for along them with overflow checks, unless there is a panic
on the way -/
def run? (P : RetryProtocol ρ σ) (p : RetryProcedure ρ σ) :
    List (RetryEvent σ) → Except Panic (RetryProcedure ρ σ × List Effect)
  | [] => .ok (p, [])
  | event :: rest => do
    let (q, first) ← p.transition? P event
    let (q', later) ← run? P q rest
    return (q', first ++ later)

/-- Overflow checks change nothing up to the first panic, and the procedure keeps the mark of that. -/
theorem run?_eq (P : RetryProtocol ρ σ) (h : p.panic? = none) (events : List (RetryEvent σ)) :
    p.run? P events =
      Panic.check (p.after P events).panic? (p.after P events, p.effects P events) := by
  induction events generalizing p with
  | nil =>
    have hafter : (p.after P []).panic? = none := h
    rw [hafter]
    rfl
  | cons event rest ih =>
    have hafter : p.after P (event :: rest) = (p.transition P event).1.after P rest := rfl
    rw [run?, transition?, hafter]
    cases hq : (p.transition P event).1.panic? with
    | some panic =>
      rw [panic?_after P hq rest]
      rfl
    | none =>
      have hrest := ih hq
      generalize ((p.transition P event).1.after P rest).panic? = panic? at hrest ⊢
      cases panic? with
      | some panic => simp [Panic.check, hrest, bind, Except.bind]
      | none => simp [Panic.check, hrest, bind, Except.bind, effects, pure, Except.pure]

/-- The mark of a panic tells whether there are more requests than 32 bits can count. -/
theorem Run.panic?_eq (h : Run P id request passages p) :
    p.panic? = if (requests passages).length < UInt32.size then none else some .addOverflow := by
  induction h with
  | start => rfl
  | @snoc passages p p' event fx h ha ih =>
    have quiet (hquiet : fx.filterMap Effect.message? = []) (hp : p'.panic? = p.panic?) :
        p'.panic? = if (requests (passages ++ [⟨event, fx⟩])).length < UInt32.size then none
          else some .addOverflow := by
      rw [hp, ih, requests_snoc, hquiet, List.append_nil]
    cases ha with
    | launched hs =>
      have hnone := h.numbered.requests_eq_nil hs
      have hpanic : p.launched.panic? = none := by
        rw [hnone] at ih
        exact ih
      rw [hpanic, requests_snoc, hnone, messages_sendRequest]
      rfl
    | resent hs hb =>
      have hfit : (requests passages).length < UInt32.size :=
        Nat.lt_of_le_of_lt (h.requests_le_of_backoff hs) p.maxRetries.toNat_lt
      have hsent := h.toNat_transmissions hfit
      have hclear : p.panic? = none := by rw [ih, if_pos hfit]
      rw [requests_snoc, messages_sendRequest, List.length_append, List.length_singleton,
        RetryProcedure.resent, hsent, hclear]
    | cancelled hs => exact quiet p.messages_farewell rfl
    | _ => exact quiet rfl rfl

theorem Run.panic?_eq_none (h : Run P id request passages p)
    (hb : p.maxRetries.toNat + 1 < UInt32.size) : p.panic? = none := by
  rw [h.panic?_eq, if_pos (Nat.lt_of_le_of_lt h.counted.bounded.requests_le hb)]

/-- Overflow checks let through any events at which fewer than `2 ^ 32` requests are made, and panic at
the request after those. -/
theorem run?_new (P : RetryProtocol ρ σ) (id : ProcedureId) (request : ProcedureRequest ρ)
    (events : List (RetryEvent σ)) :
    let p : RetryProcedure ρ σ := new id request
    p.run? P events =
      if ((p.effects P events).filterMap Effect.message?).length < 2 ^ 32 then
        .ok (p.after P events, p.effects P events)
      else .error .addOverflow := by
  intro p
  obtain ⟨hrun, hfx⟩ : Run P id request (p.course P events) (p.after P events) ∧
      p.effects P events = (p.course P events).flatMap Passage.effects :=
    run_after P id request events
  have hsent : ((p.effects P events).filterMap Effect.message?).length =
      (requests (p.course P events)).length := by rw [hfx, requests]
  have hsize : 2 ^ 32 = UInt32.size := rfl
  rw [run?_eq P (show p.panic? = none from rfl), hrun.panic?_eq, hsent, hsize]
  split <;> rfl

/-- the numbers of a procedure that is fed events, where 32 bits can hold them -/
structure CountsExactly (P : RetryProtocol ρ σ) (p : RetryProcedure ρ σ)
    (events : List (RetryEvent σ)) : Prop where
  /-- both counters have room for another one when they are raised -/
  room : ∀ before rest, events = before ++ .timerFired :: rest →
    (p.after P before).state = .backoff →
      (p.after P before).attempts.toNat + 1 < 2 ^ 32 ∧
        (p.after P before).transmissions.toNat + 1 < 2 ^ 32
  transmissions_eq : (p.after P events).transmissions.toNat =
    ((p.effects P events).filterMap Effect.message?).length
  attempts_eq : (∃ x ∈ p.course P events, x.event = .launch) →
    (p.after P events).transmissions.toNat = (p.after P events).attempts.toNat + 1
  /-- a number that is told is that of the request right before it -/
  announced : ∀ before i n rest, p.effects P events = before ++ .emit (.requestSent i n) :: rest →
    i = p.id ∧ n.toNat = (before.filterMap Effect.message?).length ∧
      ∃ message, before.getLast? = some (.send message)
  /-- a request is numbered right after it -/
  announces : ∀ before message rest, p.effects P events = before ++ .send message :: rest →
    ∃ n, rest.head? = some (.emit (.requestSent p.id n)) ∧
      n.toNat = (before.filterMap Effect.message?).length + 1
  exhausted_outcome : ∀ last attempts, (p.after P events).outcome =
    some (.failure (.retriesExhausted last attempts)) → attempts.toNat = p.maxRetries.toNat + 1
  exhausted_event : ∀ i attempts, .emit (.retriesExhausted i attempts) ∈ p.effects P events →
    i = p.id ∧ attempts.toNat = p.maxRetries.toNat + 1

/-- A procedure hands over one request more than it has retries, at most. It counts its retries on any
budget, and its requests as far as 32 bits go: as long as there are fewer than `2 ^ 32` of them, which
is always so unless the budget is the largest that there is, its numbers are exact. No increment
overflows, the requests are counted and numbered from one on, they are one more than the retries once
the procedure was launched, and exhausted retries are reported with the number of all requests that the
budget allows. With overflow checks it is the same up to there, and the request that is one too many to
be counted is a panic. -/
theorem counts_exactly (P : RetryProtocol ρ σ) (id : ProcedureId) (request : ProcedureRequest ρ)
    (events : List (RetryEvent σ)) :
    let p : RetryProcedure ρ σ := new id request
    let sent := ((p.effects P events).filterMap Effect.message?).length
    sent ≤ request.maxRetries.toNat + 1 ∧ (p.after P events).transmissions = .ofNat sent ∧
      ((∃ x ∈ p.course P events, x.event = .launch) →
        sent = (p.after P events).attempts.toNat + 1) ∧
      (sent < 2 ^ 32 → CountsExactly P p events) ∧
      p.run? P events =
        if sent < 2 ^ 32 then .ok (p.after P events, p.effects P events) else .error .addOverflow := by
  intro p sent
  have run (events : List (RetryEvent σ)) : Run P id request (p.course P events)
      (p.after P events) ∧ p.effects P events = (p.course P events).flatMap Passage.effects :=
    run_after P id request events
  obtain ⟨hrun, hfx⟩ := run events
  have hsent : sent = (requests (p.course P events)).length := by
    simp only [sent, hfx, requests]
  have hbudget : (p.after P events).maxRetries = request.maxRetries := hrun.static.2.2
  refine ⟨?_, hsent ▸ hrun.numbered.transmissions_eq, hsent ▸ hrun.launched_requests,
    fun hfit => ?_, run?_new P id request events⟩
  · rw [hsent, ← hbudget]
    exact hrun.counted.bounded.requests_le
  have hfit' : (requests (p.course P events)).length < 2 ^ 32 := hsent ▸ hfit
  constructor
  case room =>
    rintro before rest rfl hs
    obtain ⟨hq, hqfx⟩ := run before
    -- the retry's own request is one of those that were handed over
    have hnext := p.effects_append P before (.timerFired :: rest)
    rw [hfx, effects, transition_timerFired P hs (hq.backoff_lt hs)] at hnext
    have hcount := length_requests_split hnext
    rw [hqfx, List.filterMap_append, List.length_append, messages_sendRequest,
      List.length_singleton] at hcount
    apply hq.room hs
    rw [requests]
    omega
  case transmissions_eq => rw [hrun.toNat_transmissions hfit', ← hsent]
  case attempts_eq =>
    intro hl
    rw [hrun.toNat_transmissions hfit', hrun.launched_requests hl]
  case announced =>
    intro before i n rest heq
    exact hrun.announced hfit' (hfx ▸ heq)
  case announces =>
    intro before message rest heq
    exact hrun.announces hfit' (hfx ▸ heq)
  case exhausted_outcome =>
    intro last attempts ho
    rw [hrun.attempts_of_outcome hfit' ho, hbudget]
    rfl
  case exhausted_event =>
    intro i attempts hm
    exact hrun.attempts_of_event hfit' (hfx ▸ hm)

/-- One retry, two rejections with a wait: two requests, both numbered, and reported in the end. -/
theorem counts_exactly_two_requests :
    let p : RetryProcedure RanConfigurationUpdate Unit := new ⟨"proc-1"⟩ ⟨⟨"amf-1"⟩, ⟨none, []⟩, 1⟩
    let r : Rejection := ⟨⟨.misc, "unspecified"⟩, some .s1⟩
    let events := [.launch, .reply (.failure r), .timerFired, .reply (.failure r)]
    ((p.effects ranConfigurationUpdate events).filterMap Effect.message?).length =
        (p.after ranConfigurationUpdate events).attempts.toNat + 1 ∧
      CountsExactly ranConfigurationUpdate p events ∧
      p.run? ranConfigurationUpdate events =
        .ok (p.after ranConfigurationUpdate events, p.effects ranConfigurationUpdate events) ∧
      (p.after ranConfigurationUpdate events).outcome =
        some (.failure (.retriesExhausted r 2)) := by
  intro p r events
  have hsent : ((p.effects ranConfigurationUpdate events).filterMap Effect.message?).length = 2 :=
    rfl
  obtain ⟨-, -, hretries, hexact, hchecked⟩ := counts_exactly ranConfigurationUpdate ⟨"proc-1"⟩
    ⟨⟨"amf-1"⟩, ⟨none, []⟩, 1⟩ events
  have hlaunched : ∃ x ∈ p.course ranConfigurationUpdate events, x.event = .launch :=
    ⟨_, List.mem_cons_self, rfl⟩
  have hfit : ((p.effects ranConfigurationUpdate events).filterMap Effect.message?).length <
      2 ^ 32 := by
    rw [hsent]
    decide
  exact ⟨hretries hlaunched, hexact hfit, hchecked.trans (if_pos hfit), rfl⟩

theorem length_requests_new (P : RetryProtocol ρ σ) (id : ProcedureId)
    (request : ProcedureRequest ρ) {events : List (RetryEvent σ)} {q : RetryProcedure ρ σ}
    (hq : (new id request).after P events = q) (hs : q.state ≠ .created)
    (hs' : q.state ≠ .cancelled) :
    (((new id request).effects P events).filterMap Effect.message?).length =
      q.attempts.toNat + 1 := by
  obtain ⟨hrun, hfx⟩ := run_after P id request events
  rw [hq] at hrun
  rw [hfx]
  exact hrun.numbered.requests_eq hs hs'

/-- retries in a row, each of them refused with a wait -/
def refusedRetries (r : Rejection) : Nat → List (RetryEvent σ)
  | 0 => []
  | n + 1 => .timerFired :: .reply (.failure r) :: refusedRetries r n

theorem after_refusedRetries (P : RetryProtocol ρ σ) {r : Rejection} {delay : Duration}
    (hw : r.wait? = some delay) {n : Nat} (hs : p.state = .backoff) (hl : p.lastFailure = some r)
    (hb : p.attempts.toNat + n < p.maxRetries.toNat)
    (hc : p.transmissions.toNat + n < UInt32.size) :
    p.after P (refusedRetries r n) =
      { p with attempts := p.attempts + .ofNat n, transmissions := p.transmissions + .ofNat n } := by
  induction n generalizing p with
  | zero => simp [refusedRetries, after]
  | succ n ih =>
    have hlt : p.attempts < p.maxRetries := UInt32.lt_iff_toNat_lt.2 (by omega)
    have hraised := toNat_attempts_resent hlt
    have hroom : p.resent.attempts.toNat + n < p.maxRetries.toNat := by omega
    have hleft : p.resent.attempts < p.resent.maxRetries :=
      UInt32.lt_iff_toNat_lt.2 (show p.resent.attempts.toNat < p.maxRetries.toNat by omega)
    have hround : p.after P [.timerFired, .reply (.failure r)] = p.resent.backedOff r := by
      simp only [after, List.foldl_cons, List.foldl_nil, transition_timerFired P hs hlt,
        transition_failure P (show p.resent.state = .awaitingResponse from rfl),
        onFailure_wait hw hleft]
    have hsplit : refusedRetries (σ := σ) r (n + 1) =
        [.timerFired, .reply (.failure r)] ++ refusedRetries r n := rfl
    have hadd (k : UInt32) : k + 1 + .ofNat n = k + .ofNat (n + 1) := by
      rw [UInt32.ofNat_add, UInt32.add_assoc, UInt32.add_comm 1]
      rfl
    have hcounted : p.transmissions.toNat + 1 < UInt32.size := by omega
    have hcount : p.resent.transmissions.toNat + n < UInt32.size := by
      rw [resent, UInt32.toNat_add, UInt32.toNat_one, Nat.mod_eq_of_lt hcounted]
      omega
    rw [hsplit, after_append, hround, ih (p := p.resent.backedOff r) rfl rfl hroom hcount]
    simp only [backedOff, resent, hadd, hs, hl, hcounted, ↓reduceIte]

theorem after_refusals (P : RetryProtocol ρ σ) {r : Rejection} {delay : Duration}
    (hw : r.wait? = some delay) {n : Nat} (hb : n < request.maxRetries.toNat) :
    (new id request).after P ([.launch, .reply (.failure r)] ++ refusedRetries r n) =
      { (new id request : RetryProcedure ρ σ) with
        state := .backoff, attempts := .ofNat n, transmissions := .ofNat (1 + n),
        lastFailure := some r } := by
  have hlt : (new id request : RetryProcedure ρ σ).launched.attempts <
      (new id request : RetryProcedure ρ σ).launched.maxRetries :=
    UInt32.lt_iff_toNat_lt.2 (Nat.zero_lt_of_lt hb)
  have hfirst : (new id request).after P [.launch, .reply (.failure r)] =
      ((new id request : RetryProcedure ρ σ).launched).backedOff r := by
    simp only [after, List.foldl_cons, List.foldl_nil,
      transition_launch P (show (new id request : RetryProcedure ρ σ).state = .created from rfl),
      transition_failure P (show (new id request : RetryProcedure ρ σ).launched.state =
        .awaitingResponse from rfl), onFailure_wait hw hlt]
  have hroom : ((new id request : RetryProcedure ρ σ).launched.backedOff r).attempts.toNat + n <
      request.maxRetries.toNat := by
    simpa [backedOff, launched, new] using hb
  have hcount : ((new id request : RetryProcedure ρ σ).launched.backedOff r).transmissions.toNat + n <
      UInt32.size := by
    have hone : ((new id request : RetryProcedure ρ σ).launched.backedOff r).transmissions.toNat = 1 :=
      rfl
    have hmax := request.maxRetries.toNat_lt
    rw [hone, UInt32.size]
    omega
  rw [after_append, hfirst, after_refusedRetries P hw rfl rfl hroom hcount]
  simp [backedOff, launched, new, UInt32.ofNat_add]

/-- On the largest budget the last request is the `2 ^ 32`-th, which the counter of requests cannot
hold. With overflow checks it is a panic, in a backoff that launch, rejections and retries lead to.
Without them the counter goes back to zero, the request is announced as number zero, and exhausted
retries are reported with no attempts at all. -/
theorem last_request_uncounted :
    let r : Rejection := ⟨⟨.misc, "unspecified"⟩, some .s1⟩
    let p : RetryProcedure NgSetupRequest NgSetupResponse := new ⟨"proc-1"⟩ ⟨⟨"amf-1"⟩,
      ⟨⟨"00101", 411, 22⟩, some "srsgnb01", [⟨7, ["00101"]⟩], .v256⟩, 4294967295⟩
    let waiting := [.launch, .reply (.failure r)] ++ refusedRetries r (2 ^ 32 - 2)
    let events := waiting ++ [.timerFired]
    p.run? ngSetup waiting = .ok ({ p with
      state := .backoff, attempts := 4294967294, transmissions := 4294967295,
      lastFailure := some r }, p.effects ngSetup waiting) ∧
    p.run? ngSetup events = .error .addOverflow ∧
    ((p.effects ngSetup events).filterMap Effect.message?).length = 2 ^ 32 ∧
    (p.after ngSetup events).transmissions = 0 ∧
    .emit (.requestSent ⟨"proc-1"⟩ 0) ∈ p.effects ngSetup events ∧
    (p.after ngSetup (events ++ [.reply (.failure r)])).outcome =
      some (.failure (.retriesExhausted r 0)) ∧
    ¬CountsExactly ngSetup p events := by
  intro r p waiting events
  let q : RetryProcedure NgSetupRequest NgSetupResponse := { p with
    state := .backoff, attempts := 4294967294, transmissions := 4294967295, lastFailure := some r }
  have hwaiting : p.after ngSetup waiting = q := by
    have hretry : UInt32.ofNat (2 ^ 32 - 2) = 4294967294 := by decide
    have hrequest : UInt32.ofNat (1 + (2 ^ 32 - 2)) = 4294967295 := by decide
    have h : (new p.id ⟨p.entity, p.request, p.maxRetries⟩).after ngSetup waiting = _ :=
      after_refusals ngSetup (show r.wait? = some (.ofSeconds 1) from rfl) (by decide)
    rw [hretry, hrequest] at h
    exact h
  have hfires : q.transition ngSetup .timerFired = (q.resent, q.resent.sendRequest ngSetup) :=
    transition_timerFired ngSetup rfl (by decide)
  have hafter : p.after ngSetup events = q.resent := by
    rw [after_append, hwaiting, after, List.foldl_cons, hfires]
    rfl
  have heffects : p.effects ngSetup events =
      p.effects ngSetup waiting ++ q.resent.sendRequest ngSetup := by
    rw [effects_append, hwaiting, effects, hfires]
    rfl
  have hzero : q.resent.transmissions = 0 := by decide
  have hsent : ((p.effects ngSetup events).filterMap Effect.message?).length = 2 ^ 32 :=
    (length_requests_new ngSetup p.id ⟨p.entity, p.request, p.maxRetries⟩ hafter (by simp [resent])
      (by simp [resent])).trans (by decide)
  refine ⟨?_, ?_, hsent, hafter ▸ hzero, ?_, ?_, fun h => ?_⟩
  · have hfit : ((p.effects ngSetup waiting).filterMap Effect.message?).length < 2 ^ 32 := by
      refine Nat.lt_of_le_of_lt (Nat.le_of_eq (length_requests_new ngSetup p.id
        ⟨p.entity, p.request, p.maxRetries⟩ hwaiting (by simp [q]) (by simp [q]))) (by decide)
    have hchecked : p.run? ngSetup waiting =
        .ok (p.after ngSetup waiting, p.effects ngSetup waiting) :=
      (run?_new ngSetup p.id ⟨p.entity, p.request, p.maxRetries⟩ waiting).trans (if_pos hfit)
    rw [hchecked, hwaiting]
  · have hfull : ¬((p.effects ngSetup events).filterMap Effect.message?).length < 2 ^ 32 := by
      rw [hsent]
      decide
    exact (run?_new ngSetup p.id ⟨p.entity, p.request, p.maxRetries⟩ events).trans (if_neg hfull)
  · rw [heffects, sendRequest, hzero]
    simp [p, q, resent, new]
  · rw [after_append, hafter, after, List.foldl_cons, transition_failure ngSetup rfl,
      onFailure_spent (show r.wait? = some (.ofSeconds 1) from rfl) (by decide), exhausted, hzero]
    rfl
  · have hcount := h.transmissions_eq
    rw [hafter, hzero, hsent] at hcount
    exact absurd hcount (by decide)

end RetryProcedure

end NgapProcedures
