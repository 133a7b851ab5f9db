import Mathlib.Logic.Function.Iterate
import NgapProcedures.Proofs.Engine.Silence

/-! The loop that empties the queue, round by round, from any state at all: the tables may hold what no
history leads to, such as two connections that wait for each other. A round that queues wakes ends a
live instance, and queues one for its setup at most and one for whoever waits for it. Whoever has ended
takes no part in later rounds, so their number is bounded from the start. -/

namespace NgapProcedures

def Effect.wake? : Effect → Option (ProcedureId × Wake)
  | cancelProcedure id => some (id, .cancel)
  | _ => none

theorem RetryProcedure.wakes_transition {ρ σ : Type} (P : RetryProtocol ρ σ)
    (p : RetryProcedure ρ σ) (event : RetryEvent σ) :
    (p.transition P event).2.filterMap Effect.wake? = [] := by
  have hnone := p.followUps_transition P event
  refine List.filterMap_eq_nil_iff.2 fun effect hmem => ?_
  have hquiet := List.countP_eq_zero.1 hnone effect hmem
  cases effect <;> simp_all [Effect.wake?]

theorem AmfConnection.wakes_transition (c : AmfConnection) {event : ConnectionEvent}
    (h : event ≠ .cancel) : (c.transition event).2.filterMap Effect.wake? = [] := by
  unfold transition
  split
  case h_2 setup _ => cases setup <;> rfl
  case h_3 => exact absurd rfl h
  case h_4 => exact absurd rfl h
  all_goals rfl

theorem Machine.wakes_release (m : Machine) (event : Event) :
    (m.release ++ [Effect.emit event]).filterMap Effect.wake? = m.followUps := by
  have hretry (c : Prop) [Decidable c] :
      ((if c then [Effect.cancelTimer] else []) ++ [Effect.emit event]).filterMap Effect.wake? = [] := by
    split <;> rfl
  cases m with
  | setup p => exact hretry _
  | update p => exact hretry _
  | connection c slot => rfl

/-- the effects of a live machine queue a wake if it is a connection that is cancelled -/
theorem Machine.wakes_resume {m m' : Machine} {results : Results} {w : Wake} {effects : List Effect}
    (hl : m.isTerminal = false) (h : m.resume results w = some (m', effects)) :
    effects.filterMap Effect.wake? = if w = .cancel then m.followUps else [] := by
  by_cases hw : w = .cancel
  · subst hw
    rw [m.resume_cancel hl results] at h
    obtain ⟨-, rfl⟩ := Prod.mk.inj (Option.some.inj h)
    rw [m.wakes_release, if_pos rfl]
  rw [if_neg hw]
  cases m with
  | setup p =>
    simp only [resume, Option.map_eq_some_iff, Prod.mk.injEq] at h
    obtain ⟨event, -, -, rfl⟩ := h
    exact p.wakes_transition ngSetup event
  | update p =>
    simp only [resume, Option.map_eq_some_iff, Prod.mk.injEq] at h
    obtain ⟨event, -, -, rfl⟩ := h
    exact p.wakes_transition ranConfigurationUpdate event
  | connection c slot =>
    simp only [resume, Option.map_eq_some_iff, Prod.mk.injEq] at h
    obtain ⟨event, hevent, -, rfl⟩ := h
    refine c.wakes_transition ?_
    rintro rfl
    cases w <;> simp_all [AmfConnection.eventOf]
    split at hevent <;> simp at hevent

theorem Task.wakes_resume {t : Task} (hl : t.machine.isTerminal = false) (results : Results)
    (w : Wake) : (t.resume results w).2.2.filterMap Effect.wake? = [] ∨
      w = .cancel ∧ (t.resume results w).1.machine.isTerminal = true ∧
        (t.resume results w).2.2.filterMap Effect.wake? = t.machine.followUps := by
  unfold Task.resume
  cases hr : t.machine.resume results w with
  | none => exact .inl rfl
  | some r =>
    obtain ⟨m, effects⟩ := r
    have hwakes := Machine.wakes_resume hl hr
    by_cases hw : w = .cancel
    · subst hw
      rw [t.machine.resume_cancel hl results] at hr
      obtain ⟨rfl, rfl⟩ := Prod.mk.inj (Option.some.inj hr)
      exact .inr ⟨rfl, Machine.isTerminal_cancelled _, hwakes⟩
    · rw [if_neg hw] at hwakes
      exact .inl hwakes

namespace Engine

variable {γ : Type}

theorem wakes_settle (e : Engine γ) (id : ProcedureId) (cancelled : Bool) :
    (e.settle id cancelled).wakes = e.wakes ++ e.parentWake id
      (if cancelled && e.tearingDown then .cancel else .procedureDone id) := by
  have htold : ((e.releaseTimer id).notifyParent id cancelled).wakes = e.wakes ++ e.parentWake id
      (if cancelled && e.tearingDown then .cancel else .procedureDone id) := by
    rw [notifyParent_eq, releaseTimer_eq]
    rfl
  unfold settle
  dsimp only
  split
  · exact htold
  · rw [forget_eq]
    unfold deregister
    split <;> exact htold

/-- an instance that ends is dropped, or stays until the loss of the transport has been reported -/
theorem tasks_settle (e : Engine γ) (id : ProcedureId) (cancelled : Bool) :
    (e.settle id cancelled).tasks = e.tasks ∨
      (e.settle id cancelled).tasks = e.tasks.erase id := by
  have htasks : ((e.releaseTimer id).notifyParent id cancelled).tasks = e.tasks := by
    rw [notifyParent_eq, releaseTimer_eq]
  unfold settle
  dsimp only
  split
  · exact .inl htasks
  · right
    rw [forget_eq]
    unfold deregister
    split <;> exact congrArg (Table.erase · id) htasks

theorem parentWake_cases (e : Engine γ) (id : ProcedureId) (w : Wake) : e.parentWake id w = [] ∨
    ∃ parent, e.parents.get? id = some parent ∧ e.parentWake id w = [(parent, w)] := by
  unfold parentWake
  cases e.parents.get? id with
  | none => exact .inl rfl
  | some parent => exact .inr ⟨parent, rfl, rfl⟩

structure Resumed (e : Engine γ) (id : ProcedureId) (w : Wake) (t t' : Task) (done : Engine γ) :
    Prop where
  known : e.tasks.get? id = some t
  live : t.machine.isTerminal = false
  machine : t' = (t.resume e.results w).1
  performed : ∃ results gateway timers armed log, done = { e with
    tasks := e.tasks.insert id t', results, gateway, timers, armed, log
    wakes := e.wakes ++ (t.resume e.results w).2.2.filterMap Effect.wake? }

structure Ends (e : Engine γ) (id : ProcedureId) (w : Wake) (e' : Engine γ) : Prop where
  settles : ∃ t, e.tasks.get? id = some t ∧ t.machine.isTerminal = false ∧
    (t.resume e.results w).1.machine.isTerminal = true
  ended : e'.isLive id = false
  fewer : e'.activeProcedures < e.activeProcedures
  /-- a connection that is cancelled has its setup cancelled, and whoever waits is told -/
  queued : ∃ ahead told, e'.wakes = e.wakes ++ ahead ++ told ∧
    (ahead = [] ∨ ∃ t c slot, e.tasks.get? id = some t ∧ t.machine = .connection c slot ∧
      w = .cancel ∧ ahead = [(c.setup, .cancel)]) ∧
    (told = [] ∨ ∃ parent, e.parents.get? id = some parent ∧
      (told = [(parent, .cancel)] ∨ told = [(parent, .procedureDone id)]))

section

variable {e done : Engine γ} {id : ProcedureId} {w : Wake} {t t' : Task}

theorem Resumed.get? (h : Resumed e id w t t' done) (q : ProcedureId) :
    done.tasks.get? q = if q = id then some t' else e.tasks.get? q := by
  obtain ⟨_, _, _, _, _, rfl⟩ := h.performed
  exact Table.get?_insert ..

theorem Resumed.ends (h : Resumed e id w t t' done) (hterm : t'.machine.isTerminal = true) :
    e.Ends id w (done.settle id t'.machine.isCancelled) where
  settles := ⟨t, h.known, h.live, h.machine ▸ hterm⟩
  ended := by
    have hget : done.tasks.get? id = some t' := by rw [h.get?, if_pos rfl]
    rcases done.tasks_settle id t'.machine.isCancelled with heq | heq
    · simp [isLive, heq, hget, hterm]
    · simp [isLive, heq]
  fewer := by
    have hactive (e : Engine γ) :
        e.activeProcedures = e.tasks.entries.countP (fun x => !x.2.machine.isTerminal) := rfl
    have hcount := Table.countP_insert (fun x => !x.2.machine.isTerminal) e.tasks (v := t') h.known
    have herased := Table.countP_erase_le (fun x => !x.2.machine.isTerminal) done.tasks id
    have htasks : done.tasks = e.tasks.insert id t' := by
      obtain ⟨_, _, _, _, _, rfl⟩ := h.performed
      rfl
    simp only [h.live, hterm, Bool.not_false, Bool.not_true, Bool.false_eq_true, ↓reduceIte,
      ← htasks] at hcount
    rw [hactive, hactive]
    rcases done.tasks_settle id t'.machine.isCancelled with heq | heq <;> rw [heq] <;> omega
  queued := by
    obtain ⟨_, _, _, _, _, hdone⟩ := h.performed
    refine ⟨_, _, (wakes_settle ..).trans (congrArg (· ++ _) (congrArg Engine.wakes hdone)), ?_, ?_⟩
    · rcases Task.wakes_resume h.live e.results w with hnone | ⟨rfl, -, hfollow⟩
      · exact .inl hnone
      · rw [hfollow]
        cases hm : t.machine with
        | setup p => exact .inl rfl
        | update p => exact .inl rfl
        | connection c slot => exact .inr ⟨t, c, slot, h.known, hm, rfl, rfl⟩
    · have hparents : done.parents = e.parents := by rw [hdone]
      rcases done.parentWake_cases id (if t'.machine.isCancelled && done.tearingDown then .cancel
        else .procedureDone id) with hnone | ⟨parent, hparent, hsome⟩
      · exact .inl hnone
      · refine .inr ⟨parent, hparents ▸ hparent, ?_⟩
        rw [hsome]
        split
        · exact .inl rfl
        · exact .inr rfl

end

variable [Gateway γ]

/-- nothing that is dispatched to the instance is expected or changes anything -/
def Inert (e : Engine γ) (id : ProcedureId) : Prop :=
  ∀ w, e.dispatch id w = e ∧ ∀ t, e.tasks.get? id = some t → t.machine.expects w = false

theorem exists_performAll (e : Engine γ) (owner : ProcedureId) (effects : List Effect) :
    ∃ gateway timers armed log, e.performAll owner effects = { e with
      gateway, timers, armed, log, wakes := e.wakes ++ effects.filterMap Effect.wake? } := by
  unfold performAll
  induction effects generalizing e with
  | nil => exact ⟨e.gateway, e.timers, e.armed, e.log, by simp⟩
  | cons effect rest ih =>
    obtain ⟨gateway, timers, armed, log, heq⟩ := ih (e.perform owner effect)
    refine ⟨gateway, timers, armed, log, heq.trans ?_⟩
    cases effect <;> simp [perform, armTimer, releaseTimer_eq, wake, emit, List.filterMap_cons,
      Effect.wake?]

/-- a dispatch changes nothing, or resumes a live instance, which then goes on or ends -/
theorem dispatch_resumes (e : Engine γ) (id : ProcedureId) (w : Wake) :
    e.dispatch id w = e ∨ ∃ t t' done, Resumed e id w t t' done ∧ e.dispatch id w =
      if t'.machine.isTerminal then done.settle id t'.machine.isCancelled else done := by
  unfold dispatch
  cases ht : e.tasks.get? id with
  | none => exact .inl rfl
  | some t =>
    dsimp only
    split
    case isFalse => exact .inl rfl
    case isTrue hx =>
      refine .inr ⟨t, _, _, ⟨ht, Machine.not_isTerminal_of_expects hx, rfl, ?_⟩, rfl⟩
      obtain ⟨gateway, timers, armed, log, heq⟩ := exists_performAll
        { e with
          tasks := e.tasks.insert id (t.resume e.results w).1
          results := (t.resume e.results w).2.1 } id (t.resume e.results w).2.2
      exact ⟨_, gateway, timers, armed, log, heq⟩

/-- a round queues nothing, or ends an instance -/
theorem keeps_or_ends (e : Engine γ) (id : ProcedureId) (w : Wake) :
    (e.dispatch id w).wakes = e.wakes ∨ e.Ends id w (e.dispatch id w) := by
  rcases e.dispatch_resumes id w with heq | ⟨t, t', done, h, heq⟩
  · exact .inl (congrArg Engine.wakes heq)
  · rw [heq]
    split
    case isTrue hterm => exact .inr (h.ends hterm)
    case isFalse hgoes =>
      obtain ⟨_, _, _, _, _, rfl⟩ := h.performed
      rcases Task.wakes_resume h.live e.results w with hnone | ⟨-, hterm, -⟩
      · exact .inl (by rw [hnone, List.append_nil])
      · exact absurd (h.machine ▸ hterm) hgoes

/-- a round is about one instance -/
theorem tasks_dispatch_other (e : Engine γ) {id q : ProcedureId} (h : q ≠ id) (w : Wake) :
    (e.dispatch id w).tasks.get? q = e.tasks.get? q := by
  rcases e.dispatch_resumes id w with heq | ⟨t, t', done, hres, heq⟩
  · rw [heq]
  · have hget : done.tasks.get? q = e.tasks.get? q := by rw [hres.get?, if_neg h]
    rw [heq]
    split
    · rcases done.tasks_settle id t'.machine.isCancelled with hsame | herased
      · rw [hsame, hget]
      · rw [herased, Table.get?_erase_other _ h, hget]
    · exact hget

theorem inert_of_not_isLive {e : Engine γ} {id : ProcedureId} (h : e.isLive id = false) :
    e.Inert id := by
  intro w
  have hunexpected (t : Task) (ht : e.tasks.get? id = some t) : t.machine.expects w = false := by
    refine Bool.eq_false_iff.2 fun hx => ?_
    have hlive := Machine.not_isTerminal_of_expects hx
    simp [isLive, ht, hlive] at h
  refine ⟨?_, hunexpected⟩
  cases ht : e.tasks.get? id with
  | none => exact dispatch_unknown ht w
  | some t => exact dispatch_unexpected ht (hunexpected t ht)

/-- one round of the loop; there is none left once the queue is empty -/
def round (e : Engine γ) : Engine γ :=
  match e.wakes with
  | [] => e
  | (id, w) :: rest => { e with wakes := rest }.dispatch id w

section

variable {e : Engine γ} {id : ProcedureId}

theorem round_of_wakes_cons {w : Wake} {rest : List (ProcedureId × Wake)}
    (h : e.wakes = (id, w) :: rest) : e.round = { e with wakes := rest }.dispatch id w := by
  simp [round, h]

/-- every round is paid for -/
theorem work_round_lt (h : e.wakes ≠ []) : e.round.work < e.work := by
  obtain ⟨⟨id, w⟩, rest, hcons⟩ := List.exists_cons_of_ne_nil h
  have hstep := work_dispatch_le { e with wakes := rest } id w
  have hpaid : ({ e with wakes := rest } : Engine γ).work + 1 = e.work := by
    simp [work, activeProcedures, hcons, Nat.add_assoc]
  rw [round_of_wakes_cons hcons]
  omega

theorem tasks_round_of_not_isLive (h : e.isLive id = false) :
    e.round.tasks.get? id = e.tasks.get? id := by
  cases hwakes : e.wakes with
  | nil => simp [round, hwakes]
  | cons x rest =>
    obtain ⟨q, w⟩ := x
    rw [round_of_wakes_cons hwakes]
    by_cases hq : id = q
    · subst hq
      have hended : ({ e with wakes := rest } : Engine γ).isLive id = false := h
      rw [(inert_of_not_isLive hended w).1]
    · exact tasks_dispatch_other _ hq w

theorem tasks_rounds_of_not_isLive (h : e.isLive id = false) (k : Nat) :
    (round^[k] e).tasks.get? id = e.tasks.get? id := by
  induction k with
  | zero => rfl
  | succ k ih =>
    have hended : (round^[k] e).isLive id = false := by
      rw [isLive, ih]
      exact h
    rw [Function.iterate_succ_apply', tasks_round_of_not_isLive hended, ih]

/-- the rounds lead to an empty queue, by induction on the loop -/
theorem exists_rounds_run (e : Engine γ) : ∃ n, n + e.run.work ≤ e.work ∧ round^[n] e = e.run ∧
    ∀ m < n, (round^[m] e).wakes ≠ [] := by
  induction e using run.induct with
  | case1 e hnil =>
    rw [run_of_wakes_nil hnil]
    exact ⟨0, by simp⟩
  | case2 e id w rest hcons ih =>
    have hround : e.round = { e with wakes := rest }.dispatch id w := round_of_wakes_cons hcons
    have hbusy : e.wakes ≠ [] := by simp [hcons]
    rw [← hround] at ih
    obtain ⟨n, hpaid, hdone, hearlier⟩ := ih
    rw [run_of_wakes_cons hcons, ← hround]
    refine ⟨n + 1, ?_, hdone, ?_⟩
    · have hstep := work_round_lt hbusy
      omega
    · intro m hm
      cases m with
      | zero => exact hbusy
      | succ m => exact hearlier m (Nat.lt_of_succ_lt_succ hm)

end

/-- The loop ends, whatever state it starts from. A round queues nothing or ends a live instance, of
which there are fewer then, and queues a cancellation for its setup at most and a word to whoever waits
for it. An instance that has ended, or that nobody knows, is inert for the rest of the loop. So after
some number of rounds the queue is empty for the first time, where `run` arrives, and each of them
took one of the wakes queued at first or one of two for an instance that has ended. -/
theorem wake_loop_ends :
    (∀ (e : Engine γ) (id : ProcedureId) (w : Wake),
      (e.dispatch id w).wakes = e.wakes ∨ e.Ends id w (e.dispatch id w)) ∧
    (∀ (e : Engine γ) (id : ProcedureId), e.isLive id = false → ∀ k,
      (round^[k] e).tasks.get? id = e.tasks.get? id ∧ (round^[k] e).Inert id) ∧
    ∀ e : Engine γ, ∃ n,
      n + 2 * e.run.activeProcedures ≤ 2 * e.activeProcedures + e.wakes.length ∧
      round^[n] e = e.run ∧ e.run.wakes = [] ∧ ∀ m < n, (round^[m] e).wakes ≠ [] := by
  refine ⟨keeps_or_ends, ?_, ?_⟩
  · intro e id hid k
    have hget := tasks_rounds_of_not_isLive hid k
    refine ⟨hget, inert_of_not_isLive ?_⟩
    rw [isLive, hget]
    exact hid
  · intro e
    obtain ⟨n, hpaid, hdone, hearlier⟩ := e.exists_rounds_run
    have hnil := e.wakes_run
    simp only [work, hnil, List.length_nil] at hpaid
    exact ⟨n, hpaid, hdone, hnil, hearlier⟩

/-- Two connections that are each other's setup and each other's parent, one of them cancelled with the
transport: each is told of the other's end twice, and the bound of five rounds is met. -/
theorem wake_loop_ends_mutual :
    let a : ProcedureId := ⟨"a"⟩
    let b : ProcedureId := ⟨"b"⟩
    let connection (own setup : ProcedureId) : Task :=
      ⟨.connection ⟨own, ⟨"ngc"⟩, ⟨"amf-1"⟩, setup, .awaitingSetup, none⟩ 0, 0⟩
    let e : Engine NoGateway := { Engine.new ⟨⟩ .sequential {} with
      tasks := (Table.insert ∅ a (connection a b)).insert b (connection b a)
      parents := (Table.insert ∅ a b).insert b a
      wakes := [(a, .cancel)]
      tearingDown := true }
    2 * e.activeProcedures + e.wakes.length = 5 ∧ round^[5] e = e.run ∧
      (∀ m < 5, (round^[m] e).wakes ≠ []) ∧ e.round.isLive a = false ∧ e.run.Inert a := by
  intro a b connection e
  obtain ⟨-, hinert, hends⟩ := wake_loop_ends (γ := NoGateway)
  obtain ⟨n, hpaid, hrun, hnil, -⟩ := hends e
  have hbound : 2 * e.activeProcedures + e.wakes.length = 5 := by decide +kernel
  have hbusy : ∀ m < 5, (round^[m] e).wakes ≠ [] := by decide +kernel
  have hended : e.round.isLive a = false := by decide +kernel
  obtain rfl : n = 5 := by
    by_contra hne
    exact hbusy n (by omega) (hrun ▸ hnil)
  exact ⟨hbound, hrun, hbusy, hended, hrun ▸ (hinert e.round a hended 4).2⟩

end Engine

end NgapProcedures
