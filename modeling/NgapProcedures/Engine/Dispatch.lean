import NgapProcedures.Engine.Basic
import NgapProcedures.Table.Laws

/-! The wake queue: wakes are dispatched in the order they were queued until none is left. Every
dispatch uses up a wake, and what it queues is paid for by an instance that ends: `work` counts two
for each live instance and one for each queued wake, and no dispatch raises it. -/

namespace NgapProcedures.Engine

variable {γ : Type}

/-- drops every trace of an instance outside the registry -/
def forget (e : Engine γ) (id : ProcedureId) : Engine γ :=
  let e := e.releaseTimer id
  { e with tasks := e.tasks.erase id, parents := e.parents.erase id }

/-- lets the procedure that waits for this one know. One that was cancelled along with the session
takes its parent with it. -/
def notifyParent (e : Engine γ) (id : ProcedureId) (cancelled : Bool) : Engine γ :=
  match e.parents.get? id with
  | some parent =>
    { e with parents := e.parents.erase id }.wake parent
      (if cancelled && e.tearingDown then .cancel else .procedureDone id)
  | none => e

def deregister (e : Engine γ) (id : ProcedureId) : Engine γ :=
  match e.tasks.get? id with
  | some t => { e with registry := (e.registry.deregister t.machine.entity id).2 }
  | none => e

/-- what follows the end of an instance. One cancelled by the loss of the transport keeps its task
and registration until that has been reported. -/
def settle (e : Engine γ) (id : ProcedureId) (cancelled : Bool) : Engine γ :=
  let e := (e.releaseTimer id).notifyParent id cancelled
  if cancelled && e.tearingDown then e else (e.deregister id).forget id

/-- resumes an instance with a wake; a wake that it does not expect is discarded -/
def dispatch [Gateway γ] (e : Engine γ) (id : ProcedureId) (w : Wake) : Engine γ :=
  match e.tasks.get? id with
  | none => e
  | some t =>
    if t.machine.expects w then
      let (t, results, effects) := t.resume e.results w
      let e := { e with tasks := e.tasks.insert id t, results }.performAll id effects
      if t.machine.isTerminal then e.settle id t.machine.isCancelled else e
    else e

/-- two for each live instance and one for each queued wake -/
def work (e : Engine γ) : Nat := 2 * e.activeProcedures + e.wakes.length

@[simp] theorem releaseTimer_tasks (e : Engine γ) (id : ProcedureId) :
    (e.releaseTimer id).tasks = e.tasks := by
  unfold releaseTimer; split <;> rfl

@[simp] theorem releaseTimer_wakes (e : Engine γ) (id : ProcedureId) :
    (e.releaseTimer id).wakes = e.wakes := by
  unfold releaseTimer; split <;> rfl

theorem work_forget_le (e : Engine γ) (id : ProcedureId) : (e.forget id).work ≤ e.work := by
  have := Table.countP_erase_le (fun x => !x.2.machine.isTerminal) e.tasks id
  simp only [work, forget, activeProcedures, releaseTimer_tasks, releaseTimer_wakes]
  omega

theorem work_notifyParent_le (e : Engine γ) (id : ProcedureId) (c : Bool) :
    (e.notifyParent id c).work ≤ e.work + 1 := by
  unfold notifyParent
  split <;> simp [work, wake, activeProcedures]; omega

theorem work_deregister (e : Engine γ) (id : ProcedureId) : (e.deregister id).work = e.work := by
  unfold deregister; split <;> rfl

theorem work_settle_le (e : Engine γ) (id : ProcedureId) (c : Bool) :
    (e.settle id c).work ≤ e.work + 1 := by
  have h1 : (e.releaseTimer id).work = e.work := by simp [work, activeProcedures]
  have h2 := work_notifyParent_le (e.releaseTimer id) id c
  unfold settle
  dsimp only
  split
  · omega
  · have h3 := work_forget_le ((((e.releaseTimer id).notifyParent id c)).deregister id) id
    rw [work_deregister] at h3
    omega

def followUps (effects : List Effect) : Nat :=
  effects.countP fun effect => effect matches .cancelProcedure _

section

variable [Gateway γ]

@[simp] theorem perform_tasks (e : Engine γ) (owner : ProcedureId) (effect : Effect) :
    (e.perform owner effect).tasks = e.tasks := by
  cases effect <;> simp [perform, armTimer, wake, emit]

theorem performAll_tasks (owner : ProcedureId) (effects : List Effect) (e : Engine γ) :
    (e.performAll owner effects).tasks = e.tasks := by
  unfold performAll
  induction effects generalizing e with
  | nil => rfl
  | cons effect rest ih => simp [ih]

theorem performAll_wakes_length (owner : ProcedureId) (effects : List Effect) (e : Engine γ) :
    (e.performAll owner effects).wakes.length = e.wakes.length + followUps effects := by
  unfold performAll
  induction effects generalizing e with
  | nil => rfl
  | cons effect rest ih =>
    simp only [List.foldl_cons, ih, followUps, List.countP_cons]
    cases effect <;> simp [perform, armTimer, wake, emit]
    omega

end

end NgapProcedures.Engine

namespace NgapProcedures

theorem RetryProcedure.followUps_transition {ρ σ : Type} (P : RetryProtocol ρ σ)
    (p : RetryProcedure ρ σ) (event : RetryEvent σ) :
    Engine.followUps (p.transition P event).2 = 0 := by
  unfold transition
  split
  all_goals try simp [sendRequest, Engine.followUps]
  · unfold onFailure
    split
    · simp
    · split <;> simp [exhausted]
  · split
    · split <;> simp
    · split <;> simp [exhausted]

theorem AmfConnection.followUps_transition (c : AmfConnection) (event : ConnectionEvent) :
    Engine.followUps (c.transition event).2 ≤ if (c.transition event).1.isTerminal then 1 else 0 := by
  unfold transition
  split
  all_goals try simp [Engine.followUps, isTerminal]
  next setup _ => cases setup <;> simp [report, outcomeOf]

theorem Machine.followUps_resume {results : Results} {w : Wake} {m m' : Machine}
    {effects : List Effect} (h : m.resume results w = some (m', effects)) :
    Engine.followUps effects ≤ if m'.isTerminal then 1 else 0 := by
  cases m with
  | setup p =>
    simp only [resume, Option.map_eq_some_iff, Prod.mk.injEq] at h
    obtain ⟨event, -, rfl, rfl⟩ := h
    simp [RetryProcedure.followUps_transition]
  | update p =>
    simp only [resume, Option.map_eq_some_iff, Prod.mk.injEq] at h
    obtain ⟨event, -, rfl, rfl⟩ := h
    simp [RetryProcedure.followUps_transition]
  | connection c slot =>
    simp only [resume, Option.map_eq_some_iff, Prod.mk.injEq] at h
    obtain ⟨event, -, rfl, rfl⟩ := h
    exact c.followUps_transition event

theorem Task.followUps_resume (t : Task) (results : Results) (w : Wake) :
    Engine.followUps (t.resume results w).2.2 ≤
      if (t.resume results w).1.machine.isTerminal then 1 else 0 := by
  unfold resume
  split
  · simp [Engine.followUps]
  · next h => exact Machine.followUps_resume h

theorem Machine.not_isTerminal_of_expects {m : Machine} {w : Wake} (h : m.expects w = true) :
    m.isTerminal = false := by
  cases m with
  | setup p =>
    cases w <;> simp_all [expects, waitingFor, isTerminal, RetryProcedure.waitingFor,
      RetryProcedure.isTerminal] <;> (split at h <;> simp_all)
  | update p =>
    cases w <;> simp_all [expects, waitingFor, isTerminal, RetryProcedure.waitingFor,
      RetryProcedure.isTerminal] <;> (split at h <;> simp_all)
  | connection c slot =>
    cases w <;> simp_all [expects, waitingFor, isTerminal, AmfConnection.waitingFor,
      AmfConnection.isTerminal, accepts] <;> (split at h <;> simp_all)

namespace Engine

variable {γ : Type} [Gateway γ]

theorem work_dispatch_le (e : Engine γ) (id : ProcedureId) (w : Wake) :
    (e.dispatch id w).work ≤ e.work := by
  unfold dispatch
  split
  · exact Nat.le_refl _
  · next t ht =>
    split
    · next hx =>
      have hlive := Machine.not_isTerminal_of_expects hx
      have hfollow := t.followUps_resume e.results w
      generalize t.resume e.results w = r at hfollow
      obtain ⟨t', results, effects⟩ := r
      dsimp only at hfollow ⊢
      have hcount := Table.countP_insert (fun x => !x.2.machine.isTerminal) e.tasks (v := t') ht
      simp only [hlive, Bool.not_false, ↓reduceIte] at hcount
      have hwork : (performAll { e with tasks := e.tasks.insert id t', results } id effects).work =
          2 * (e.tasks.insert id t').entries.countP (fun x => !x.2.machine.isTerminal) +
            (e.wakes.length + followUps effects) := by
        simp only [work, activeProcedures, performAll_tasks, performAll_wakes_length]
      have hold : e.work = 2 * e.tasks.entries.countP (fun x => !x.2.machine.isTerminal) +
          e.wakes.length := rfl
      cases hterm : t'.machine.isTerminal with
      | true =>
        have := work_settle_le
          (performAll { e with tasks := e.tasks.insert id t', results } id effects) id
          t'.machine.isCancelled
        simp only [hterm, Bool.not_true, Bool.false_eq_true, ↓reduceIte] at hcount hfollow ⊢
        omega
      | false =>
        simp only [hterm, Bool.not_false, Bool.false_eq_true, ↓reduceIte] at hcount hfollow ⊢
        omega
    · exact Nat.le_refl _

/-- dispatches queued wakes, and the ones they lead to, until none is left -/
def run (e : Engine γ) : Engine γ :=
  match _queued : e.wakes with
  | [] => e
  | (id, w) :: rest => run ({ e with wakes := rest }.dispatch id w)
termination_by e.work
decreasing_by
  have := work_dispatch_le { e with wakes := rest } id w
  simp only [work, activeProcedures, _queued, List.length_cons] at this ⊢
  omega

end Engine

end NgapProcedures
