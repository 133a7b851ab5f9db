import NgapProcedures.Proofs.Engine.Silence

/-! Two engines side by side. They may differ in what surrounds them, their gateways and their
clocks, and one may have a longer past: slots that are taken, closures that are counted, events that
are not drained. Everything else is the same, and stays so as long as the clocks keep in step. This
goes along the definitions, one lemma for each function, up to the run of the queue. -/

namespace NgapProcedures

structure Clockwork where
  armed : Table ProcedureId TimerId
  timers : TimerService

namespace Clockwork

def release (c : Clockwork) (owner : ProcedureId) : Clockwork where
  armed := c.armed.erase owner
  timers :=
    match c.armed.get? owner with
    | some timer => (c.timers.cancel timer).2
    | none => c.timers

def schedule (c : Clockwork) (owner : ProcedureId) (delay : Duration) : Clockwork where
  armed := c.armed.insert owner c.timers.nextId
  timers := (c.timers.schedule owner delay).2

def due (c : Clockwork) : List ProcedureId := Engine.expiring c.armed c.timers.advance.1

def ticked (c : Clockwork) : Clockwork where
  armed := c.due.foldl Table.erase c.armed
  timers := c.timers.advance.2

end Clockwork

/-- What ties the surroundings of two engines to each other. It outlasts whatever an engine does to
them; a timer is started only where there is room for its number, and a tick is taken only where it
wakes the same procedures on both sides. -/
structure Tie (γ δ : Type) [Gateway γ] [Gateway δ] where
  /-- what both engines are configured with -/
  config : EngineConfig
  gateways : γ → δ → Prop
  clocks : Clockwork → Clockwork → Prop
  room : Clockwork → Clockwork → Prop
  ripe : Clockwork → Clockwork → Prop
  send : ∀ {g h}, gateways g h → ∀ m, gateways (Gateway.send g m).2 (Gateway.send h m).2
  release : ∀ {c d}, clocks c d → ∀ owner, clocks (c.release owner) (d.release owner)
  roomy : ∀ {c d}, room c d → ∀ owner, room (c.release owner) (d.release owner)
  schedule : ∀ {c d}, clocks c d → room c d → ∀ owner delay,
    clocks (c.schedule owner delay) (d.schedule owner delay)
  tick : ∀ {c d}, clocks c d → ripe c d → c.due = d.due ∧ clocks c.ticked d.ticked

/-- by how much the past of one engine is longer -/
structure Lead where
  slots : Nat := 0
  closures : Nat := 0
  backlog : List Event := []

namespace Machine

def shift (k : Nat) : Machine → Machine
  | connection c slot => connection c (slot + k)
  | m => m

section

variable (k : Nat) (m : Machine)

@[simp] theorem id_shift : (m.shift k).id = m.id := by cases m <;> rfl

@[simp] theorem entity_shift : (m.shift k).entity = m.entity := by cases m <;> rfl

@[simp] theorem kind_shift : (m.shift k).kind = m.kind := by cases m <;> rfl

@[simp] theorem waitingFor_shift : (m.shift k).waitingFor = m.waitingFor := by cases m <;> rfl

@[simp] theorem isTerminal_shift : (m.shift k).isTerminal = m.isTerminal := by cases m <;> rfl

@[simp] theorem isCancelled_shift : (m.shift k).isCancelled = m.isCancelled := by cases m <;> rfl

@[simp] theorem result?_shift : (m.shift k).result? = m.result? := by cases m <;> rfl

@[simp] theorem expects_shift (w : Wake) : (m.shift k).expects w = m.expects w := by
  cases m <;> rfl

end

/-- a machine that finds its setup's result in the other place does the same -/
theorem resume_shift {results results' : Results} {k : Nat}
    (h : ∀ slot, results.get? (slot + k) = results'.get? slot) (w : Wake) (m : Machine) :
    (m.shift k).resume results w = (m.resume results' w).map fun r => (r.1.shift k, r.2) := by
  cases m with
  | setup p => simp [shift, resume, Function.comp_def]
  | update p => simp [shift, resume, Function.comp_def]
  | connection c slot => simp [shift, resume, h, Function.comp_def]

end Machine

theorem Results.record_shift {results results' : Results} {k : Nat}
    (h : ∀ slot, results.get? (slot + k) = results'.get? slot) (slot : Nat)
    (result : Option Result) (s : Nat) :
    (results.record (slot + k) result).get? (s + k) = (results'.record slot result).get? s := by
  cases result with
  | none => exact h s
  | some r =>
    have hwritten : results.contains (slot + k) = results'.contains slot := by
      simp [Table.contains, h]
    unfold record
    dsimp only
    rw [hwritten]
    split
    · exact h s
    · rw [Table.get?_insert, Table.get?_insert, h]
      simp

def Task.shift (k : Nat) (t : Task) : Task := ⟨t.machine.shift k, t.slot + k⟩

theorem Task.resume_shift {results results' : Results} {k : Nat}
    (h : ∀ slot, results.get? (slot + k) = results'.get? slot) (w : Wake) (t : Task) :
    ((t.shift k).resume results w).1 = (t.resume results' w).1.shift k ∧
      (∀ slot, ((t.shift k).resume results w).2.1.get? (slot + k) =
        (t.resume results' w).2.1.get? slot) ∧
      ((t.shift k).resume results w).2.2 = (t.resume results' w).2.2 := by
  have hm := Machine.resume_shift h w t.machine
  unfold resume
  cases hr : t.machine.resume results' w with
  | none =>
    rw [hr] at hm
    simp [shift, hm, h]
  | some r =>
    rw [hr] at hm
    simp [shift, hm, Results.record_shift h]

def Effect.Arms : Effect → Prop
  | startTimer _ => True
  | _ => False

/-- wakes that make no instance start a timer -/
def Wake.Untimed : Wake → Prop
  | message _ => False
  | _ => True

theorem Wake.Ending.untimed {w : Wake} (h : w.Ending) : w.Untimed := by
  cases w <;> simp_all [Wake.Ending, Wake.Untimed]

theorem RetryProcedure.arms_transition {ρ σ : Type} (P : RetryProtocol ρ σ)
    (p : RetryProcedure ρ σ) (event : RetryEvent σ) :
    (∀ x ∈ (p.transition P event).2.tail, ¬x.Arms) ∧
      ((∀ reply, event ≠ .reply reply) → ∀ x ∈ (p.transition P event).2, ¬x.Arms) := by
  unfold transition
  split
  all_goals try simp [sendRequest, Effect.Arms]
  · unfold onFailure
    split
    · simp
    · split <;> simp [exhausted]
  · split
    · split <;> simp
    · split <;> simp [exhausted]

theorem AmfConnection.arms_transition (c : AmfConnection) (event : ConnectionEvent) :
    ∀ x ∈ (c.transition event).2, ¬x.Arms := by
  unfold transition
  split
  all_goals try simp [Effect.Arms]
  next setup _ => cases setup <;> simp [report, outcomeOf]

/-- a timer is started before anything else is done, and only because of a message -/
theorem Machine.arms_resume {m m' : Machine} {results : Results} {w : Wake}
    {effects : List Effect} (h : m.resume results w = some (m', effects)) :
    (∀ x ∈ effects.tail, ¬x.Arms) ∧ (w.Untimed → ∀ x ∈ effects, ¬x.Arms) := by
  have hevent {ρ σ : Type} {P : RetryProtocol ρ σ} {event : RetryEvent σ}
      (he : P.eventOf w = some event) (hw : w.Untimed) : ∀ reply, event ≠ .reply reply := by
    cases w <;> simp_all [RetryProtocol.eventOf, Wake.Untimed] <;> (subst he; simp)
  cases m with
  | setup p =>
    simp only [resume, Option.map_eq_some_iff, Prod.mk.injEq] at h
    obtain ⟨event, he, rfl, rfl⟩ := h
    have := p.arms_transition ngSetup event
    exact ⟨this.1, fun hw => this.2 (hevent he hw)⟩
  | update p =>
    simp only [resume, Option.map_eq_some_iff, Prod.mk.injEq] at h
    obtain ⟨event, he, rfl, rfl⟩ := h
    have := p.arms_transition ranConfigurationUpdate event
    exact ⟨this.1, fun hw => this.2 (hevent he hw)⟩
  | connection c slot =>
    simp only [resume, Option.map_eq_some_iff, Prod.mk.injEq] at h
    obtain ⟨event, -, rfl, rfl⟩ := h
    have := c.arms_transition event
    exact ⟨fun x hx => this x (List.mem_of_mem_tail hx), fun _ => this⟩

theorem Task.arms_resume (t : Task) (results : Results) (w : Wake) :
    (∀ x ∈ (t.resume results w).2.2.tail, ¬x.Arms) ∧
      (w.Untimed → ∀ x ∈ (t.resume results w).2.2, ¬x.Arms) := by
  unfold resume
  split
  · simp
  · next h => exact Machine.arms_resume h

namespace Engine

def clockwork {γ : Type} (e : Engine γ) : Clockwork := ⟨e.armed, e.timers⟩

section

variable {γ δ : Type} [Gateway γ] [Gateway δ]

/-- the engines are the same but for their surroundings and the longer past of the first -/
structure Twin (T : Tie γ δ) (o : Lead) (e : Engine γ) (f : Engine δ) : Prop where
  config : e.config = T.config ∧ f.config = T.config
  ids : e.ids = f.ids
  gateway : T.gateways e.gateway f.gateway
  clocks : T.clocks e.clockwork f.clockwork
  log : e.log = o.backlog ++ f.log
  registry : e.registry = f.registry
  tasks : e.tasks = f.tasks.map (Task.shift o.slots)
  parents : e.parents = f.parents
  wakes : e.wakes = f.wakes
  tearingDown : e.tearingDown = f.tearingDown
  closures : e.commonClosures = f.commonClosures + o.closures
  results : ∀ slot, e.results.get? (slot + o.slots) = f.results.get? slot
  started : e.started = f.started + o.slots

variable {T : Tie γ δ} {o : Lead} {e : Engine γ} {f : Engine δ}

namespace Twin

theorem get? (h : Twin T o e f) (id : ProcedureId) :
    e.tasks.get? id = (f.tasks.get? id).map (Task.shift o.slots) := by
  rw [h.tasks, Table.get?_map]

theorem emit (h : Twin T o e f) (event : Event) : Twin T o (e.emit event) (f.emit event) :=
  { h with log := by simp [Engine.emit, h.log] }

theorem wake (h : Twin T o e f) (id : ProcedureId) (w : Wake) :
    Twin T o (e.wake id w) (f.wake id w) :=
  { h with wakes := by simp [Engine.wake, h.wakes] }

theorem releaseTimer (h : Twin T o e f) (id : ProcedureId) :
    Twin T o (e.releaseTimer id) (f.releaseTimer id) := by
  rw [releaseTimer_eq, releaseTimer_eq]
  exact { h with clocks := T.release h.clocks id }

theorem armTimer (h : Twin T o e f) (hroom : T.room e.clockwork f.clockwork) (id : ProcedureId)
    (delay : Duration) : Twin T o (e.armTimer id delay) (f.armTimer id delay) := by
  have hfree := T.release h.clocks id
  have hroom := T.roomy hroom id
  unfold Engine.armTimer
  rw [releaseTimer_eq, releaseTimer_eq]
  exact { h with clocks := T.schedule hfree hroom id delay }

theorem perform (h : Twin T o e f) (owner : ProcedureId) (effect : Effect)
    (hroom : effect.Arms → T.room e.clockwork f.clockwork) :
    Twin T o (e.perform owner effect) (f.perform owner effect) := by
  cases effect with
  | send m => exact { h with gateway := T.send h.gateway m }
  | startTimer delay => exact h.armTimer (hroom trivial) owner delay
  | cancelTimer => exact h.releaseTimer owner
  | cancelProcedure id => exact h.wake id .cancel
  | emit event => exact h.emit event

theorem performAll (h : Twin T o e f) (owner : ProcedureId) {effects : List Effect}
    (htail : ∀ x ∈ effects.tail, ¬x.Arms)
    (hroom : (∃ x ∈ effects, x.Arms) → T.room e.clockwork f.clockwork) :
    Twin T o (e.performAll owner effects) (f.performAll owner effects) := by
  have hrest (rest : List Effect) (hrest : ∀ x ∈ rest, ¬x.Arms) {e : Engine γ} {f : Engine δ}
      (h : Twin T o e f) : Twin T o (e.performAll owner rest) (f.performAll owner rest) := by
    induction rest generalizing e f with
    | nil => exact h
    | cons x rest ih =>
      obtain ⟨hx, hrest⟩ := List.forall_mem_cons.1 hrest
      exact ih hrest (h.perform owner x fun ha => absurd ha hx)
  cases effects with
  | nil => exact h
  | cons x rest =>
    exact hrest rest htail (h.perform owner x fun ha => hroom ⟨x, List.mem_cons_self .., ha⟩)

theorem forget (h : Twin T o e f) (id : ProcedureId) : Twin T o (e.forget id) (f.forget id) := by
  have h := h.releaseTimer id
  unfold Engine.forget
  exact { h with
    tasks := (congrArg (·.erase id) h.tasks).trans (Table.map_erase _ _ _).symm
    parents := congrArg (·.erase id) h.parents }

theorem notifyParent (h : Twin T o e f) (id : ProcedureId) (cancelled : Bool) :
    Twin T o (e.notifyParent id cancelled) (f.notifyParent id cancelled) := by
  rw [notifyParent_eq, notifyParent_eq]
  exact { h with
    parents := by simp [h.parents]
    wakes := by simp [parentWake, h.wakes, h.parents, h.tearingDown] }

theorem deregister (h : Twin T o e f) (id : ProcedureId) :
    Twin T o (e.deregister id) (f.deregister id) := by
  unfold Engine.deregister
  rw [h.get?]
  cases f.tasks.get? id with
  | none => exact h
  | some t => exact { h with registry := by simp [Task.shift, h.registry] }

theorem settle (h : Twin T o e f) (id : ProcedureId) (cancelled : Bool) :
    Twin T o (e.settle id cancelled) (f.settle id cancelled) := by
  have h := (h.releaseTimer id).notifyParent id cancelled
  unfold Engine.settle
  dsimp only
  rw [h.tearingDown]
  split
  · exact h
  · exact (h.deregister id).forget id

theorem dispatch (h : Twin T o e f) (id : ProcedureId) (w : Wake)
    (hroom : ¬w.Untimed → T.room e.clockwork f.clockwork) :
    Twin T o (e.dispatch id w) (f.dispatch id w) := by
  unfold Engine.dispatch
  rw [h.get?]
  cases ht : f.tasks.get? id with
  | none => exact h
  | some t =>
    obtain ⟨htask, hresults, heffects⟩ := Task.resume_shift h.results w t
    obtain ⟨htail, harms⟩ := t.arms_resume f.results w
    have hexpects : (t.shift o.slots).machine.expects w = t.machine.expects w := by
      simp [Task.shift]
    dsimp only [Option.map_some]
    rw [hexpects]
    split
    · have h₁ : Twin T o
          { e with
            tasks := e.tasks.insert id ((t.shift o.slots).resume e.results w).1
            results := ((t.shift o.slots).resume e.results w).2.1 }
          { f with
            tasks := f.tasks.insert id (t.resume f.results w).1
            results := (t.resume f.results w).2.1 } :=
        { h with
          tasks := by simp [h.tasks, htask, Table.map_insert]
          results := hresults }
      have h₂ := h₁.performAll id htail <| by
        rintro ⟨x, hx, ha⟩
        exact hroom fun hw => harms hw x hx ha
      rw [heffects]
      have hterminal : ((t.shift o.slots).resume e.results w).1.machine.isTerminal =
          (t.resume f.results w).1.machine.isTerminal := by
        rw [htask, Task.shift, Machine.isTerminal_shift]
      have hcancelled : ((t.shift o.slots).resume e.results w).1.machine.isCancelled =
          (t.resume f.results w).1.machine.isCancelled := by
        rw [htask, Task.shift, Machine.isCancelled_shift]
      rw [hterminal, hcancelled]
      split
      · exact h₂.settle id _
      · exact h₂
    · exact h

theorem run (h : Twin T o e f) (hq : ∀ x ∈ e.wakes, x.2.Untimed) : Twin T o e.run f.run := by
  induction e using Engine.run.induct generalizing f with
  | case1 e hnil =>
    rw [run_of_wakes_nil hnil, run_of_wakes_nil (h.wakes ▸ hnil)]
    exact h
  | case2 e id w rest hcons ih =>
    have hcons' : f.wakes = (id, w) :: rest := h.wakes ▸ hcons
    rw [hcons, List.forall_mem_cons] at hq
    rw [run_of_wakes_cons hcons, run_of_wakes_cons hcons']
    have h' : Twin T o { e with wakes := rest } { f with wakes := rest } := { h with wakes := rfl }
    refine ih (h'.dispatch id w fun hw => absurd hq.1 hw) fun x hx => ?_
    rcases ending_of_mem_dispatch hx with hx | hx
    · exact hq.2 x hx
    · exact hx.untimed

end Twin

end

end Engine

end NgapProcedures
