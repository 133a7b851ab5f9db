import NgapProcedures.Proofs.Engine.Clock
import NgapProcedures.Proofs.Engine.Twin

/-! Twins in lockstep. Whatever is done to both of two engines that are twins, they return the same,
up to the lead that one has over the other, and are twins again. -/

namespace NgapProcedures

def Handle.shift (k : Nat) (h : Handle) : Handle := { h with slot := h.slot + k }

/-- what is returned with a lead: handles point further on, and the events of the longer past come
before the others -/
def Answer.ahead (o : Lead) : Answer → Answer
  | handle h => handle (h.shift o.slots)
  | events l => events (o.backlog ++ l)
  | a => a

/-- the lead once this has been returned: events are taken once -/
def Lead.past (o : Lead) : Answer → Lead
  | .events _ => { o with backlog := [] }
  | _ => o

theorem Table.get?_foldl_erase {κ α : Type} [Ord κ] [Std.LawfulEqOrd κ] [DecidableEq κ]
    (ks : List κ) (t : Table κ α) (k : κ) :
    (ks.foldl Table.erase t).get? k = if k ∈ ks then none else t.get? k := by
  induction ks generalizing t with
  | nil => simp
  | cons a rest ih =>
    rw [List.foldl_cons, ih, Table.get?_erase]
    by_cases hr : k ∈ rest <;> by_cases ha : k = a <;> simp [hr, ha]

namespace Engine

variable {γ δ : Type} [Gateway γ] [Gateway δ]

/-- the wakes of a tick are queued for those who are due -/
theorem advance_eq_run (e : Engine γ) : e.advance = run { e with
    armed := e.clockwork.ticked.armed
    timers := e.clockwork.ticked.timers
    wakes := e.wakes ++ e.clockwork.due.map (·, .timerFired) } := by
  obtain ⟨armed, he, ha⟩ := foldl_expire e.timers.advance.1 { e with timers := e.timers.advance.2 }
  have harmed : armed = e.clockwork.ticked.armed :=
    Table.ext_get? fun q => (ha q).trans (Table.get?_foldl_erase _ _ q).symm
  have hadvance : e.advance =
      (e.timers.advance.1.foldl expire { e with timers := e.timers.advance.2 }).run := rfl
  rw [hadvance, he, harmed]
  rfl

omit [Gateway γ] in
theorem untimed_wake {e : Engine γ} (h : ∀ x ∈ e.wakes, x.2.Untimed) (id : ProcedureId) {w : Wake}
    (hw : w.Untimed) : ∀ x ∈ (e.wake id w).wakes, x.2.Untimed := by
  intro x hx
  rcases List.mem_append.1 hx with hx | hx
  · exact h x hx
  · obtain rfl := List.mem_singleton.1 hx
    exact hw

omit [Gateway γ] in
theorem untimed_start {e : Engine γ} (h : e.wakes = []) (m : Machine) :
    ∀ x ∈ (e.start m).2.wakes, x.2.Untimed := by
  have hlaunch : Wake.Untimed .launch := trivial
  apply untimed_wake _ m.id hlaunch
  intro x hx
  simp [Engine.emit, h] at hx

variable {T : Tie γ δ} {o : Lead} {e : Engine γ} {f : Engine δ}

namespace Twin

theorem isLive (h : Twin T o e f) (id : ProcedureId) : e.isLive id = f.isLive id := by
  unfold Engine.isLive
  rw [h.get?]
  cases f.tasks.get? id <;> simp [Task.shift]

theorem isActive (h : Twin T o e f) (entity : EntityId) (kind : Kind) :
    e.isActive entity kind = f.isActive entity kind := by
  unfold Engine.isActive
  rw [h.registry]
  congr 1
  funext id
  rw [h.get?]
  cases f.tasks.get? id <;> simp [Task.shift]

theorem result? (h : Twin T o e f) (handle : Handle) :
    e.result? (handle.shift o.slots) = f.result? handle :=
  h.results handle.slot

theorem recipient? (h : Twin T o e f) (m : PeerMessage) : e.recipient? m = f.recipient? m := by
  unfold Engine.recipient?
  rw [h.registry]
  congr 1
  funext id
  rw [h.get?]
  cases f.tasks.get? id <;> simp [Task.shift]

theorem start (h : Twin T o e f) (m : Machine) :
    (e.start (m.shift o.slots)).1 = (f.start m).1.shift o.slots ∧
      Twin T o (e.start (m.shift o.slots)).2 (f.start m).2 := by
  have hseat : Twin T o
      { e with
        tasks := e.tasks.insert (m.shift o.slots).id ⟨m.shift o.slots, e.started⟩
        started := e.started + 1 }
      { f with tasks := f.tasks.insert m.id ⟨m, f.started⟩, started := f.started + 1 } :=
    { h with
      tasks := by simp [h.tasks, h.started, Table.map_insert, Task.shift]
      started := by simp only [h.started]; omega }
  unfold Engine.start
  simp only [Machine.id_shift, Machine.kind_shift, Machine.entity_shift] at hseat ⊢
  exact ⟨by simp [Handle.shift, h.started], (hseat.emit _).wake m.id .launch⟩

end Twin

structure Abreast (T : Tie γ δ) (o : Lead) (e : Engine γ) (f : Engine δ) : Prop extends
    Twin T o e f where
  quiet : e.wakes = []

theorem Twin.abreast_run (h : Twin T o e f) (hq : ∀ x ∈ e.wakes, x.2.Untimed) :
    Abreast T o e.run f.run :=
  ⟨h.run hq, wakes_run _⟩

namespace Abreast

theorem foldl {α : Type} {F : Engine γ → α → Engine γ} {G : Engine δ → α → Engine δ}
    (step : ∀ {e f} a, Abreast T o e f → Abreast T o (F e a) (G f a)) (l : List α)
    (h : Abreast T o e f) : Abreast T o (l.foldl F e) (l.foldl G f) := by
  induction l generalizing e f with
  | nil => exact h
  | cons a rest ih => exact ih (step a h)

theorem allocateId (h : Abreast T o e f) : e.allocateId.1 = f.allocateId.1 ∧
    Abreast T o e.allocateId.2 f.allocateId.2 := by
  have hknown (id : ProcedureId) : e.tasks.contains id = f.tasks.contains id := by
    rw [h.tasks, Table.contains_map]
  constructor
  · simp [Engine.allocateId, h.ids, hknown]
  · exact { h with ids := by simp [Engine.allocateId, h.ids] }

theorem launchRetry (h : Abreast T o e f) (entity : EntityId) (kind : Kind)
    {machine : ProcedureId → Machine} (hm : ∀ id, (machine id).shift o.slots = machine id) :
    (e.launchRetry entity kind machine).1 =
        (f.launchRetry entity kind machine).1.map (Handle.shift o.slots) ∧
      Abreast T o (e.launchRetry entity kind machine).2 (f.launchRetry entity kind machine).2 := by
  obtain ⟨hid, h⟩ := h.allocateId
  unfold Engine.launchRetry
  generalize e.allocateId = drawn at hid h
  obtain ⟨drawn, e⟩ := drawn
  generalize f.allocateId = drawn' at hid h
  obtain ⟨drawn', f⟩ := drawn'
  obtain rfl : drawn = drawn' := hid
  cases drawn with
  | error error => exact ⟨rfl, h⟩
  | ok id =>
    dsimp only at h ⊢
    rw [h.isActive, h.registry]
    split
    · exact ⟨rfl, h⟩
    · cases f.registry.register entity id with
      | error error => exact ⟨rfl, h⟩
      | ok registry =>
        have hreg : Abreast T o { e with registry } { f with registry } := { h with registry := rfl }
        obtain ⟨hhandle, hstart⟩ := hreg.start (machine id)
        rw [hm] at hhandle hstart
        exact ⟨congrArg Except.ok hhandle, hstart.abreast_run (untimed_start hreg.quiet _)⟩

theorem launchSetup (h : Abreast T o e f) (request : ProcedureRequest NgSetupRequest) :
    (e.launchSetup request).1 = (f.launchSetup request).1.map (Handle.shift o.slots) ∧
      Abreast T o (e.launchSetup request).2 (f.launchSetup request).2 :=
  h.launchRetry _ _ fun _ => rfl

theorem launchConfigUpdate (h : Abreast T o e f)
    (request : ProcedureRequest RanConfigurationUpdate) :
    (e.launchConfigUpdate request).1 =
        (f.launchConfigUpdate request).1.map (Handle.shift o.slots) ∧
      Abreast T o (e.launchConfigUpdate request).2 (f.launchConfigUpdate request).2 :=
  h.launchRetry _ _ fun _ => rfl

theorem cancel (h : Abreast T o e f) (id : ProcedureId) :
    (e.cancel id).1 = (f.cancel id).1 ∧ Abreast T o (e.cancel id).2 (f.cancel id).2 := by
  unfold Engine.cancel
  rw [h.isLive]
  split
  · refine ⟨rfl, (h.wake id .cancel).abreast_run (untimed_wake ?_ id trivial)⟩
    simp [h.quiet]
  · exact ⟨rfl, h⟩

/-- the connection follows its setup -/
theorem follow (h : Abreast T o e f) (registry : Registry) (setup : Handle) (id : ProcedureId)
    (c : AmfConnection) :
    let e' := { e with registry, parents := e.parents.insert setup.id id }.start
      (.connection c (setup.shift o.slots).slot)
    let f' := { f with registry, parents := f.parents.insert setup.id id }.start
      (.connection c setup.slot)
    e'.1 = f'.1.shift o.slots ∧ Abreast T o
      (if e'.2.ready (setup.shift o.slots) then e'.2.wake id (.procedureDone setup.id) else e'.2).run
      (if f'.2.ready setup then f'.2.wake id (.procedureDone setup.id) else f'.2).run := by
  intro e' f'
  have hlinked : Twin T o
      { e with registry, parents := e.parents.insert setup.id id }
      { f with registry, parents := f.parents.insert setup.id id } :=
    { h with registry := rfl, parents := congrArg (·.insert setup.id id) h.parents }
  obtain ⟨hhandle, hstart⟩ := hlinked.start (.connection c setup.slot)
  have hready : e'.2.ready (setup.shift o.slots) = f'.2.ready setup :=
    congrArg Option.isSome (hstart.result? setup)
  have huntimed : ∀ x ∈ e'.2.wakes, x.2.Untimed := untimed_start h.quiet _
  refine ⟨hhandle, ?_⟩
  rw [hready]
  split
  · exact (hstart.wake id (.procedureDone setup.id)).abreast_run (untimed_wake huntimed id trivial)
  · exact hstart.abreast_run huntimed

theorem launchConnection (h : Abreast T o e f) (controller : EntityId)
    (request : ProcedureRequest NgSetupRequest) :
    (e.launchConnection controller request).1 =
        (f.launchConnection controller request).1.map (Handle.shift o.slots) ∧
      Abreast T o (e.launchConnection controller request).2
        (f.launchConnection controller request).2 := by
  obtain ⟨hlaunched, h₁⟩ := h.launchSetup request
  unfold Engine.launchConnection
  rw [h.isActive]
  split
  · exact ⟨rfl, h⟩
  · generalize e.launchSetup request = launched at hlaunched h₁
    obtain ⟨launched, e₁⟩ := launched
    generalize f.launchSetup request = launched' at hlaunched h₁
    obtain ⟨launched', f₁⟩ := launched'
    obtain rfl : launched = launched'.map (Handle.shift o.slots) := hlaunched
    cases launched' with
    | error error => exact ⟨rfl, h₁⟩
    | ok setup =>
      obtain ⟨hid, h₂⟩ := h₁.allocateId
      dsimp only [Except.map] at h₁ hid h₂ ⊢
      generalize e₁.allocateId = drawn at hid h₂
      obtain ⟨drawn, e₂⟩ := drawn
      generalize f₁.allocateId = drawn' at hid h₂
      obtain ⟨drawn', f₂⟩ := drawn'
      obtain rfl : drawn = drawn' := hid
      cases drawn with
      | error error => exact ⟨rfl, (h₂.cancel setup.id).2⟩
      | ok id =>
        dsimp only at h₂ ⊢
        rw [h₂.registry]
        cases f₂.registry.register controller id with
        | error error => exact ⟨rfl, (h₂.cancel setup.id).2⟩
        | ok registry =>
          obtain ⟨hhandle, hrun⟩ := h₂.follow registry setup id
            ⟨id, controller, request.entity, setup.id, .created, none⟩
          exact ⟨congrArg Except.ok hhandle, hrun⟩

theorem handleMessage (h : Abreast T o e f) (m : PeerMessage)
    (hroom : T.room e.clockwork f.clockwork) :
    (e.handleMessage m).1 = (f.handleMessage m).1 ∧
      Abreast T o (e.handleMessage m).2 (f.handleMessage m).2 := by
  unfold Engine.handleMessage
  rw [h.recipient?]
  cases f.recipient? m with
  | none => exact ⟨rfl, h⟩
  | some id =>
    refine ⟨rfl, ?_⟩
    -- the message itself may start a timer, what it leads to does not
    have hd := h.dispatch id (.message m.pdu) fun _ => hroom
    dsimp only
    rw [run_wake h.quiet, run_wake (h.wakes ▸ h.quiet)]
    refine hd.abreast_run fun x hx => ?_
    rcases ending_of_mem_dispatch hx with hx | hx
    · simp [h.quiet] at hx
    · exact hx.untimed

theorem advance (h : Abreast T o e f) (hripe : T.ripe e.clockwork f.clockwork) :
    Abreast T o e.advance f.advance := by
  obtain ⟨hdue, hclocks⟩ := T.tick h.clocks hripe
  rw [advance_eq_run, advance_eq_run]
  refine Twin.abreast_run ?_ ?_
  · exact { h with clocks := hclocks, wakes := by simp only [h.wakes, hdue] }
  · simp [h.quiet, Wake.Untimed]

theorem advances (n : Nat) (h : Abreast T o e f)
    (hripe : ∀ i < n, T.ripe (e.after (List.replicate i .advance)).clockwork
      (f.after (List.replicate i .advance)).clockwork) :
    Abreast T o (e.after (List.replicate n .advance)) (f.after (List.replicate n .advance)) := by
  induction n generalizing e f with
  | zero => exact h
  | succ n ih =>
    exact ih (h.advance (hripe 0 (Nat.succ_pos n))) fun i hi => hripe (i + 1) (Nat.succ_lt_succ hi)

theorem remove (h : Abreast T o e f) (entity : EntityId) :
    (e.remove entity).1 = (f.remove entity).1 ∧
      Abreast T o (e.remove entity).2 (f.remove entity).2 := by
  have hforget {e : Engine γ} {f : Engine δ} (id : ProcedureId) (h : Abreast T o e f) :
      Abreast T o (e.forget id) (f.forget id) :=
    ⟨h.forget id, by rw [forget_eq]; exact h.quiet⟩
  have hremoved : Abreast T o { e with registry := (e.registry.remove entity).2 }
      { f with registry := (f.registry.remove entity).2 } :=
    { h with registry := by rw [h.registry] }
  refine ⟨congrArg (·.ids entity) h.registry, ?_⟩
  unfold Engine.remove
  dsimp only
  rw [h.registry] at hremoved ⊢
  exact hremoved.foldl (fun id h => hforget id h) _

theorem cancelEntity (h : Abreast T o e f) (entity : EntityId) :
    Abreast T o (e.cancelEntity entity) (f.cancelEntity entity) := by
  unfold Engine.cancelEntity
  rw [h.registry]
  exact h.foldl (fun id h => (h.cancel id).2) _

theorem transportLost (h : Abreast T o e f) : e.transportLost.1 = f.transportLost.1 ∧
    Abreast T o e.transportLost.2 f.transportLost.2 := by
  have hdown : Abreast T o { e with tearingDown := true } { f with tearingDown := true } :=
    { h with tearingDown := rfl }
  have hcancelled := hdown.foldl (fun entity h => h.cancelEntity entity) f.registry.entities
  have hentities : e.registry.entities = f.registry.entities := by rw [h.registry]
  unfold Engine.transportLost
  rw [hentities]
  dsimp only
  generalize f.registry.entities.foldl Engine.cancelEntity { e with tearingDown := true } = e₁
    at hcancelled
  generalize f.registry.entities.foldl Engine.cancelEntity { f with tearingDown := true } = f₁
    at hcancelled
  have hup : Abreast T o { e₁ with tearingDown := false } { f₁ with tearingDown := false } :=
    { hcancelled with tearingDown := rfl }
  have hemit (lost : List EntityId) {e : Engine γ} {f : Engine δ} (h : Abreast T o e f) :
      Abreast T o (if lost.isEmpty then e else e.emit (.transactionsLost lost))
        (if lost.isEmpty then f else f.emit (.transactionsLost lost)) := by
    split
    · exact h
    · exact ⟨h.emit _, h.quiet⟩
  have hlisted : e₁.registry.contains = f₁.registry.contains := by rw [hcancelled.registry]
  rw [hlisted]
  have hremoved := (hemit (f.registry.entities.filter f₁.registry.contains) hup).foldl
    (fun entity h => (h.remove entity).2) (f.registry.entities.filter f₁.registry.contains)
  exact ⟨rfl, { hremoved with closures := by simp only [hremoved.closures]; omega }⟩

/-- An operation keeps twins abreast, if there is room for a timer when a message comes, and each of
its ticks wakes the same procedures on both sides. -/
theorem step (h : Abreast T o e f) (op : Operation)
    (hroom : ∀ m, op = .message m → T.room e.clockwork f.clockwork)
    (hripe : ∀ i < op.ticks, T.ripe (e.after (List.replicate i .advance)).clockwork
      (f.after (List.replicate i .advance)).clockwork) :
    (e.step op).1 = (f.step op).1.ahead o ∧
      Abreast T (o.past (f.step op).1) (e.step op).2 (f.step op).2 := by
  have hlaunch (launched : Except LaunchError Handle) :
      Answer.ofLaunch (launched.map (Handle.shift o.slots)) = (Answer.ofLaunch launched).ahead o ∧
        o.past (.ofLaunch launched) = o := by
    cases launched <;> exact ⟨rfl, rfl⟩
  cases op with
  | setup request =>
    obtain ⟨hhandle, h'⟩ := h.launchSetup request
    obtain ⟨hanswer, hpast⟩ := hlaunch (f.launchSetup request).1
    exact ⟨(congrArg Answer.ofLaunch hhandle).trans hanswer, hpast.symm ▸ h'⟩
  | update request =>
    obtain ⟨hhandle, h'⟩ := h.launchConfigUpdate request
    obtain ⟨hanswer, hpast⟩ := hlaunch (f.launchConfigUpdate request).1
    exact ⟨(congrArg Answer.ofLaunch hhandle).trans hanswer, hpast.symm ▸ h'⟩
  | connect controller request =>
    obtain ⟨hhandle, h'⟩ := h.launchConnection controller request
    obtain ⟨hanswer, hpast⟩ := hlaunch (f.launchConnection controller request).1
    exact ⟨(congrArg Answer.ofLaunch hhandle).trans hanswer, hpast.symm ▸ h'⟩
  | message m =>
    obtain ⟨hanswer, h'⟩ := h.handleMessage m (hroom m rfl)
    exact ⟨congrArg Answer.flag hanswer, h'⟩
  | advance => exact ⟨rfl, h.advance (hripe 0 Nat.one_pos)⟩
  | advanceBy ticks =>
    refine ⟨rfl, ?_⟩
    simp only [Engine.step, advanceBy_eq]
    exact h.advances ticks.toNat hripe
  | cancel id =>
    obtain ⟨hanswer, h'⟩ := h.cancel id
    exact ⟨congrArg Answer.flag hanswer, h'⟩
  | remove entity =>
    obtain ⟨hanswer, h'⟩ := h.remove entity
    exact ⟨congrArg Answer.ids hanswer, h'⟩
  | transportLost =>
    obtain ⟨hanswer, h'⟩ := h.transportLost
    exact ⟨congrArg Answer.entities hanswer, h'⟩
  | drainEvents => exact ⟨congrArg Answer.events h.log, { h with log := rfl }⟩

end Abreast

end Engine

end NgapProcedures
