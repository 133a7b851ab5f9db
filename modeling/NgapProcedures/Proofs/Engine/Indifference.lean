import NgapProcedures.Proofs.Engine.Lockstep
import NgapProcedures.Proofs.Engine.Timeline

/-! What becomes of a message does not matter to the engine. It hands a message over, does not look
at the answer and goes on: with whatever gateways, and whatever is done to them from outside, the
same operations return the same and leave engines that differ in their gateways alone. -/

namespace NgapProcedures

def Tie.sameClock (γ δ : Type) [Gateway γ] [Gateway δ] (config : EngineConfig) : Tie γ δ where
  config := config
  gateways _ _ := True
  clocks c d := c = d
  room _ _ := True
  ripe _ _ := True
  send _ _ := trivial
  release h owner := congrArg (·.release owner) h
  roomy _ _ := trivial
  schedule h _ owner delay := congrArg (·.schedule owner delay) h
  tick h _ := ⟨congrArg Clockwork.due h, congrArg Clockwork.ticked h⟩

theorem Table.map_of_id {κ α : Type} [Ord κ] [Std.TransOrd κ] [Std.LawfulEqOrd κ] {f : α → α}
    (hf : ∀ a, f a = a) (t : Table κ α) : t.map f = t :=
  Table.ext_get? fun k => by
    rw [Table.get?_map]
    cases t.get? k <;> simp [hf]

theorem Task.shift_zero (t : Task) : t.shift 0 = t := by
  obtain ⟨machine, slot⟩ := t
  cases machine <;> rfl

theorem Answer.ahead_nothing (a : Answer) : a.ahead {} = a := by cases a <;> rfl

theorem Lead.past_nothing (a : Answer) : ({} : Lead).past a = {} := by cases a <;> rfl

namespace Engine

variable {γ δ : Type}

/-- Everything that can be read off the engines is the same, and so is everything that decides how
they go on, but for the gateways. -/
structure Alike (e : Engine γ) (f : Engine δ) : Prop where
  results : ∀ handle, e.result? handle = f.result? handle
  log : e.log = f.log
  registry : e.registry = f.registry
  waiting : ∀ id, e.waitingFor? id = f.waitingFor? id
  pending : e.pendingTimers = f.pendingTimers
  now : e.now = f.now
  active : e.activeProcedures = f.activeProcedures
  closures : e.commonClosures = f.commonClosures
  tasks : e.tasks = f.tasks
  timers : e.timers = f.timers ∧ e.armed = f.armed
  rest : e.ids = f.ids ∧ e.config = f.config ∧ e.parents = f.parents ∧ e.wakes = f.wakes ∧
    e.tearingDown = f.tearingDown ∧ e.started = f.started

variable [Gateway γ] [Gateway δ]

theorem Twin.alike {config : EngineConfig} {e : Engine γ} {f : Engine δ}
    (h : Twin (.sameClock γ δ config) {} e f) :
    Alike e f := by
  have htasks : e.tasks = f.tasks := h.tasks.trans (Table.map_of_id Task.shift_zero _)
  obtain ⟨harmed, htimers⟩ := Clockwork.mk.inj h.clocks
  exact {
    results := fun handle => h.results handle.slot
    log := h.log
    registry := h.registry
    waiting := fun id => by rw [waitingFor?, waitingFor?, htasks]
    pending := congrArg TimerService.pending htimers
    now := congrArg TimerService.now htimers
    active := by rw [activeProcedures, activeProcedures, htasks]
    closures := h.closures
    tasks := htasks
    timers := ⟨htimers, harmed⟩
    rest := ⟨h.ids, h.config.1.trans h.config.2.symm, h.parents, h.wakes, h.tearingDown, h.started⟩ }

theorem Abreast.play_sameClock {config : EngineConfig} {e : Engine γ} {f : Engine δ}
    (h : Abreast (.sameClock γ δ config) {} e f) {a : Timeline γ} {b : Timeline δ}
    (hops : a.operations = b.operations) :
    (e.play a).1 = (f.play b).1 ∧ Abreast (.sameClock γ δ config) {} (e.play a).2 (f.play b).2 := by
  induction a generalizing b e f with
  | nil =>
    obtain rfl : b = [] := List.map_eq_nil_iff.1 hops.symm
    exact ⟨rfl, h⟩
  | cons x rest ih =>
    obtain ⟨change, op⟩ := x
    obtain ⟨⟨change', op'⟩, rest', rfl, hop, hrest⟩ := List.map_eq_cons_iff.1 hops.symm
    obtain rfl : op' = op := hop
    have hrewired : Abreast (.sameClock γ δ config) {} (e.rewire change) (f.rewire change') :=
      { h with gateway := trivial }
    obtain ⟨hanswer, hstep⟩ := hrewired.step op' (fun _ _ => trivial) (fun _ _ => trivial)
    rw [Answer.ahead_nothing] at hanswer
    rw [Lead.past_nothing] at hstep
    obtain ⟨hanswers, hplay⟩ := ih hstep hrest.symm
    exact ⟨List.cons_eq_cons.2 ⟨hanswer, hanswers⟩, hplay⟩

/-- nothing changes the configuration -/
theorem config_play {e : Engine γ} (hq : e.wakes = []) (timeline : Timeline γ) :
    (e.play timeline).2.config = e.config := by
  have htasks : e.tasks = e.tasks.map (Task.shift 0) :=
    (Table.map_of_id Task.shift_zero e.tasks).symm
  have hself : Abreast (.sameClock γ γ e.config) {} e e :=
    ⟨⟨⟨rfl, rfl⟩, rfl, trivial, rfl, rfl, rfl, htasks, rfl, rfl, rfl, rfl, fun _ => rfl, rfl⟩, hq⟩
  exact (hself.play_sameClock rfl).2.config.1

/-- The same operations, with gateways of whatever kind that do with the messages what they like and
that are changed between the operations at will: what the operations return is the same, one by one,
and so is everything about the engines but the gateways. -/
theorem indifferent (gateway : γ) (gateway' : δ) (ids : IdSource) (config : EngineConfig)
    (a : Timeline γ) (b : Timeline δ) (hops : a.operations = b.operations) :
    let e := (Engine.new gateway ids config).play a
    let f := (Engine.new gateway' ids config).play b
    e.1 = f.1 ∧ Alike e.2 f.2 := by
  have hnew : Abreast (.sameClock γ δ config) {} (Engine.new gateway ids config)
      (Engine.new gateway' ids config) :=
    ⟨⟨⟨rfl, rfl⟩, rfl, trivial, rfl, rfl, rfl, rfl, rfl, rfl, rfl, rfl, fun _ => rfl, rfl⟩, rfl⟩
  obtain ⟨hanswers, hplay⟩ := hnew.play_sameClock hops
  exact ⟨hanswers, hplay.alike⟩

/-- a request refused by a gateway that is closed for a while, and taken by one whose receiver goes
later; then the request that each of them refuses when it is sent again -/
theorem indifferent_refused :
    let setup : Operation :=
      .setup ⟨⟨"amf-1"⟩, ⟨⟨"00101", 411, 22⟩, none, [⟨7, ["00101"]⟩], .v128⟩, 1⟩
    let failure : Operation :=
      .message ⟨⟨"amf-1"⟩, .ngSetupFailure ⟨⟨.misc, "unspecified"⟩, some .s1⟩⟩
    let a : Timeline RecordingGateway := [(fun g => g.setClosed true, setup), (id, failure),
      (id, .advanceBy 1000)]
    let b : Timeline (TracedGateway ChannelGateway) := [(id, setup), (id, failure),
      (fun g => ⟨g.inner.dropReceiver⟩, .advanceBy 1000)]
    let e := (Engine.new (default : RecordingGateway) (.sequential) {}).play a
    let f := (Engine.new (default : TracedGateway ChannelGateway) (.sequential) {}).play b
    a.operations = b.operations ∧ e.1 = f.1 ∧ Alike e.2 f.2 :=
  ⟨rfl, indifferent _ _ _ _ _ _ rfl⟩

end Engine

end NgapProcedures
