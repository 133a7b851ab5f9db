import NgapProcedures.Proofs.Engine.Indifference
import NgapProcedures.Proofs.Engine.Standing
import NgapProcedures.Proofs.Timer.Shift

/-! After the loss of the transport an engine is as good as new. What it keeps are results that
nobody else can reach, cancelled timers that will be passed over, and counts that have moved on: a
bisimulation with an engine that is built in its place, in which slots, timer numbers and ticks are
further on by constants. -/

namespace NgapProcedures

theorem Table.map_foldl_erase {κ α β : Type} [Ord κ] [Std.TransOrd κ] [Std.LawfulEqOrd κ]
    [DecidableEq κ] (f : α → β) (ks : List κ) (t : Table κ α) :
    (ks.foldl Table.erase t).map f = ks.foldl Table.erase (t.map f) := by
  induction ks generalizing t with
  | nil => rfl
  | cons k rest ih => rw [List.foldl_cons, ih, Table.map_erase, List.foldl_cons]

theorem Engine.expiring_shift (number time : UInt64) (armed : Table ProcedureId TimerId)
    (fired : List Timer) :
    expiring (armed.map (· + number)) (fired.map (Timer.shift number time)) =
      expiring armed fired := by
  induction fired generalizing armed with
  | nil => rfl
  | cons t rest ih =>
    have hiff : (armed.map (· + number)).get? t.owner = some (t.id + number) ↔
        armed.get? t.owner = some t.id := by
      rw [Table.get?_map, Option.map_eq_some_iff]
      simp only [UInt64.add_left_inj, exists_eq_right]
    have herase := Table.map_erase (· + number) armed t.owner
    simp only [List.map_cons, expiring]
    dsimp only [Timer.shift]
    simp only [hiff, ← herase, ih]

namespace Clockwork

structure Shifted (number time : UInt64) (c d : Clockwork) : Prop where
  timers : TimerService.Shifted number time c.timers d.timers
  armed : c.armed = d.armed.map (· + number)

variable {number time : UInt64} {c d : Clockwork}

theorem nextId_release (c : Clockwork) (owner : ProcedureId) :
    (c.release owner).timers.nextId = c.timers.nextId := by
  unfold release
  dsimp only
  split <;> rfl

theorem Shifted.release (h : Shifted number time c d) (owner : ProcedureId) :
    Shifted number time (c.release owner) (d.release owner) where
  timers := by
    have hget : c.armed.get? owner = (d.armed.get? owner).map (· + number) := by
      rw [h.armed, Table.get?_map]
    simp only [Clockwork.release, hget]
    cases d.armed.get? owner with
    | none => exact h.timers
    | some k => exact h.timers.cancel k
  armed := (congrArg (·.erase owner) h.armed).trans (Table.map_erase _ _ _).symm

theorem Shifted.schedule (h : Shifted number time c d)
    (hroom : c.timers.nextId.toNat + 1 < 2 ^ 64) (owner : ProcedureId) (delay : Duration) :
    Shifted number time (c.schedule owner delay) (d.schedule owner delay) where
  timers := h.timers.schedule owner delay hroom
  armed := by
    simp only [Clockwork.schedule, h.armed, h.timers.nextId_eq]
    exact (Table.map_insert _ _ _ _).symm

theorem Shifted.ticked (h : Shifted number time c d)
    (hr : TimerService.Shifted.Ripe time c.timers d.timers) :
    c.due = d.due ∧ Shifted number time c.ticked d.ticked := by
  have hdue : c.due = d.due := by
    unfold Clockwork.due
    rw [h.armed, h.timers.fired hr, Engine.expiring_shift]
  refine ⟨hdue, h.timers.advance hr, ?_⟩
  simp only [Clockwork.ticked, hdue, h.armed, Table.map_foldl_erase]

end Clockwork

def Tie.shiftedClock (γ : Type) [Gateway γ] (config : EngineConfig) (number time : UInt64) :
    Tie γ γ where
  config := config
  gateways g h := g = h
  clocks c d := c.Shifted number time d
  room c _ := c.timers.nextId.toNat + 1 < 2 ^ 64
  ripe c d := TimerService.Shifted.Ripe time c.timers d.timers
  send h m := congrArg (fun g => (Gateway.send g m).2) h
  release h owner := h.release owner
  roomy {c _} h owner := by
    rw [c.nextId_release]
    exact h
  schedule h hroom owner delay := h.schedule hroom owner delay
  tick h hr := h.ticked hr

def Lead.answers (o : Lead) : List Answer → List Answer
  | [] => []
  | a :: rest => a.ahead o :: (o.past a).answers rest

/-- the lead once all this has been returned -/
def Lead.beyond (o : Lead) (answers : List Answer) : Lead := answers.foldl Lead.past o

theorem Lead.beyond_counts (o : Lead) (answers : List Answer) :
    (o.beyond answers).slots = o.slots ∧ (o.beyond answers).closures = o.closures := by
  induction answers generalizing o with
  | nil => exact ⟨rfl, rfl⟩
  | cons a rest ih =>
    obtain ⟨hslots, hclosures⟩ := ih (o.past a)
    have hpast : (o.past a).slots = o.slots ∧ (o.past a).closures = o.closures := by
      cases a <;> exact ⟨rfl, rfl⟩
    exact ⟨hslots.trans hpast.1, hclosures.trans hpast.2⟩

namespace Engine

variable {γ : Type} [Gateway γ]

/-- no timer comes to wait in the course of a number of ticks -/
theorem Steady.waits_advances {e : Engine γ} (h : e.Steady) (ht : e.timers.Sound) (n : Nat)
    {t : Timer} (hw : (e.after (List.replicate n .advance)).timers.Waits t) : e.timers.Waits t := by
  induction n generalizing e with
  | zero => exact hw
  | succ n ih =>
    obtain ⟨tasks, armed, he, -⟩ := h.coherent.advance_spec h.quiet
    have htimers : e.advance.timers = e.timers.advance.2 := by rw [he]
    have hsound : e.advance.timers.Sound := htimers ▸ ht.advance
    have hw' := ih (h.after [.advance]) hsound hw
    have hw' : e.advance.timers.Waits t := hw'
    rw [htimers] at hw'
    exact ((ht.waits_advance t).1 hw').1

/-- A tick is left over when all is done, or at no time is a timer waiting to fire beyond the last
tick of a clock that is so many ticks ahead. Deadlines are cut off at the last tick that 64 bits
count, and one that was cut off comes too early there. -/
def InTime (elapsed : Nat) (e : Engine γ) (future : Timeline γ) : Prop :=
  elapsed + ticks future.operations + 1 < 2 ^ 64 ∨
    ∀ before, before <+: future → ∀ t, (e.play before).2.timers.Waits t →
      elapsed + t.deadline.toNat < 2 ^ 64

section

variable {config : EngineConfig} {number time : UInt64} {o : Lead} {e f : Engine γ}

/-- ticks that go by while there is room on the clock -/
theorem Abreast.ripe (h : Abreast (.shiftedClock γ config number time) o e f) (hs : e.Steady)
    (hf : f.Steady) {n : Nat} (hfit : e.now.toNat + n < 2 ^ 64)
    (hlate : e.now.toNat + n + 1 < 2 ^ 64 ∨
      ∀ t, f.timers.Waits t → time.toNat + t.deadline.toNat < 2 ^ 64) {i : Nat} (hi : i < n) :
    TimerService.Shifted.Ripe time (e.after (List.replicate i .advance)).timers
      (f.after (List.replicate i .advance)).timers := by
  have hticks : ticks (List.replicate i .advance) = i := by simp [ticks, Operation.ticks]
  have hnow : (e.after (List.replicate i .advance)).timers.now.toNat = e.now.toNat + i := by
    have hafter := hs.now_after (List.replicate i .advance) (by omega)
    rw [hticks] at hafter
    exact hafter
  refine ⟨by omega, hlate.imp (fun hl => by omega) fun hl t ht => ?_⟩
  have hroom := hl t (hf.waits_advances h.clocks.timers.sound' i ht)
  omega

/-- the two go on alike, operation by operation -/
theorem Abreast.play_shifted (h : Abreast (.shiftedClock γ config number time) o e f)
    (hs : e.Steady) (ht : e.Timed) (hf : f.Steady) (future : Timeline γ)
    (hn : e.timers.nextId.toNat + messages future.operations < 2 ^ 64)
    (hfit : e.now.toNat + ticks future.operations < 2 ^ 64)
    (hlate : e.now.toNat + ticks future.operations + 1 < 2 ^ 64 ∨
      ∀ before, before <+: future → ∀ t, (f.play before).2.timers.Waits t →
        time.toNat + t.deadline.toNat < 2 ^ 64) :
    (e.play future).1 = o.answers (f.play future).1 ∧
      Abreast (.shiftedClock γ config number time) (o.beyond (f.play future).1)
        (e.play future).2 (f.play future).2 := by
  induction future generalizing o e f with
  | nil => exact ⟨rfl, h⟩
  | cons x rest ih =>
    obtain ⟨change, op⟩ := x
    have hmessages : messages (Timeline.operations ((change, op) :: rest)) =
        messages [op] + messages (Timeline.operations rest) := messages_append [op] _
    have hticks : ticks (Timeline.operations ((change, op) :: rest)) =
        op.ticks + ticks (Timeline.operations rest) := rfl
    have hticks' : ticks [op] = op.ticks := rfl
    rw [hmessages] at hn
    rw [hticks] at hfit hlate
    have h₁ : Abreast (.shiftedClock γ config number time) o (e.rewire change) (f.rewire change) :=
      { h with gateway := congrArg change h.gateway }
    have hs₁ := hs.rewire change
    have ht₁ := ht.rewire change
    have hf₁ := hf.rewire change
    generalize hlater : (e.rewire change) = e₁ at h₁ hs₁ ht₁
    have hnext : e₁.timers.nextId = e.timers.nextId := hlater ▸ rfl
    have hnow : e₁.now = e.now := hlater ▸ rfl
    rw [← hnext] at hn
    rw [← hnow] at hfit hlate
    have hroom : ∀ m, op = .message m → e₁.timers.nextId.toNat + 1 < 2 ^ 64 := by
      rintro m rfl
      have hone : messages [.message m] = 1 := rfl
      omega
    have hlate₁ : e₁.now.toNat + op.ticks + 1 < 2 ^ 64 ∨
        ∀ t, (f.rewire change).timers.Waits t → time.toNat + t.deadline.toNat < 2 ^ 64 :=
      hlate.imp (fun hl => by omega) fun hl t ht => hl [] List.nil_prefix t ht
    obtain ⟨hanswer, h₂⟩ := h₁.step op hroom fun i hi => h₁.ripe hs₁ hf₁ (by omega) hlate₁ hi
    obtain ⟨ht₂, -, hid⟩ := ht₁.after hs₁ [op] (by omega)
    have hs₂ : (e₁.step op).2.Steady := hs₁.after [op]
    have hf₂ : ((f.rewire change).step op).2.Steady := hf₁.after [op]
    have hnow₂ : (e₁.step op).2.now.toNat = e₁.now.toNat + op.ticks :=
      hs₁.now_after [op] (by omega)
    have hid : (e₁.step op).2.timers.nextId.toNat ≤ e₁.timers.nextId.toNat + messages [op] := hid
    obtain ⟨hanswers, h₃⟩ := ih h₂ hs₂ ht₂ hf₂ (by omega) (by omega) <|
      hlate.imp (fun hl => by omega) fun hl before hb t hw =>
        hl ((change, op) :: before) (List.cons_prefix_cons.2 ⟨rfl, hb⟩) t hw
    rw [play_cons, play_cons, hlater]
    exact ⟨List.cons_eq_cons.2 ⟨hanswer, hanswers⟩, h₃⟩

/-- An engine that has lost its transport, beside one that is built then: its clock is ahead by the
ticks and the numbers of its past, and nothing that waits is left in it. -/
theorem Steady.abreast_of_tornDown {e₀ : Engine γ} {gone : List ProcedureId} (h : TornDown e₀ e gone)
    (hs : e.Steady) (ht : e.Timed) (hconfig : e.config = config)
    (htick : e.timers.tick = config.tick.orMilli) (hid : 1 ≤ e.timers.nextId.toNat) :
    Abreast (.shiftedClock γ config (e.timers.nextId - 1) e.now)
      ⟨e.started, e.commonClosures, e.log⟩ e (Engine.new e.gateway e.ids config) := by
  have hclocks : Clockwork.Shifted (e.timers.nextId - 1) e.now e.clockwork
      (Engine.new e.gateway e.ids config).clockwork := {
    timers := {
      sound := ht.sound
      sound' := TimerService.sound_new config.tick
      tick := htick
      now := (Nat.zero_add _).symm
      nextId := by
        have hone : (1 : UInt64) ≤ e.timers.nextId := UInt64.le_iff_toNat_le.2 hid
        have hnew : (Engine.new e.gateway e.ids config).timers.nextId.toNat = 1 := rfl
        show e.timers.nextId.toNat = 1 + (e.timers.nextId - 1).toNat
        rw [UInt64.toNat_sub_of_le _ _ hone, UInt64.toNat_one]
        omega
      waits := fun t => by
        refine iff_of_false (fun hw => ?_) fun ⟨u, hu, _⟩ => ?_
        · have hlive : e.timers.live.contains t.id = true := hw.2
          simp [h.live, Table.contains] at hlive
        · exact absurd hu.1 List.not_mem_nil }
    armed := h.armed }
  exact {
    config := ⟨hconfig, rfl⟩
    ids := rfl
    gateway := rfl
    clocks := hclocks
    log := (List.append_nil _).symm
    registry := h.registry
    tasks := h.tasks
    parents := h.parents
    wakes := h.quiet
    tearingDown := h.standing
    closures := (Nat.zero_add _).symm
    results := fun slot => hs.coherent.fresh (Nat.le_add_left ..)
    started := (Nat.zero_add _).symm
    quiet := h.quiet }

end

/-- What can be observed of an engine with a past, beside one without. -/
structure Renewed (lost : Engine γ) (o : Lead) (e f : Engine γ) : Prop where
  results : ∀ handle, e.result? (handle.shift lost.started) = f.result? handle
  gateway : e.gateway = f.gateway
  log : e.log = o.backlog ++ f.log
  registry : e.registry = f.registry
  waiting : ∀ id, e.waitingFor? id = f.waitingFor? id
  active : e.activeProcedures = f.activeProcedures
  pending : e.pendingTimers = f.pendingTimers
  now : e.now.toNat = f.now.toNat + lost.now.toNat
  closures : e.commonClosures = f.commonClosures + lost.commonClosures
  ids : e.ids = f.ids

theorem Abreast.renewed {config : EngineConfig} {number : UInt64} {o : Lead} {lost e f : Engine γ}
    (h : Abreast (.shiftedClock γ config number lost.now) o e f) (hslots : o.slots = lost.started)
    (hclosures : o.closures = lost.commonClosures) (hc : e.Clocked) (hc' : f.Clocked) :
    Renewed lost o e f where
  results handle := by
    rw [← hslots]
    exact h.result? handle
  gateway := h.gateway
  log := h.log
  registry := h.registry
  waiting id := by
    rw [waitingFor?, waitingFor?, h.get?, Option.map_map]
    congr 1
    funext t
    exact Machine.waitingFor_shift _ _
  active := by
    rw [activeProcedures, activeProcedures, h.tasks, Table.map, List.countP_map]
    congr 1
    funext x
    simp [Task.shift]
  pending := by
    have harmed : e.armed.size = f.armed.size := by
      have harmed : e.armed = f.armed.map (· + number) := h.clocks.armed
      rw [harmed, Table.size, Table.map, List.length_map, Table.size]
    rw [hc.counted, hc'.counted, harmed]
  now := h.clocks.timers.now
  closures := hclosures ▸ h.closures
  ids := h.ids

theorem Steady.renewed {e : Engine γ} (hs : e.Steady) (ht : e.Timed)
    (htick : e.timers.tick = e.config.tick.orMilli) (hid : 1 ≤ e.timers.nextId.toNat)
    (future : Timeline γ)
    (hn : e.timers.nextId.toNat + messages future.operations < 2 ^ 64)
    (hfit : e.now.toNat + ticks future.operations < 2 ^ 64) :
    let lost := e.transportLost.2
    let fresh := Engine.new lost.gateway lost.ids e.config
    let past : Lead := ⟨lost.started, lost.commonClosures, lost.log⟩
    InTime e.now.toNat fresh future →
      lost.now = e.now ∧
      (lost.play future).1 = past.answers (fresh.play future).1 ∧
      Renewed lost (past.beyond (fresh.play future).1) (lost.play future).2
        (fresh.play future).2 := by
  intro lost fresh past hlate
  obtain ⟨-, gone, hdown⟩ := hs.coherent.tornDown hs.quiet
  have hslost : lost.Steady := hs.after [.transportLost]
  have htlost : lost.Timed := ht.without (hdown.without hs.coherent)
  obtain ⟨live, htimers⟩ := hdown.timers
  have htimers : lost.timers = { e.timers with live } := htimers
  have hnext : lost.timers.nextId = e.timers.nextId := by rw [htimers]
  have hnow : lost.now = e.now := by rw [now, htimers]; rfl
  have hconfig : lost.config = e.config := config_play hs.quiet [(id, .transportLost)]
  have h := hslost.abreast_of_tornDown hdown htlost hconfig (by rw [htimers]; exact htick)
    (hnext ▸ hid)
  have hsnew := steady_new lost.gateway lost.ids e.config
  have htnew := timed_new lost.gateway lost.ids e.config
  have hone : fresh.timers.nextId.toNat = 1 := rfl
  obtain ⟨hanswers, hplay⟩ := h.play_shifted hslost htlost hsnew future (hnext ▸ hn) (hnow ▸ hfit)
    (hnow ▸ hlate)
  have htimed := (htlost.play hslost future (hnext ▸ hn)).1
  have htimed' := (htnew.play hsnew future (by rw [hone]; omega)).1
  obtain ⟨hslots, hclosures⟩ := past.beyond_counts (fresh.play future).1
  refine ⟨hnow, hanswers, hplay.renewed hslots hclosures ?_ ?_⟩
  · exact htimed.clocked (hslost.play future).coherent
  · exact htimed'.clocked (hsnew.play future).coherent

/-- Once the transport is lost, whatever happened before it and whatever comes after, the engine
returns what an engine built in its place returns and shows what that one shows. Its clock is ahead
by the tick of the loss and its slots by the instances of before, and whoever drains the events of
before finds them ahead of the others. Timer numbers must not run out, and nor must ticks. -/
theorem as_good_as_new (gateway : γ) (ids : IdSource) (config : EngineConfig)
    (history future : Timeline γ)
    (hn : messages history.operations + messages future.operations + 1 < 2 ^ 64)
    (hfit : ticks history.operations + ticks future.operations < 2 ^ 64) :
    let lost := ((Engine.new gateway ids config).play history).2.transportLost.2
    let fresh := Engine.new lost.gateway lost.ids config
    let past : Lead := ⟨lost.started, lost.commonClosures, lost.log⟩
    InTime (ticks history.operations) fresh future →
      lost.now.toNat = ticks history.operations ∧
      (lost.play future).1 = past.answers (fresh.play future).1 ∧
      Renewed lost (past.beyond (fresh.play future).1) (lost.play future).2
        (fresh.play future).2 := by
  have hnew := steady_new gateway ids config
  have hone : (Engine.new gateway ids config).timers.nextId.toNat = 1 := rfl
  have hzero : (Engine.new gateway ids config).now.toNat = 0 := rfl
  obtain ⟨ht, hid, hid'⟩ := (timed_new gateway ids config).play hnew history (by omega)
  have hnow := hnew.now_play history (by omega)
  have hconfig : ((Engine.new gateway ids config).play history).2.config = config :=
    config_play hnew.quiet history
  have htick := hnew.tick_play history
  rw [hzero, Nat.zero_add] at hnow
  have hs := hnew.play history
  have hrenewed := hs.renewed ht (htick.trans (by rw [hconfig]; rfl)) (hone ▸ hid) future
    (by omega) (by omega)
  rw [hconfig, hnow] at hrenewed
  intro lost fresh past hlate
  obtain ⟨htime, hsame⟩ := hrenewed hlate
  exact ⟨(congrArg UInt64.toNat htime).trans hnow, hsame⟩

/-- a setup in its backoff when the transport is lost, and the same again afterwards, two ticks
later -/
theorem as_good_as_new_backoff :
    let setup : Operation :=
      .setup ⟨⟨"amf-1"⟩, ⟨⟨"00101", 411, 22⟩, none, [⟨7, ["00101"]⟩], .v128⟩, 1⟩
    let failure : Operation :=
      .message ⟨⟨"amf-1"⟩, .ngSetupFailure ⟨⟨.misc, "unspecified"⟩, some .s1⟩⟩
    let history : Timeline RecordingGateway := [(id, setup), (id, failure), (id, .advanceBy 2)]
    let future : Timeline RecordingGateway := [(fun g => g.setClosed true, setup),
      (fun g => g.setClosed false, failure), (id, .advanceBy 999), (id, .drainEvents),
      (id, .advance)]
    let lost :=
      ((Engine.new (default : RecordingGateway) (.sequential) {}).play history).2.transportLost.2
    let fresh := Engine.new lost.gateway lost.ids {}
    let past : Lead := ⟨lost.started, lost.commonClosures, lost.log⟩
    messages history.operations + messages future.operations + 1 < 2 ^ 64 ∧
      ticks history.operations + ticks future.operations < 2 ^ 64 ∧
      InTime (ticks history.operations) fresh future ∧
      (lost.play future).1 = past.answers (fresh.play future).1 ∧
      Renewed lost (past.beyond (fresh.play future).1) (lost.play future).2
        (fresh.play future).2 := by
  refine ⟨by decide, by decide, .inl (by decide), ?_⟩
  exact (as_good_as_new _ _ _ _ _ (by decide) (by decide) (.inl (by decide))).2

end Engine

end NgapProcedures
