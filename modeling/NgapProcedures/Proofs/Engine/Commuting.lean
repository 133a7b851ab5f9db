import NgapProcedures.Proofs.Engine.Delivery
import NgapProcedures.Proofs.Timer.Exchange

/-! Messages for different entities commute. Their deliveries change different instances, and changes
to different instances may be made in any order, but for the order of events and the numbers of the
timers that two backoffs arm. -/

namespace NgapProcedures

theorem Results.record_comm (results : Results) {n n' : Nat} (h : n ≠ n') (r r' : Result) :
    (results.record n (some r)).record n' (some r') =
      (results.record n' (some r')).record n (some r) := by
  unfold record
  by_cases hc : results.contains n = true <;> by_cases hc' : results.contains n' = true
  · simp [hc, hc']
  · simp [Table.contains_insert, hc, hc']
  · simp [Table.contains_insert, hc, hc']
  · simp [Table.contains_insert, hc, hc', h, h.symm, Table.insert_comm _ h]

namespace Engine

variable {γ : Type}

/-- The engines are the same but for the order of events and the numbers of pending timers: the same
instances wait for a timer, with the same deadlines. -/
structure Reordered (e e' : Engine γ) : Prop where
  config : e.config = e'.config
  ids : e.ids = e'.ids
  gateway : e.gateway = e'.gateway
  tasks : e.tasks = e'.tasks
  registry : e.registry = e'.registry
  parents : e.parents = e'.parents
  results : e.results = e'.results
  started : e.started = e'.started
  wakes : e.wakes = e'.wakes
  tearingDown : e.tearingDown = e'.tearingDown
  commonClosures : e.commonClosures = e'.commonClosures
  armed : ∀ q, (e.armed.get? q).isSome = (e'.armed.get? q).isSome
  timers : e.timers.Renumbered e'.timers
  log : e.log.Perm e'.log

namespace Reordered

variable {e e' e'' : Engine γ}

theorem refl (e : Engine γ) : e.Reordered e :=
  ⟨rfl, rfl, rfl, rfl, rfl, rfl, rfl, rfl, rfl, rfl, rfl, fun _ => rfl, .refl _, .refl _⟩

theorem trans (h : e.Reordered e') (h' : e'.Reordered e'') : e.Reordered e'' where
  config := h.config.trans h'.config
  ids := h.ids.trans h'.ids
  gateway := h.gateway.trans h'.gateway
  tasks := h.tasks.trans h'.tasks
  registry := h.registry.trans h'.registry
  parents := h.parents.trans h'.parents
  results := h.results.trans h'.results
  started := h.started.trans h'.started
  wakes := h.wakes.trans h'.wakes
  tearingDown := h.tearingDown.trans h'.tearingDown
  commonClosures := h.commonClosures.trans h'.commonClosures
  armed q := (h.armed q).trans (h'.armed q)
  timers := h.timers.trans h'.timers
  log := h.log.trans h'.log

theorem change (h : e.Reordered e') (x : Change) : (e.change x).Reordered (e'.change x) := by
  cases x with
  | ended id t r event => exact { h with
      tasks := congrArg (·.erase id) h.tasks
      registry := congrArg (fun registry => (registry.deregister t.machine.entity id).2) h.registry
      parents := congrArg (·.erase id) h.parents
      results := congrArg (·.record t.slot (some r)) h.results
      log := h.log.append_right [event] }
  | delayed id t delay event => exact { h with
      tasks := congrArg (·.insert id t) h.tasks
      armed := fun q => by
        simp only [Engine.change, Table.get?_insert]
        split
        · rfl
        · exact h.armed q
      timers := h.timers.schedule id delay
      log := h.log.append_right [event] }

theorem changeAll (h : e.Reordered e') (xs : List Change) :
    (e.changeAll xs).Reordered (e'.changeAll xs) := by
  induction xs generalizing e e' with
  | nil => exact h
  | cons x xs ih => exact ih (h.change x)

end Reordered

/-- changes to two instances may be made in either order -/
theorem change_comm (e : Engine γ) {x y : Change} (h : x.Apart y) :
    ((e.change x).change y).Reordered ((e.change y).change x) := by
  obtain ⟨hid, hslot⟩ := h
  have hlog (event event' : Event) : (e.log ++ [event] ++ [event']).Perm
      (e.log ++ [event'] ++ [event]) := by
    rw [List.append_assoc, List.append_assoc]
    exact (List.Perm.swap ..).append_left _
  cases x with
  | ended id t r event =>
    cases y with
    | ended id' t' r' event' => exact { Reordered.refl e with
        tasks := Table.erase_comm ..
        registry := Registry.deregister_comm ..
        parents := Table.erase_comm ..
        results := Results.record_comm _ hslot ..
        log := hlog .. }
    | delayed id' t' delay' event' => exact { Reordered.refl e with
        tasks := (Table.erase_insert_other _ hid.symm _).symm
        registry := rfl
        parents := rfl
        results := rfl
        armed := fun _ => rfl
        timers := .refl _
        log := hlog .. }
  | delayed id t delay event =>
    cases y with
    | ended id' t' r' event' => exact { Reordered.refl e with
        tasks := Table.erase_insert_other _ hid _
        registry := rfl
        parents := rfl
        results := rfl
        armed := fun _ => rfl
        timers := .refl _
        log := hlog .. }
    | delayed id' t' delay' event' => exact { Reordered.refl e with
        tasks := Table.insert_comm _ hid ..
        armed := fun q => by
          simp only [change, Table.get?_insert]
          split <;> split <;> rfl
        timers := e.timers.schedule_comm ..
        log := hlog .. }

/-- changes to instances that are all different may be made in any order -/
theorem changeAll_perm {xs ys : List Change} (hp : xs.Perm ys) (e : Engine γ)
    (h : xs.Pairwise Change.Apart) : (e.changeAll xs).Reordered (e.changeAll ys) := by
  induction hp generalizing e with
  | nil => exact .refl e
  | cons x hp ih => exact ih (e.change x) (List.pairwise_cons.1 h).2
  | swap x y rest =>
    have hxy := (List.pairwise_cons.1 h).1 x List.mem_cons_self
    exact (e.change_comm hxy).changeAll rest
  | trans hp hp' ih ih' => exact (ih e h).trans (ih' e (h.perm hp Change.Apart.symm))

variable [Gateway γ]

/-- Two messages for different entities may be delivered in either order: each is delivered or dropped
as it is in the other order, and the engines that they lead to are the same but for the order of
events and the numbers of timers. -/
theorem deliveries_commute (gateway : γ) (ids : IdSource) (config : EngineConfig)
    (history : List Operation) {m m' : PeerMessage} (hne : m.entity ≠ m'.entity) :
    let e := (Engine.new gateway ids config).after history
    let first := e.handleMessage m
    let first' := e.handleMessage m'
    let second := first.2.handleMessage m'
    let second' := first'.2.handleMessage m
    first.1 = second'.1 ∧ second.1 = first'.1 ∧ second.2.Reordered second'.2 ∧
      second.2.timers.deadlines.Perm second'.2.timers.deadlines := by
  intro e first first' second second'
  have hs : e.Steady := steady_after gateway ids config history
  have ha : e.Attached := attached_after gateway ids config history
  have hafter (m : PeerMessage) : (e.handleMessage m).2.Steady ∧ (e.handleMessage m).2.Attached := by
    have heq : (Engine.new gateway ids config).after (history ++ [.message m]) =
        (e.handleMessage m).2 := after_append ..
    exact heq ▸ ⟨steady_after .., attached_after ..⟩
  obtain ⟨xs, hx⟩ := hs.exists_delivery m
  obtain ⟨ys, hy⟩ := hs.exists_delivery m'
  have hfirst : first = ((e.recipient? m).isSome, e.changeAll xs) := hx.handleMessage_eq hs ha
  have hfirst' : first' = ((e.recipient? m').isSome, e.changeAll ys) := hy.handleMessage_eq hs ha
  obtain ⟨hs₁, ha₁⟩ := hafter m
  obtain ⟨hs₂, ha₂⟩ := hafter m'
  rw [show e.handleMessage m = _ from hfirst] at hs₁ ha₁
  rw [show e.handleMessage m' = _ from hfirst'] at hs₂ ha₂
  -- either message comes to the same changes after the other
  have hsecond : second = ((e.recipient? m').isSome, e.changeAll (xs ++ ys)) := by
    have hy' := hy.after_other hs.coherent hx hs₁.coherent hne.symm
    rw [changeAll_append, ← hx.recipient?_eq hs.coherent hs₁.coherent hne.symm]
    exact (congrArg (fun p => p.2.handleMessage m') hfirst).trans (hy'.handleMessage_eq hs₁ ha₁)
  have hsecond' : second' = ((e.recipient? m).isSome, e.changeAll (ys ++ xs)) := by
    have hx' := hx.after_other hs.coherent hy hs₂.coherent hne
    rw [changeAll_append, ← hy.recipient?_eq hs.coherent hs₂.coherent hne]
    exact (congrArg (fun p => p.2.handleMessage m) hfirst').trans (hx'.handleMessage_eq hs₂ ha₂)
  have happ : (xs ++ ys).Pairwise Change.Apart := by
    refine List.pairwise_append.2 ⟨hx.pairwise hs.coherent, hy.pairwise hs.coherent, ?_⟩
    exact fun x hxx y hyy => hx.apart hs.coherent hy hne hxx hyy
  have hsame : second.2.Reordered second'.2 := by
    rw [hsecond, hsecond']
    exact changeAll_perm List.perm_append_comm e happ
  exact ⟨by rw [hfirst, hsecond'], by rw [hsecond, hfirst'], hsame, hsame.timers.deadlines⟩

/-- The reply to a setup also ends a connection registered under the other entity, whose setup is sent
into a backoff. -/
theorem deliveries_commute_connect :
    let request (amf : String) : ProcedureRequest NgSetupRequest :=
      ⟨⟨amf⟩, ⟨⟨"00101", 411, 22⟩, none, [⟨7, ["00101"]⟩], .v128⟩, 1⟩
    let e := (Engine.new (⟨⟩ : NoGateway) .sequential {}).after
      [.connect ⟨"amf-2"⟩ (request "amf-1"), .setup (request "amf-2")]
    let m : PeerMessage := ⟨⟨"amf-1"⟩, .ngSetupResponse ⟨"core", 255, ["00101"]⟩⟩
    let m' : PeerMessage := ⟨⟨"amf-2"⟩, .ngSetupFailure ⟨⟨.misc, "overload"⟩, some .s1⟩⟩
    let first := e.handleMessage m
    let first' := e.handleMessage m'
    let second := first.2.handleMessage m'
    let second' := first'.2.handleMessage m
    m.entity ≠ m'.entity ∧ e.registry.ids m'.entity = [⟨"proc-2"⟩, ⟨"proc-3"⟩] ∧
      first.2.registry.ids m'.entity = [⟨"proc-3"⟩] ∧
      first.1 = second'.1 ∧ second.1 = first'.1 ∧ second.2.Reordered second'.2 ∧
      second.2.timers.deadlines.Perm second'.2.timers.deadlines := by
  intro request e m m' first first' second second'
  have hne : m.entity ≠ m'.entity := by decide
  obtain ⟨hfirst, hsecond, hsame, -⟩ := deliveries_commute (⟨⟩ : NoGateway) .sequential {}
    [.connect ⟨"amf-2"⟩ (request "amf-1"), .setup (request "amf-2")] hne
  replace hsame : second.2.Reordered second'.2 := hsame
  exact ⟨hne, by decide +kernel, by decide +kernel, hfirst, hsecond, hsame, hsame.timers.deadlines⟩

end Engine

end NgapProcedures
