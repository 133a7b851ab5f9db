import NgapProcedures.Proofs.Engine.Frame
import NgapProcedures.Proofs.Engine.Lifecycle
import NgapProcedures.Proofs.Engine.Speakers

/-! Instances that are gone for good. A cancellation ends an instance at once, and the setup or the
connection that goes with it; a removal drops the instances of an entity without a word. Either way
nothing of them is left when the operation returns, and whatever comes after, they send nothing and
tell nothing, and what their handles read stays as it is. -/

namespace NgapProcedures.Engine

variable {γ : Type}

/-- whatever is told of the name begins with a launch -/
def Unspoken (id : ProcedureId) (events : List Event) : Prop :=
  ∀ event, (told id events).head? = some event →
    ∃ kind entity, event = .procedureLaunched id kind entity

def Deserted (e : Engine γ) (entity : EntityId) : Prop :=
  ∀ q u, e.tasks.get? q = some u → u.machine.entity ≠ entity

theorem Steady.deserted_remove {e : Engine γ} (hs : e.Steady) (entity : EntityId) :
    (e.remove entity).2.Deserted entity := by
  intro q u hu he
  obtain ⟨hu, hout⟩ := (hs.coherent.without_remove entity).1.tasks.1 hu
  exact hout (hs.coherent.registered.2 ⟨u, hu, he⟩)

theorem Vacant.retired {e : Engine γ} {slot : Nat} {result : Option Result} (h : e.Vacant slot result) :
    e.Retired slot :=
  ⟨h.issued, h.unoccupied⟩

variable [Gateway γ]

/-- Nobody goes by the name, it is registered nowhere and has no timer. Whatever comes, the handle of
the instance reads the same and nobody gets its slot, it sends nothing and tells nothing, and nothing
is told of its name until that is given out again. -/
structure Departed (e : Engine γ) (h : Handle) (result : Option Result) : Prop where
  unknown : e.tasks.get? h.id = none
  unregistered : ∀ entity, h.id ∉ e.registry.ids entity
  unarmed : e.armed.get? h.id = none
  result : ∀ future, (e.after future).result? h = result
  unoccupied : ∀ future, (e.after future).Unknown h
  unsent : ∀ future, sentBy h.slot (e.sendsDuring future) = []
  untold : ∀ future, toldBy h.slot (e.tellsDuring future) = []
  unspoken : ∀ future, Unspoken h.id (e.loggedDuring future)

structure Departs (e e' : Engine γ) (id : ProcedureId) (t : Task) (result : Option Result) : Prop
    extends e'.Departed ⟨id, t.slot⟩ result where
  released : ∀ k, e.armed.get? id = some k → e'.timers.isPending k = false

section

variable {e e' : Engine γ} {id : ProcedureId} {t : Task}

/-- Nothing is told of a name that nobody has before it is given out. -/
theorem Steady.unspoken (hs : e.Steady) (hn : e.tasks.get? id = none) (future : List Operation) :
    Unspoken id (e.loggedDuring future) := by
  rw [loggedDuring_spelled]
  refine hs.spelled_induction (P := fun e ops => e.tasks.get? id = none →
    Unspoken id (e.loggedDuring ops)) (fun _ _ event hm => ?_)
    (fun {e op rest} hs hop _ ih hn event hm => ?_) future hn
  · simp [loggedDuring, told] at hm
  · have hb := hs.becomes_step hop id
    rw [loggedDuring, told_append] at hm
    rw [hn] at hb
    generalize told id (e.logged op) = events at hb hm
    cases hb with
    | absent hn' => exact ih hn' event hm
    | launched hu rest => exact ⟨_, _, (Option.some.inj hm).symm⟩
    | undone hn' kind entity rest => exact ⟨_, _, (Option.some.inj hm).symm⟩

/-- Whoever is not there any more has gone for good. -/
theorem Steady.departs (hs : e.Steady) (hs' : e'.Steady) {gone : ProcedureId → Prop}
    (hw : e.Without e' gone) (ht : e.tasks.get? id = some t) (hn : e'.tasks.get? id = none) :
    e.Departs e' id t (e'.results.get? t.slot) := by
  have hg : gone id := by
    by_contra hg
    have := hw.tasks.2 ⟨ht, hg⟩
    simp [hn] at this
  have hv := hs.coherent.vacant hw ht hg
  constructor
  case released =>
    intro k hk
    exact Bool.eq_false_iff.2 fun hpending => (hw.live.1 hpending).2 id hg hk
  case toDeparted =>
    exact {
      unknown := hn
      unregistered := hs'.coherent.unregistered hn
      unarmed := Option.eq_none_iff_forall_ne_some.2 fun k hk => (hw.armed.1 hk).2 hg
      result := fun future => (hv.after hs' future).1.result
      unoccupied := fun future => (hv.after hs' future).1.unknown
      unsent := fun future => (hv.after hs' future).2
      untold := fun future => (hv.retired.after future).2
      unspoken := hs'.unspoken hn }

end

section

variable {e : Engine γ} {id q : ProcedureId} {t u : Task} {c : AmfConnection} {slot slot' : Nat}

theorem Steady.departs_cancel (hs : e.Steady) (hu : e.tasks.get? q = some u)
    (hn : (e.cancel id).2.tasks.get? q = none) :
    e.Departs (e.cancel id).2 q u ((e.cancel id).2.results.get? u.slot) := by
  rcases hs.coherent.cancel_cases hs.quiet id with ⟨he, -⟩ | ⟨gone, e', he, hsettled, -⟩
  · simp [he, hu] at hn
  · have hs' : (e.cancel id).2.Steady := hs.after [.cancel id]
    rw [he] at hn hs' ⊢
    exact hs.departs hs' hsettled.toWithout hu hn

theorem Steady.departs_cancelled (hs : e.Steady) (ht : e.tasks.get? id = some t) :
    e.Departs (e.cancel id).2 id t (some t.machine.cancellation) := by
  obtain ⟨hn, hresult⟩ := hs.coherent.cancelled hs.quiet ht
  exact hresult ▸ hs.departs_cancel ht hn

/-- the setup that a cancelled connection launched is cancelled too -/
theorem Joined.departs_setup (h : e.Joined c slot slot') (hs : e.Steady)
    (ht : e.tasks.get? c.setup = some t) :
    e.Departs (e.cancel c.id).2 c.setup t (some (.setup .cancelled)) := by
  obtain ⟨u, hu, rfl, hk, -⟩ := h.setup
  obtain rfl := Option.some.inj (hu.symm.trans ht)
  have hne := hs.coherent.apart_of_parent h.connection h.parent
  have hclose := hs.coherent.without_close h.connection (.connection .cancelled)
    (.procedureCancelled c.id) [(c.setup, .cancel)]
  have hsetup := hclose.tasks.2 ⟨ht, hne.symm⟩
  have he : (e.cancel c.id).2 = _ :=
    (congrArg Prod.snd (hs.coherent.cancel_eq hs.quiet h.connection)).trans
      (hs.coherent.run_close_connection hs.quiet ht hk h.connection h.parent)
  have hn : (e.cancel c.id).2.tasks.get? c.setup = none := by
    rw [he]
    exact Table.get?_erase_self ..
  have hresult : (e.cancel c.id).2.results.get? u.slot = some (.setup .cancelled) := by
    rw [he]
    exact ((hs.coherent.without hclose).wakes []).result_close hsetup _
      (.procedureCancelled c.setup) []
  exact hresult ▸ hs.departs_cancel ht hn

/-- the connection that launched a cancelled setup fails -/
theorem Joined.departs_connection (h : e.Joined c slot slot') (hs : e.Steady) :
    e.Departs (e.cancel c.setup).2 c.id ⟨.connection c slot, slot'⟩
      (some (.connection (.failure .setupCancelled))) := by
  obtain ⟨t, ht, rfl, hk, -⟩ := h.setup
  obtain ⟨p, hm⟩ := Machine.eq_setup_of_kind hk
  have hcancel : t.machine.cancellation = .setup .cancelled ∧ t.machine.followUps = [] := by
    rw [hm]
    exact ⟨rfl, rfl⟩
  have hne := hs.coherent.apart_of_parent h.connection h.parent
  have hclose := hs.coherent.without_close ht (.setup .cancelled)
    (.procedureCancelled t.machine.id) []
  have hconnection := hclose.tasks.2 ⟨h.connection, hne⟩
  have he := congrArg Prod.snd (hs.coherent.cancel_eq hs.quiet ht)
  rw [hcancel.1, hcancel.2, hs.coherent.run_close_setup hs.quiet ht h.connection h.parent] at he
  have hn : (e.cancel c.setup).2.tasks.get? c.id = none := by
    rw [he]
    exact Table.get?_erase_self ..
  have hresult : (e.cancel c.setup).2.results.get? slot' =
      some (.connection (.failure .setupCancelled)) := by
    rw [he]
    exact ((hs.coherent.without hclose).wakes []).result_close hconnection _
      (AmfConnection.announcement c.amf .cancelled) []
  exact hresult ▸ hs.departs_cancel h.connection hn

end

/-- A cancellation is done when it returns. It finds exactly the live procedures, and leaves the engine
as it is if there is none by the name. The procedure is gone for good, cancelled, and so is the setup
that it launched, if that is live; the connection that launched it, if that is live, is gone and has
failed. Nothing is sent, and a second cancellation finds nobody. -/
theorem cancel_complete (gateway : γ) (ids : IdSource) (config : EngineConfig)
    (history : List Operation) (id : ProcedureId) :
    let e := (Engine.new gateway ids config).after history
    let e' := (e.cancel id).2
    (e.cancel id).1 = e.isLive id ∧
    (e.isLive id = true ↔ ∃ t, e.tasks.get? id = some t) ∧
    (e.isLive id = false → e' = e) ∧
    e'.gateway = e.gateway ∧ e.sends (.cancel id) = [] ∧
    e'.cancel id = (false, e') ∧
    ∀ t, e.tasks.get? id = some t →
      e.Departs e' id t (some t.machine.cancellation) ∧
      (∀ c slot v, t.machine = .connection c slot →
        e.tasks.get? c.setup = some v → v.slot = slot →
        e.Departs e' c.setup v (some (.setup .cancelled))) ∧
      ∀ q c slot', e.tasks.get? q = some ⟨.connection c t.slot, slot'⟩ →
        e.Departs e' q ⟨.connection c t.slot, slot'⟩
          (some (.connection (.failure .setupCancelled))) := by
  intro e e'
  have hstart : (Engine.new gateway ids config).Steady := steady_new gateway ids config
  have hs : e.Steady := hstart.after history
  have htied := tied_new gateway ids config history
  have hsent : e.sends (.cancel id) = [] := (cancelSends_eq_nil hs.quiet id).2
  have hgateway : e'.gateway = e.gateway := by
    refine (e.gateway_step (.cancel id)).trans ?_
    rw [hsent]
    rfl
  have hfound : (e.cancel id).1 = e.isLive id ∧ (e.isLive id = false → e' = e) := by
    refine ⟨?_, fun hdead => ?_⟩
    · unfold cancel
      split <;> simp_all
    · simp [e', cancel, hdead]
  have hgone : e'.tasks.get? id = none := by
    rcases hs.coherent.cancel_cases hs.quiet id with ⟨he, hn⟩ | ⟨gone, e₁, he, hsettled, hg, -⟩
    · exact (congrArg (·.2.tasks.get? id) he).trans hn
    · exact Option.eq_none_iff_forall_ne_some.2 fun u hu =>
        (hsettled.tasks.1 ((congrArg (·.2.tasks.get? id) he).symm.trans hu)).2 hg
  refine ⟨hfound.1, hs.coherent.isLive_iff, hfound.2, hgateway, hsent, cancel_unknown hgone,
    fun t ht => ⟨hs.departs_cancelled ht, fun c slot v hm hv hslot => ?_, fun q c slot' hq => ?_⟩⟩
  · obtain ⟨machine, slot'⟩ := t
    subst hm hslot
    obtain rfl : c.id = id := hs.coherent.named ht
    have hj := (htied.connection_cases hstart ht).resolve_right fun h => h.1.unoccupied hv rfl
    exact hj.departs_setup hs hv
  · obtain rfl : c.id = q := hs.coherent.named hq
    have hj := (htied.connection_cases hstart hq).resolve_right fun h => h.1.unoccupied ht rfl
    obtain ⟨v, hv, hslot, -⟩ := hj.setup
    obtain rfl : c.setup = id := hs.coherent.apart hv ht hslot
    exact hj.departs_connection hs

/-- a connection that is cancelled takes its setup with it, and the other way round -/
theorem cancel_complete_connect :
    let e := (Engine.new (⟨⟩ : NoGateway) .sequential {}).after [.connect ⟨"ngc"⟩
      ⟨⟨"amf-1"⟩, ⟨⟨"00101", 411, 22⟩, none, [⟨7, ["00101"]⟩], .v128⟩, 1⟩]
    ∃ s c, e.tasks.get? ⟨"proc-1"⟩ = some s ∧ e.tasks.get? ⟨"proc-2"⟩ = some c ∧
      e.Departs (e.cancel ⟨"proc-2"⟩).2 ⟨"proc-1"⟩ s (some (.setup .cancelled)) ∧
      e.Departs (e.cancel ⟨"proc-1"⟩).2 ⟨"proc-2"⟩ c
        (some (.connection (.failure .setupCancelled))) := by
  intro e
  have hconnection : e.tasks.get? ⟨"proc-2"⟩ = some
      ⟨.connection ⟨⟨"proc-2"⟩, ⟨"ngc"⟩, ⟨"amf-1"⟩, ⟨"proc-1"⟩, .awaitingSetup, none⟩ 0, 1⟩ := by
    decide +kernel
  have hsetup : (e.tasks.get? ⟨"proc-1"⟩).map (·.slot) = some 0 := by decide +kernel
  obtain ⟨s, hs, hslot⟩ := Option.map_eq_some_iff.1 hsetup
  obtain ⟨-, -, -, -, -, -, hfirst⟩ := cancel_complete (⟨⟩ : NoGateway) .sequential {} _ ⟨"proc-2"⟩
  obtain ⟨-, -, -, -, -, -, hsecond⟩ := cancel_complete (⟨⟩ : NoGateway) .sequential {} _ ⟨"proc-1"⟩
  have hfails := (hsecond s hs).2.2 _ _ 1 (hslot ▸ hconnection)
  rw [hslot] at hfails
  exact ⟨s, _, hs, hconnection, (hfirst _ hconnection).2.1 _ _ s rfl hs hslot, hfails⟩

section

variable {e : Engine γ} {id : ProcedureId} {t : Task} {entity : EntityId}

theorem Steady.departs_removed (hs : e.Steady) (hm : id ∈ e.registry.ids entity)
    (ht : e.tasks.get? id = some t) : e.Departs (e.remove entity).2 id t none := by
  obtain ⟨hw, hresults, -⟩ := hs.coherent.without_remove entity
  have hn : (e.remove entity).2.tasks.get? id = none :=
    Option.eq_none_iff_forall_ne_some.2 fun u hu => (hw.tasks.1 hu).2 hm
  have hs' : (e.remove entity).2.Steady := hs.after [.remove entity]
  have hd := hs.departs hs' hw ht hn
  rwa [hresults, (hs.coherent.slot ht).2] at hd

/-- only a launch brings somebody in -/
theorem Deserted.step (h : e.Deserted entity) (hs : e.Steady) {op : Operation}
    (hop : ∀ k, op ≠ .advanceBy k)
    (hnone : ∀ id kind, .procedureLaunched id kind entity ∉ e.logged op) :
    (e.step op).2.Deserted entity := by
  intro q u hu he
  have hb := hs.becomes_step hop q
  have hlogged {event : Event} (hm : event ∈ told q (e.logged op)) : event ∈ e.logged op :=
    List.mem_of_mem_filter hm
  generalize htold : told q (e.logged op) = events at hb hlogged
  generalize hq : e.tasks.get? q = o at hb
  cases hb with
  | absent hn => simp [hn] at hu
  | launched hv rest =>
    obtain rfl := Option.some.inj (hv.symm.trans hu)
    have hlaunch := hlogged List.mem_cons_self
    rw [he] at hlaunch
    exact hnone _ _ hlaunch
  | undone hn => simp [hn] at hu
  | kept _ ht =>
    obtain rfl := Option.some.inj (ht.symm.trans hu)
    exact h q _ hq he
  | @backedOff t _ r _ _ _ ht =>
    obtain rfl := Option.some.inj (ht.symm.trans hu)
    exact h q _ hq ((t.machine.static_backedOff r).2.1.symm.trans he)
  | @resent t _ _ _ ht =>
    obtain rfl := Option.some.inj (ht.symm.trans hu)
    exact h q _ hq (t.machine.static_resent.2.1.symm.trans he)
  | settled _ hn => simp [hn] at hu
  | removed _ hn => simp [hn] at hu

theorem Deserted.after (h : e.Deserted entity) (hs : e.Steady) (future : List Operation)
    (hnone : ∀ id kind, .procedureLaunched id kind entity ∉ e.loggedDuring future) :
    (e.after future).Deserted entity := by
  rw [after_spelled]
  rw [loggedDuring_spelled] at hnone
  refine hs.spelled_induction (P := fun e ops => e.Deserted entity →
    (∀ id kind, .procedureLaunched id kind entity ∉ e.loggedDuring ops) →
    (e.after ops).Deserted entity) (fun _ h _ => h)
    (fun {e op rest} hs hop _ ih h hnone => ?_) future h hnone
  have hfirst (id : ProcedureId) (kind : String) :
      .procedureLaunched id kind entity ∉ e.logged op :=
    fun hm => hnone id kind (List.mem_append_left _ hm)
  have hrest (id : ProcedureId) (kind : String) :
      .procedureLaunched id kind entity ∉ (e.step op).2.loggedDuring rest :=
    fun hm => hnone id kind (List.mem_append_right _ hm)
  exact ih (h.step hs hop hfirst) hrest

theorem Deserted.handleMessage {m : PeerMessage} (h : e.Deserted m.entity) (hc : e.Coherent []) :
    e.handleMessage m = (false, e) := by
  have hrecipient : e.recipient? m = none := by
    refine Option.eq_none_iff_forall_ne_some.2 fun q hq => ?_
    obtain ⟨u, hu, he, -⟩ := hc.of_recipient hq
    exact h q u hu he
  simp [Engine.handleMessage, hrecipient]

end

/-- A removal returns the instances of the entity, in ascending order, and they and the entity are gone
for good. Nothing is told or sent, and no handle reads anything else than before. Every other instance
is left as it is, with the tick at which its timer is due, as long as timer numbers fit in 64 bits.
Messages for the entity are dropped until something is launched under it. -/
theorem remove_silent_final_local (gateway : γ) (ids : IdSource) (config : EngineConfig)
    (history : List Operation) (entity : EntityId) :
    let e := (Engine.new gateway ids config).after history
    let (removed, e') := e.remove entity
    removed.Pairwise (fun a b => compare a b = .lt) ∧
    removed = e.registry.ids entity ∧
    (∀ id, id ∈ removed ↔ ∃ t, e.tasks.get? id = some t ∧ t.machine.entity = entity) ∧
    e'.registry.contains entity = false ∧
    (∀ id t, id ∈ removed → e.tasks.get? id = some t → e.Departs e' id t none) ∧
    (e'.log = e.log ∧ e.logged (.remove entity) = [] ∧
      e'.gateway = e.gateway ∧ e.sends (.remove entity) = [] ∧
      e'.results = e.results) ∧
    (∀ q u, q ∉ removed → e.tasks.get? q = some u → e.Spares e' q u ∧
      (messages history + 1 < 2 ^ 64 →
        ∀ k d, e'.timers.Waits ⟨k, q, d⟩ ↔ e.timers.Waits ⟨k, q, d⟩)) ∧
    ∀ future, (∀ id kind, .procedureLaunched id kind entity ∉ e'.loggedDuring future) →
      ∀ m, m.entity = entity → (e'.after future).handleMessage m = (false, e'.after future) := by
  intro e
  have hs : e.Steady := steady_after gateway ids config history
  have hs' : (e.remove entity).2.Steady := hs.after [.remove entity]
  obtain ⟨hw, hresults, -⟩ := hs.coherent.without_remove entity
  have hcontains : (e.remove entity).2.registry.contains entity = false := by
    refine Bool.eq_false_iff.2 fun hc => ?_
    obtain ⟨id, hm⟩ := hs'.coherent.inhabited.mem_entities_iff.1
      ((Table.mem_keys_iff _ _).2 ((Table.contains_iff _ _).1 hc))
    obtain ⟨t, ht, he⟩ := hs'.coherent.registered.1 hm
    exact hs.deserted_remove entity id t ht he
  have hlog : (e.remove entity).2.log = e.log := log_foldl_remove e [entity]
  have hlogged : e.logged (.remove entity) = [] :=
    logged_eq (by simp) (hlog.trans (List.append_nil _).symm)
  refine ⟨e.registry.ids_ascending entity, rfl, fun id => hs.coherent.registered, hcontains,
    fun id t hm ht => hs.departs_removed hm ht,
    ⟨hlog, hlogged, hw.gateway, rfl, hresults⟩, fun q u hm hu => ⟨hw.spares hs.coherent hu hm,
    fun hn k d => ?_⟩, fun future hnone m hm => ?_⟩
  · exact (timed_after gateway ids config history hn).1.waits_iff_without hw hm k d
  · subst hm
    exact ((hs.deserted_remove m.entity).after hs' future hnone).handleMessage
      (hs'.after future).coherent

/-- The setup of a connection is removed while it waits out a backoff. The connection stays as it is, and
once that has been cancelled too, a reply for the setup is dropped. -/
theorem remove_silent_final_local_backoff :
    let amf : EntityId := ⟨"amf-1"⟩
    let failure : PeerMessage := ⟨amf, .ngSetupFailure ⟨⟨.misc, "unspecified"⟩, some .s1⟩⟩
    let e := (Engine.new (⟨⟩ : NoGateway) .sequential {}).after [.connect ⟨"ngc"⟩
      ⟨amf, ⟨⟨"00101", 411, 22⟩, none, [⟨7, ["00101"]⟩], .v128⟩, 1⟩, .message failure]
    let e' := (e.remove amf).2
    ∃ s c, e.tasks.get? ⟨"proc-1"⟩ = some s ∧ s.machine.waitingFor = .timer ∧
      e.tasks.get? ⟨"proc-2"⟩ = some c ∧
      e.Departs e' ⟨"proc-1"⟩ s none ∧ e.Spares e' ⟨"proc-2"⟩ c ∧
      (e'.after [.cancel ⟨"proc-2"⟩]).handleMessage failure =
        (false, e'.after [.cancel ⟨"proc-2"⟩]) := by
  intro amf failure e e'
  have hsetup : (e.tasks.get? ⟨"proc-1"⟩).map (fun t => (t.machine.entity, t.machine.waitingFor)) =
      some (amf, .timer) := by decide +kernel
  have hconnection : (e.tasks.get? ⟨"proc-2"⟩).map (·.machine.entity) = some ⟨"ngc"⟩ := by
    decide +kernel
  obtain ⟨s, hs, hmachine⟩ := Option.map_eq_some_iff.1 hsetup
  obtain ⟨hentity, hwait⟩ := Prod.mk.inj hmachine
  obtain ⟨c, hc, hcontroller⟩ := Option.map_eq_some_iff.1 hconnection
  obtain ⟨-, -, hmem, -, hgone, -, hkept, hdropped⟩ :=
    remove_silent_final_local (⟨⟩ : NoGateway) .sequential {} [.connect ⟨"ngc"⟩
      ⟨amf, ⟨⟨"00101", 411, 22⟩, none, [⟨7, ["00101"]⟩], .v128⟩, 1⟩, .message failure] amf
  have hout : ⟨"proc-2"⟩ ∉ e.registry.ids amf := by
    intro hm
    obtain ⟨t, ht, he⟩ := (hmem _).1 hm
    obtain rfl := Option.some.inj (ht.symm.trans hc)
    rw [he] at hcontroller
    exact absurd hcontroller (by decide)
  have hlogged : e'.loggedDuring [.cancel ⟨"proc-2"⟩] = [.procedureCancelled ⟨"proc-2"⟩] := by
    decide +kernel
  refine ⟨s, c, hs, hwait, hc, hgone _ s ((hmem _).2 ⟨s, hs, hentity⟩) hs, (hkept _ c hout hc).1,
    hdropped [.cancel ⟨"proc-2"⟩] (fun id kind hm => ?_) failure rfl⟩
  have hm : .procedureLaunched id kind amf ∈ e'.loggedDuring [.cancel ⟨"proc-2"⟩] := hm
  simp [hlogged] at hm

end NgapProcedures.Engine
