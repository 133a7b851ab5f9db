import NgapProcedures.Proofs.Engine.Clock

/-! The request of a procedure. A live procedure has sent the request that it was launched with, and
whatever it has sent since was that request again. -/

namespace NgapProcedures.Engine

variable {γ : Type}

structure Faithful (e : Engine γ) (sent : List (Nat × PeerMessage)) : Prop where
  issued : ∀ {x}, x ∈ sent → x.1 < e.started
  faithful : ∀ {id t message}, e.tasks.get? id = some t →
    ((t.slot, message) ∈ sent ↔ t.machine.request? = some message)

/-- the task continues one of the engine's with its slot and its request -/
def Continues (e : Engine γ) (id : ProcedureId) (t : Task) : Prop :=
  ∃ u, e.tasks.get? id = some u ∧ u.slot = t.slot ∧ u.machine.request? = t.machine.request?

theorem faithful_new (gateway : γ) (ids : IdSource) (config : EngineConfig) :
    (Engine.new gateway ids config).Faithful [] where
  issued hx := by simp at hx
  faithful ht := by simp [Engine.new] at ht

variable [Gateway γ] {e e' : Engine γ} {op : Operation}

/-- after a move a task is an old one, or it has a new slot -/
theorem Steady.continues_move (hs : e.Steady) (hm : Move op e e') : e.started ≤ e'.started ∧
    ∀ {id t}, e'.tasks.get? id = some t → e.Continues id t ∨ e.started ≤ t.slot := by
  have hwithout {e' : Engine γ} {gone : ProcedureId → Prop} (hw : e.Without e' gone) :
      e.started ≤ e'.started ∧
        ∀ {id t}, e'.tasks.get? id = some t → e.Continues id t ∨ e.started ≤ t.slot :=
    ⟨Nat.le_of_eq hw.started.symm, fun ht => .inl ⟨_, (hw.tasks.1 ht).1, rfl, rfl⟩⟩
  cases hm with
  | named => exact ⟨Nat.le_refl _, fun ht => .inl ⟨_, ht, rfl, rfl⟩⟩
  | drained => exact ⟨Nat.le_refl _, fun ht => .inl ⟨_, ht, rfl, rfl⟩⟩
  | settled hd hw => exact hwithout hd.toWithout
  | @enrolled _ _ m registry hm =>
    refine ⟨Nat.le_succ _, fun {id t} ht => ?_⟩
    rcases get?_enroll_cases ht with ⟨-, rfl⟩ | ⟨-, ht⟩
    · exact .inr (Nat.le_refl _)
    · exact .inl ⟨t, ht, rfl, rfl⟩
  | linked ht hk c => exact ⟨Nat.le_refl _, fun ht => .inl ⟨_, ht, rfl, rfl⟩⟩
  | @backedOff m _ q u r delay hb =>
    obtain ⟨-, -, -, ha⟩ := hs.coherent.of_backs hb
    rw [backedOff, backOff_eq ha]
    refine ⟨Nat.le_refl _, fun {id t} ht => ?_⟩
    rcases Table.get?_insert_eq_some_iff.1 ht with ⟨rfl, rfl⟩ | ⟨-, ht⟩
    · exact .inl ⟨u, hb.task, rfl, (Machine.request?_backedOff ..).symm⟩
    · exact .inl ⟨t, ht, rfl, rfl⟩
  | removed _ entity => exact hwithout (hs.coherent.without_remove entity).1
  | tornDown ht => exact hwithout (ht.without hs.coherent)
  | advanced =>
    obtain ⟨tasks, armed, he, -, htasks⟩ := hs.coherent.advance_spec hs.quiet
    rw [he]
    refine ⟨Nat.le_refl _, fun {id t} ht => ?_⟩
    have ht : tasks.get? id = some t := ht
    rw [htasks] at ht
    split at ht
    · obtain ⟨u, hu, rfl⟩ := Option.map_eq_some_iff.1 ht
      exact .inl ⟨u, hu, rfl, (Machine.request?_resent _).symm⟩
    · exact .inl ⟨t, ht, rfl, rfl⟩

theorem Steady.continues_moves (hs : e.Steady) (hm : Relation.ReflTransGen (Move op) e e') :
    e.started ≤ e'.started ∧
      ∀ {id t}, e'.tasks.get? id = some t → e.Continues id t ∨ e.started ≤ t.slot := by
  let P (e' : Engine γ) : Prop := e.started ≤ e'.started ∧
    ∀ {id t}, e'.tasks.get? id = some t → e.Continues id t ∨ e.started ≤ t.slot
  refine (hs.moves_induction (P := P) (fun a b ha hm hp => ?_)
    ⟨Nat.le_refl _, fun ht => .inl ⟨_, ht, rfl, rfl⟩⟩ hm).2
  obtain ⟨hle, hnew⟩ := ha.continues_move hm
  refine ⟨Nat.le_trans hp.1 hle, fun ht => ?_⟩
  rcases hnew ht with ⟨u, hu, hslot, hreq⟩ | hge
  · rcases hp.2 hu with ⟨v, hv, hslot', hreq'⟩ | hge
    · exact .inl ⟨v, hv, hslot'.trans hslot, hreq'.trans hreq⟩
    · exact .inr (hslot ▸ hge)
  · exact .inr (Nat.le_trans hp.1 hge)

/-- What a launch comes to: nothing is sent and nobody is new, or the instance in the next free slot
sends its request, and whoever else is new has none. -/
def Adds (e : Engine γ) (sent : List (Nat × PeerMessage)) (e' : Engine γ) : Prop :=
  (sent = [] ∧ ∀ {id t}, e'.tasks.get? id = some t → e.tasks.get? id = some t) ∨
  ∃ m : Machine, sent = m.request?.toList.map (e.started, ·) ∧ e.started < e'.started ∧
    ∀ {id t}, e'.tasks.get? id = some t → e.tasks.get? id = some t ∨
      t = ⟨m.launched, e.started⟩ ∨ t.machine.request? = none ∧ e.started < t.slot

theorem Steady.adds_launchRetry (hs : e.Steady) {entity : EntityId} {kind : Kind}
    {machine : ProcedureId → Machine} (hf : ∀ id, (machine id).Fresh ∧ (machine id).id = id ∧
      (machine id).entity = entity ∧ (machine id).kind = kind) :
    e.Adds (e.launchRetrySends entity kind machine) (e.launchRetry entity kind machine).2 := by
  rw [launchRetrySends_eq hs.quiet fun id => (hf id).1]
  rcases launchRetry_cases hs.quiet hf with ⟨error, he⟩ | ⟨registry, -, he⟩
  · rw [he]
    exact .inl ⟨rfl, id⟩
  · rw [he]
    exact .inr ⟨_, rfl, Nat.lt_succ_self _, fun ht =>
      (get?_enroll_cases ht).symm.imp And.right fun h => .inl h.2⟩

theorem Steady.adds_launchConnection (hs : e.Steady) (controller : EntityId)
    (request : ProcedureRequest NgSetupRequest) :
    e.Adds (e.launchConnectionSends controller request)
      (e.launchConnection controller request).2 := by
  have hsends := launchSetupSends_eq hs.quiet request
  rw [hs.launchConnectionSends_eq]
  rcases launchConnection_cases hs.coherent hs.quiet controller request with
    ⟨error, ids, he, hrefused⟩ | ⟨registry, hm, hi, hok, hrest⟩
  · rw [he]
    refine .inl ⟨?_, id⟩
    cases hi : e.isActive controller .amfConnection with
    | true => rfl
    | false => simp [hsends, hrefused hi]
  · have hsetup {id : ProcedureId} {t : Task}
        (ht : (e.enrollSetup request registry).tasks.get? id = some t) :
        e.tasks.get? id = some t ∨
          t = ⟨(Machine.setup (.new e.ids.draw.1 request)).launched, e.started⟩ :=
      (get?_enroll_cases ht).symm.imp And.right And.right
    rw [hi, hsends, hok]
    refine .inr ⟨_, rfl, ?_⟩
    have hdraw : Move .drainEvents (e.enrollSetup request registry) _ :=
      .named _ (e.enrollSetup request registry).ids.draw.2
    have hs₁ := (hs.moves (moves_enrollSetup hm .drainEvents)).move hdraw
    rcases hrest with ⟨error, he⟩ | ⟨registry', -, he⟩
    · rw [he]
      rcases hs₁.coherent.cancel_cases hs₁.quiet e.ids.draw.1 with
        ⟨hc, -⟩ | ⟨gone, e', hc, hd, -⟩
      · rw [hc]
        exact ⟨Nat.lt_succ_self _, fun ht => (hsetup ht).imp_right .inl⟩
      · rw [hc, hd.started]
        exact ⟨Nat.lt_succ_self _, fun ht => (hsetup (hd.tasks.1 ht).1).imp_right .inl⟩
    · rw [he]
      refine ⟨Nat.lt_succ_of_lt (Nat.lt_succ_self _), fun ht => ?_⟩
      rcases get?_enroll_cases ht with ⟨-, rfl⟩ | ⟨-, ht⟩
      · exact .inr (.inr ⟨rfl, Nat.lt_succ_self _⟩)
      · exact (hsetup ht).imp_right .inl

/-- An operation other than a launch starts nobody, and only a tick makes somebody send. -/
theorem Steady.adds_or_started (hs : e.Steady) (hop : ∀ k, op ≠ .advanceBy k) :
    e.Adds (e.sends op) (e.step op).2 ∨
      (e.step op).2.started = e.started ∧ (e.sends op = [] ∨ op = .advance) := by
  cases op with
  | setup request => exact .inl (hs.adds_launchRetry fun id =>
      ⟨Machine.fresh_setup id request, rfl, rfl, rfl⟩)
  | update request => exact .inl (hs.adds_launchRetry fun id =>
      ⟨Machine.fresh_update id request, rfl, rfl, rfl⟩)
  | connect controller request => exact .inl (hs.adds_launchConnection controller request)
  | message m =>
    refine .inr ⟨?_, .inl (handleMessageSends_eq_nil hs.quiet m)⟩
    rcases hs.coherent.handleMessage_cases hs.quiet m with
      he | ⟨gone, e', he, hd, -⟩ | ⟨id, t, r, delay, hb⟩
    · simp only [step, he]
    · simp only [step, he, hd.started]
    · obtain ⟨-, -, -, ha⟩ := hs.coherent.of_backs hb
      simp only [step, hs.coherent.handleMessage_backs hs.quiet hb]
      rw [backedOff, backOff_eq ha]
  | advance =>
    obtain ⟨tasks, armed, he, -⟩ := hs.coherent.advance_spec hs.quiet
    exact .inr ⟨by simp only [step, he], .inr rfl⟩
  | advanceBy k => exact absurd rfl (hop k)
  | cancel id =>
    refine .inr ⟨?_, .inl (cancelSends_eq_nil hs.quiet id).2⟩
    rcases hs.coherent.cancel_cases hs.quiet id with ⟨he, -⟩ | ⟨gone, e', he, hd, -⟩
    · simp only [step, he]
    · simp only [step, he, hd.started]
  | remove entity => exact .inr ⟨(hs.coherent.without_remove entity).1.started, .inl rfl⟩
  | transportLost =>
    obtain ⟨-, gone, ht⟩ := hs.coherent.tornDown hs.quiet
    exact .inr ⟨(ht.without hs.coherent).started, .inl (sends_transportLost hs.quiet)⟩
  | drainEvents => exact .inr ⟨rfl, .inl rfl⟩

/-- Whoever is told to send again repeats its request. -/
theorem Faithful.step {sent : List (Nat × PeerMessage)} (h : e.Faithful sent) (hs : e.Steady)
    (hop : ∀ k, op ≠ .advanceBy k) : (e.step op).2.Faithful (sent ++ e.sends op) := by
  obtain ⟨hle, hnew⟩ := hs.continues_moves (hs.moves_step hop)
  have hs' := hs.moves (hs.moves_step hop)
  have hadds := hs.adds_or_started hop
  -- a sender is new, or known with its request
  have hsender {x : Nat × PeerMessage} (hx : x ∈ e.sends op) : x.1 = e.started ∨
      ∃ id t, e.tasks.get? id = some t ∧ t.slot = x.1 ∧ t.machine.request? = some x.2 :=
    (hs.mem_sends hop hx).imp_right fun ⟨_, hdue⟩ =>
      (mem_requests_iff.1 hdue).imp fun _ h => h.2
  constructor
  · intro x hx
    rcases List.mem_append.1 hx with hx | hx
    · exact Nat.lt_of_lt_of_le (h.issued hx) hle
    · rcases hadds with (⟨hnil, -⟩ | ⟨m, hsent, hlt, -⟩) | ⟨-, hnil | rfl⟩
      · simp [hnil] at hx
      · rw [hsent] at hx
        obtain ⟨message, -, rfl⟩ := List.mem_map.1 hx
        exact hlt
      · simp [hnil] at hx
      · have hx : x ∈ e.advanceSends := hx
        rw [hs.advanceSends_eq] at hx
        obtain ⟨id, -, t, ht, hslot, -⟩ := mem_requests_iff.1 hx
        exact hslot ▸ Nat.lt_of_lt_of_le (hs.coherent.slot ht).1 hle
  · intro id t message ht
    rw [List.mem_append]
    rcases hnew ht with ⟨u, hu, hslot, hreq⟩ | hge
    · rw [← hslot, ← hreq, h.faithful hu, or_iff_left_of_imp]
      intro hx
      rcases hsender hx with he | ⟨q, v, hv, hslot', hm⟩
      · exact absurd he (Nat.ne_of_lt (hs.coherent.slot hu).1)
      · obtain rfl := hs.coherent.apart hv hu hslot'
        rw [hu] at hv
        rw [Option.some.inj hv, hm]
    · have hold : ¬e.tasks.get? id = some t := fun hu =>
        Nat.not_lt.2 hge (hs.coherent.slot hu).1
      rw [or_iff_right fun hx => Nat.not_lt.2 hge (h.issued hx)]
      rcases hadds with (⟨-, hall⟩ | ⟨m, hsent, -, hall⟩) | ⟨hsame, -⟩
      · exact absurd (hall ht) hold
      · rw [hsent]
        rcases hall ht with hu | rfl | ⟨hnone, hlt⟩
        · exact absurd hu hold
        · simp [Machine.request?_launched]
        · simp [hnone, Nat.ne_of_lt hlt]
      · have := (hs'.coherent.slot ht).1
        omega

theorem Faithful.after {e : Engine γ} {sent : List (Nat × PeerMessage)} (h : e.Faithful sent)
    (hs : e.Steady) (history : List Operation) :
    (e.after history).Faithful (sent ++ e.sendsDuring history) := by
  rw [after_spelled, sendsDuring_spelled]
  refine hs.spelled_induction (P := fun e ops => ∀ sent, e.Faithful sent →
    (e.after ops).Faithful (sent ++ e.sendsDuring ops)) (fun _ sent h => ?_)
    (fun {e op rest} hs hop _ ih sent h => ?_) history sent h
  · exact (List.append_nil sent).symm ▸ h
  · have hsends : e.sendsDuring (op :: rest) = e.sends op ++ (e.step op).2.sendsDuring rest := rfl
    rw [hsends, ← List.append_assoc]
    exact ih _ (h.step hs hop)

theorem faithful_after (gateway : γ) (ids : IdSource) (config : EngineConfig)
    (history : List Operation) : ((Engine.new gateway ids config).after history).Faithful
      ((Engine.new gateway ids config).sendsDuring history) :=
  (faithful_new gateway ids config).after (steady_new gateway ids config) history

end NgapProcedures.Engine
