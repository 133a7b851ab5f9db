import NgapProcedures.Proofs.Engine.Clock
import NgapProcedures.Proofs.Engine.Carries

/-! A setup and the connection that waits for it settle together. As long as no entity is removed,
the operation that ends one of the two ends both, and their outcomes agree: the connection tells
what became of the setup, unless it was cancelled itself, and then so was the setup. -/

namespace NgapProcedures.Engine

variable {γ : Type}

structure Matched (e : Engine γ) : Prop where
  connection : ∀ {q c slot slot'}, e.tasks.get? q = some ⟨.connection c slot, slot'⟩ →
    e.Joined c slot slot'
  parent : ∀ {s q}, e.parents.get? s = some q →
    ∃ c slot slot', e.Joined c slot slot' ∧ c.setup = s ∧ c.id = q

structure Agreed (op : Operation) (c s : ProcedureId) (outcome : ConnectionOutcome)
    (setup : RetryOutcome NgSetupResponse) : Prop where
  success : ∀ name, outcome = .success name ↔
    ∃ response, setup = .success response ∧ response.amfName = name
  failure : ∀ f, outcome = .failure (.setup f) ↔ setup = .failure f
  setupCancelled : outcome = .failure .setupCancelled ↔ op = .cancel s
  cancelled : outcome = .cancelled ↔ op = .cancel c ∨ op = .transportLost
  both : outcome = .cancelled → setup = .cancelled

/-- nothing that was logged on the way tells the fate of the AMF -/
def Unannounced (amf : EntityId) (e e' : Engine γ) : Prop :=
  ∃ events, e'.log = e.log ++ events ∧ ∀ event ∈ events, event.announced? ≠ some amf

structure EndsBoth (op : Operation) (e e' : Engine γ) (c : AmfConnection) (slot slot' : Nat) :
    Prop where
  without : ∃ gone, e.Without e' gone
  setup : e'.tasks.get? c.setup = none
  connection : e'.tasks.get? c.id = none
  outcomes : ∃ outcome setup, e'.results.get? slot' = some (.connection outcome) ∧
    e'.results.get? slot = some (.setup setup) ∧ Agreed op c.id c.setup outcome setup ∧
    (outcome = .cancelled → Unannounced c.amf e e')

theorem Agreed.of_setup {op : Operation} {c s : ProcedureId}
    {setup : RetryOutcome NgSetupResponse} (hs : setup = .cancelled ↔ op = .cancel s)
    (hc : op ≠ .cancel c) (hlost : op ≠ .transportLost) :
    Agreed op c s (AmfConnection.outcomeOf setup) setup := by
  cases setup <;> constructor <;> simp_all [AmfConnection.outcomeOf]

theorem Agreed.of_cancelled {op : Operation} {c s : ProcedureId} (hs : op ≠ .cancel s)
    (hc : op = .cancel c ∨ op = .transportLost) : Agreed op c s .cancelled .cancelled := by
  constructor <;> simp_all

section

variable {op : Operation} {e e' e'' : Engine γ} {c : AmfConnection} {slot slot' : Nat}
  {amf : EntityId}

theorem Unannounced.refl (amf : EntityId) (e : Engine γ) : Unannounced amf e e :=
  ⟨[], by simp, by simp⟩

theorem Unannounced.trans (h : Unannounced amf e e') (h' : Unannounced amf e' e'') :
    Unannounced amf e e'' := by
  obtain ⟨a, ha, hna⟩ := h
  obtain ⟨b, hb, hnb⟩ := h'
  refine ⟨a ++ b, by rw [hb, ha, List.append_assoc], fun event hm => ?_⟩
  exact (List.mem_append.1 hm).elim (hna event) (hnb event)

theorem Closes.of_retry {t : Task} {r : Result} {event : Event} {ws : List (ProcedureId × Wake)}
    (h : e.Closes t r event ws) (hk : t.machine.kind ≠ .amfConnection) :
    ws = [] ∧ event.announced? = none := by
  cases h with
  | cancelled =>
    refine ⟨?_, rfl⟩
    cases hm : t.machine with
    | connection d n => exact absurd (by rw [hm]; rfl) hk
    | _ => rfl
  | answered _ _ _ he => exact ⟨rfl, he⟩
  | informed hm => exact absurd (by rw [hm]; rfl) hk

/-- two connections that are joined to their setups have nothing in common -/
theorem Joined.apart (h : e.Joined c slot slot') (hc : e.Coherent []) {d : AmfConnection}
    {n n' : Nat} (hd : e.Joined d n n') (hne : d.id ≠ c.id) :
    c.setup ≠ d.setup ∧ c.setup ≠ d.id ∧ c.id ≠ d.setup ∧ d.amf ≠ c.amf := by
  obtain ⟨t, ht, -, hk, he⟩ := h.setup
  obtain ⟨u, hu, -, hk', he'⟩ := hd.setup
  have hsetup : c.setup ≠ d.setup := by
    intro hs
    have hp := h.parent
    rw [hs, hd.parent] at hp
    exact hne (Option.some.inj hp)
  refine ⟨hsetup, fun hs => ?_, fun hs => ?_, fun hamf => ?_⟩
  · rw [hs, hd.connection] at ht
    obtain rfl := Option.some.inj ht
    simp [Machine.kind] at hk
  · rw [← hs, h.connection] at hu
    obtain rfl := Option.some.inj hu
    simp [Machine.kind] at hk'
  · exact hsetup (hc.single ht hu (by rw [he, he', hamf]) (hk.trans hk'.symm))

theorem Coherent.close_close (h : e.Coherent []) {id id' : ProcedureId} {t t' : Task}
    (ht : e.tasks.get? id = some t) (ht' : e.tasks.get? id' = some t') (hne : id' ≠ id)
    (r r' : Result) (event event' : Event) (ws ws' : List (ProcedureId × Wake)) :
    let e₁ : Engine γ := { e.close id t r event ws with wakes := [] }
    let e₂ := e₁.close id' t' r' event' ws'
    (∃ gone, e.Without e₂ gone) ∧ e₂.tasks.get? id = none ∧ e₂.tasks.get? id' = none ∧
      e₂.results.get? t.slot = some r ∧ e₂.results.get? t'.slot = some r' ∧
      e₂.log = e.log ++ [event, event'] := by
  intro e₁ e₂
  have hw := h.without_close ht r event ws
  have h₁ : e₁.Coherent [] := (h.without hw).wakes []
  have ht₁ : e₁.tasks.get? id' = some t' := (Table.get?_erase_other _ hne).trans ht'
  have hw' := h₁.without_close ht₁ r' event' ws'
  have hclosed : e₁.tasks.get? id = none := Table.get?_erase_self ..
  refine ⟨⟨_, (hw.trans (.refl _ [])).trans hw'⟩,
    (Table.get?_erase_other _ hne.symm).trans hclosed, Table.get?_erase_self .., ?_,
    h₁.result_close ht₁ r' event' ws', List.append_assoc ..⟩
  refine (hw'.results fun q u hu hq hslot => ?_).trans (h.result_close ht r event ws)
  rw [hq, ht₁] at hu
  exact hne (h.apart ht' ht (Option.some.inj hu ▸ hslot))

theorem Joined.extend (h : e.Joined c slot slot')
    (ht : ∀ {q t}, e.tasks.get? q = some t → e'.tasks.get? q = some t)
    (hp : e'.parents.get? c.setup = e.parents.get? c.setup) : e'.Joined c slot slot' := by
  obtain ⟨t, hget, hrest⟩ := h.setup
  exact ⟨⟨t, ht hget, hrest⟩, ht h.connection, hp.trans h.parent⟩

theorem EndsBoth.of_tornDown {gone : List ProcedureId} (h : e.Joined c slot slot')
    (hc : e.Coherent []) (ht : TornDown e e' gone) :
    EndsBoth .transportLost e e' c slot slot' := by
  obtain ⟨t, hget, rfl, hk, -⟩ := h.setup
  obtain ⟨p, hp⟩ := Machine.eq_setup_of_kind hk
  refine ⟨⟨_, ht.without hc⟩, by simp [ht.tasks], by simp [ht.tasks], .cancelled, .cancelled, ?_, ?_,
    .of_cancelled (by simp) (.inr rfl), fun _ => ⟨_, (ht.log).trans (List.append_assoc ..), ?_⟩⟩
  · exact (ht.results ..).2 (.inr ⟨c.id, (ht.gone_iff _).2 ⟨_, h.connection⟩, _, h.connection, rfl,
      rfl⟩)
  · exact (ht.results ..).2 (.inr ⟨c.setup, (ht.gone_iff _).2 ⟨_, hget⟩, _, hget, rfl,
      by rw [hp]; rfl⟩)
  · intro event hm
    rcases List.mem_append.1 hm with hm | hm
    · obtain ⟨q, -, rfl⟩ := List.mem_map.1 hm
      simp [Event.announced?]
    · split at hm
      · simp at hm
      · obtain rfl := List.mem_singleton.1 hm
        simp [Event.announced?]

end

section

variable [Gateway γ] {op : Operation} {e : Engine γ} {c : AmfConnection} {slot slot' : Nat}

/-- the end of the setup is the end of both -/
theorem Joined.ends_setup (h : e.Joined c slot slot') (hs : e.Steady) {t : Task}
    (ht : e.tasks.get? c.setup = some t) (setup : RetryOutcome NgSetupResponse) (event : Event)
    (ha : Agreed op c.id c.setup (AmfConnection.outcomeOf setup) setup) :
    EndsBoth op e (e.close c.setup t (.setup setup) event []).run c slot slot' := by
  obtain ⟨u, hu, rfl, -⟩ := h.setup
  obtain rfl := Option.some.inj (hu.symm.trans ht)
  have hc := hs.coherent
  obtain ⟨hw, hsetup, hconnection, hr, hr', -⟩ := hc.close_close ht h.connection
    (hc.apart_of_parent h.connection h.parent) (.setup setup)
    (.connection (AmfConnection.outcomeOf setup)) event (AmfConnection.announcement c.amf setup)
    [] []
  rw [hc.run_close_setup hs.quiet ht h.connection h.parent setup event]
  refine ⟨hw, hsetup, hconnection, _, _, hr', hr, ha, fun hcancelled => ?_⟩
  cases setup <;> simp [AmfConnection.outcomeOf] at hcancelled

/-- the cancellation of the connection is the end of both, and nothing is announced -/
theorem Joined.ends_connection (h : e.Joined c slot slot') (hs : e.Steady) :
    EndsBoth (.cancel c.id) e (e.close c.id ⟨.connection c slot, slot'⟩ (.connection .cancelled)
      (.procedureCancelled c.id) [(c.setup, .cancel)]).run c slot slot' := by
  obtain ⟨t, ht, rfl, hk, -⟩ := h.setup
  have hc := hs.coherent
  have hne := hc.apart_of_parent h.connection h.parent
  obtain ⟨⟨gone, hw⟩, hconnection, hsetup, hr', hr, hlog⟩ := hc.close_close h.connection ht hne.symm
    (.connection .cancelled) (.setup .cancelled) (.procedureCancelled c.id)
    (.procedureCancelled c.setup) [(c.setup, .cancel)] []
  rw [hc.run_close_connection hs.quiet ht hk h.connection h.parent]
  exact ⟨⟨_, hw.trans (.refl _ [])⟩, hsetup, hconnection, _, _, hr', hr,
    .of_cancelled (by simpa using hne) (.inl rfl),
    fun _ => ⟨_, hlog, by simp [Event.announced?]⟩⟩

/-- what ends without word to either of two that are joined leaves them so, and announces nothing
about their AMF -/
theorem Joined.run_close_other (h : e.Joined c slot slot') (hs : e.Steady) (hm : e.Matched)
    {id : ProcedureId} {t : Task} (ht : e.tasks.get? id = some t) {r : Result} {event : Event}
    {ws : List (ProcedureId × Wake)} (hcl : e.Closes t r event ws) (hne : c.setup ≠ id)
    (hne' : c.id ≠ id) : (e.close id t r event ws).run.Joined c slot slot' ∧
      Unannounced c.amf e (e.close id t r event ws).run := by
  have hc := hs.coherent
  by_cases hk : t.machine.kind = .amfConnection
  · obtain ⟨m, n'⟩ := t
    obtain ⟨d, n, rfl⟩ := Machine.eq_connection_of_kind hk
    have hd := hm.connection ht
    obtain rfl : d.id = id := hc.named ht
    obtain ⟨hapart, -, hapart', -⟩ := h.apart hc hd (Ne.symm hne')
    obtain ⟨u, hu, -, hk', -⟩ := hd.setup
    obtain ⟨rfl, rfl, rfl⟩ := hcl.of_connection (hd.empty hc)
    rw [hc.run_close_connection hs.quiet hu hk' hd.connection hd.parent]
    exact ⟨((((h.close hne hne' ..).wakes _).close hapart hapart' ..).wakes _),
      _, List.append_assoc .., by simp [Event.announced?]⟩
  obtain ⟨rfl, hquiet⟩ := hcl.of_retry hk
  cases hp : e.parents.get? id with
  | none =>
    rw [run_close_alone hs.quiet hp]
    exact ⟨h.close hne hne' .., [event], rfl, by simp [hquiet]⟩
  | some q =>
    obtain ⟨d, n, n', hd, rfl, rfl⟩ := hm.parent hp
    obtain ⟨u, hu, rfl, hk', -⟩ := hd.setup
    obtain rfl := Option.some.inj (hu.symm.trans ht)
    obtain ⟨setup, rfl⟩ := hcl.of_setup hk'
    have hdne : d.id ≠ c.id := fun hid => by
      have hcd := hd.connection
      rw [hid, h.connection] at hcd
      obtain ⟨⟨rfl, -⟩, -⟩ : (c = d ∧ _) ∧ _ := by simpa using hcd
      exact hne rfl
    obtain ⟨-, hapart, -, hamf⟩ := h.apart hc hd hdne
    rw [hc.run_close_setup hs.quiet ht hd.connection hd.parent]
    refine ⟨((h.close hne hne' ..).wakes _).close hapart hdne.symm .., _, List.append_assoc ..,
      fun event' hmem => ?_⟩
    rcases List.mem_cons.1 hmem with rfl | hmem
    · simp [hquiet]
    · obtain rfl := List.mem_singleton.1 hmem
      cases setup <;> simpa [AmfConnection.announcement, Event.announced?] using hamf

theorem unannounced_enroll (amf : EntityId) (e : Engine γ) (m : Machine) :
    Unannounced amf e (e.enroll m) := by
  refine ⟨_, rfl, fun event hm => ?_⟩
  rcases List.mem_cons.1 hm with rfl | hm
  · simp [Event.announced?]
  · obtain ⟨message, -, rfl⟩ := List.mem_map.1 hm
    simp [Event.announced?]

/-- whoever is taken in under a free name leaves the two alone -/
theorem Joined.enroll (h : e.Joined c slot slot') {m : Machine} (hnew : e.tasks.get? m.id = none)
    (ids : IdSource) (registry : Registry) :
    ({ e with ids, registry }.enroll m).Joined c slot slot' ∧
      Unannounced c.amf e ({ e with ids, registry }.enroll m) :=
  ⟨h.extend (get?_enroll_of_new hnew) rfl, unannounced_enroll c.amf { e with ids, registry } m⟩

theorem Joined.connect (h : e.Joined c slot slot') (hs : e.Steady) (controller : EntityId)
    (request : ProcedureRequest NgSetupRequest) :
    (e.launchConnection controller request).2.Joined c slot slot' ∧
      Unannounced c.amf e (e.launchConnection controller request).2 := by
  have hc := hs.coherent
  rcases launchConnection_cases hc hs.quiet controller request with
    ⟨error, ids, he, -⟩ | ⟨registry, hm, -, -, hlaunched⟩
  · rw [he]
    exact ⟨h.extend id rfl, .refl ..⟩
  -- the setup is taken in under a name that was free
  have hnew : e.tasks.get? e.ids.draw.1 = none := hm.new
  have hparent : e.parents.get? e.ids.draw.1 = none :=
    Option.eq_none_iff_forall_ne_some.2 fun q hq => by
      obtain ⟨t, ht, -⟩ := hc.parent hq
      simp [hnew] at ht
  obtain ⟨u, hu, -⟩ := h.setup
  have hne : c.setup ≠ e.ids.draw.1 := by
    intro hid
    simp [hid, hnew] at hu
  have hne' : c.id ≠ e.ids.draw.1 := by
    intro hid
    have hcon := h.connection
    simp [hid, hnew] at hcon
  obtain ⟨hj, hlog⟩ : (e.enrollSetup request registry).Joined c slot slot' ∧
      Unannounced c.amf e (e.enrollSetup request registry) := h.enroll hm.new _ registry
  have hs₁ : (e.enrollSetup request registry).Steady := ⟨hc.enrollSetup hm, hs.quiet⟩
  have hget : (e.enrollSetup request registry).tasks.get? e.ids.draw.1 = some
      ⟨(Machine.setup (.new e.ids.draw.1 request)).launched, e.started⟩ :=
    Table.get?_insert_self ..
  have hparent₁ : (e.enrollSetup request registry).parents.get? e.ids.draw.1 = none := hparent
  generalize e.enrollSetup request registry = e₁ at hlaunched hj hlog hs₁ hget hparent₁
  rcases hlaunched with ⟨error, he⟩ | ⟨registry', hm', he⟩
  · have hj' : ({ e₁ with ids := e₁.ids.draw.2 } : Engine γ).Joined c slot slot' := hj.extend id rfl
    have hcancel := congrArg Prod.snd ((hs₁.coherent.draw e₁.ids.draw.2).cancel_eq hs₁.quiet hget)
    rw [he, hcancel.trans (run_close_alone (e := { e₁ with ids := e₁.ids.draw.2 }) hs₁.quiet
      hparent₁ _ _ _)]
    exact ⟨hj'.close hne hne' .., hlog.trans ⟨_, rfl, by simp [Event.announced?]⟩⟩
  · rw [he]
    refine ⟨hj.extend (get?_enroll_of_new hm'.new) (Table.get?_insert_other _ _ hne), ?_⟩
    exact hlog.trans (unannounced_enroll c.amf
      { e₁.link e.ids.draw.1 with registry := registry' } _)

theorem Joined.launchSetup (h : e.Joined c slot slot') (hs : e.Steady)
    (request : ProcedureRequest NgSetupRequest) :
    (e.launchSetup request).2.Joined c slot slot' ∧
      Unannounced c.amf e (e.launchSetup request).2 := by
  rcases launchSetup_cases hs.quiet request with ⟨error, he⟩ | ⟨registry, hadm, he⟩
  · rw [he]
    exact ⟨h.extend id rfl, .refl ..⟩
  · rw [he]
    exact h.enroll hadm.new _ registry

theorem Joined.launchConfigUpdate (h : e.Joined c slot slot') (hs : e.Steady)
    (request : ProcedureRequest RanConfigurationUpdate) :
    (e.launchConfigUpdate request).2.Joined c slot slot' ∧
      Unannounced c.amf e (e.launchConfigUpdate request).2 := by
  rcases launchConfigUpdate_cases hs.quiet request with ⟨error, he⟩ | ⟨registry, hadm, he⟩
  · rw [he]
    exact ⟨h.extend id rfl, .refl ..⟩
  · rw [he]
    exact h.enroll hadm.new _ registry

theorem Steady.unannounced_advance (hs : e.Steady) (amf : EntityId) :
    Unannounced amf e e.advance := by
  obtain ⟨tasks, armed, he, -⟩ := hs.coherent.advance_spec hs.quiet
  rw [he]
  refine ⟨_, rfl, fun event hm => ?_⟩
  obtain ⟨q, -, hq⟩ := List.mem_filterMap.1 hm
  obtain ⟨t, -, ht⟩ := Option.bind_eq_some_iff.1 hq
  obtain ⟨message, -, rfl⟩ := Option.map_eq_some_iff.1 ht
  simp [Event.announced?]

theorem Joined.advanceBy (h : e.Joined c slot slot') (hs : e.Steady) (ticks : UInt64) :
    (e.advanceBy ticks).Joined c slot slot' ∧ Unannounced c.amf e (e.advanceBy ticks) := by
  rw [advanceBy_eq]
  generalize ticks.toNat = n
  induction n with
  | zero => exact ⟨h, .refl ..⟩
  | succ n ih =>
    rw [List.replicate_succ', after_append]
    have hs' := hs.after (List.replicate n .advance)
    exact ⟨ih.1.proceeds hs'.proceeds_advance, ih.2.trans (hs'.unannounced_advance _)⟩

/-- A message leaves the two joined and announces nothing about their AMF, or it answers the setup
and ends both. -/
theorem Joined.message (h : e.Joined c slot slot') (hs : e.Steady) (hm : e.Matched)
    (m : PeerMessage) :
    (e.handleMessage m).2.Joined c slot slot' ∧ Unannounced c.amf e (e.handleMessage m).2 ∨
      EndsBoth (.message m) e (e.handleMessage m).2 c slot slot' := by
  have hc := hs.coherent
  rcases hc.handleMessage_spec hs.quiet m with
    he | ⟨id, t, r, event, ht, hwait, hk, hu, hev, he⟩ | ⟨id, t, r, delay, hb⟩
  · rw [he]
    exact .inl ⟨h, .refl ..⟩
  · rw [he]
    have hcl := Closes.answered (e := e) hwait hk hu hev
    by_cases hsetup : c.setup = id
    · subst hsetup
      obtain ⟨u, hu', -, hkind, -⟩ := h.setup
      obtain rfl := Option.some.inj (hu'.symm.trans ht)
      obtain ⟨setup, rfl⟩ := hcl.of_setup hkind
      refine .inr (h.ends_setup hs ht setup event (.of_setup ?_ (by simp) (by simp)))
      refine iff_of_false ?_ (by simp)
      rintro rfl
      simp [Result.isCancelled, Outcome.isCancelled] at hu
    · have hcon : c.id ≠ id := by
        rintro rfl
        rw [h.connection] at ht
        obtain rfl := Option.some.inj ht
        rcases Machine.waitingFor_connection_cases c slot with hw | hw <;> simp [hw] at hwait
      exact .inl (h.run_close_other hs hm ht hcl hsetup hcon)
  · rw [hc.handleMessage_backs hs.quiet hb]
    refine .inl ⟨h.proceeds (hc.proceeds_backedOff hb), ?_⟩
    rw [backedOff, backOff_eq (hc.of_backs hb).2.2.2]
    exact ⟨_, rfl, by simp [Event.announced?]⟩

theorem Joined.cancel (h : e.Joined c slot slot') (hs : e.Steady) (hm : e.Matched)
    (id : ProcedureId) :
    (e.cancel id).2.Joined c slot slot' ∧ Unannounced c.amf e (e.cancel id).2 ∨
      EndsBoth (.cancel id) e (e.cancel id).2 c slot slot' := by
  have hc := hs.coherent
  cases ht : e.tasks.get? id with
  | none =>
    rw [cancel_unknown ht]
    exact .inl ⟨h, .refl ..⟩
  | some t =>
    rw [hc.cancel_eq hs.quiet ht]
    by_cases hcon : c.id = id
    · subst hcon
      obtain rfl := Option.some.inj (h.connection.symm.trans ht)
      exact .inr (h.ends_connection hs)
    by_cases hsetup : c.setup = id
    · subst hsetup
      obtain ⟨u, hu, -, hkind, -⟩ := h.setup
      obtain rfl := Option.some.inj (hu.symm.trans ht)
      obtain ⟨p, hp⟩ := Machine.eq_setup_of_kind hkind
      have hne := hc.apart_of_parent h.connection h.parent
      have ha : Agreed (.cancel c.setup) c.id c.setup (AmfConnection.outcomeOf .cancelled)
          .cancelled := .of_setup (by simp) (by simpa using hne.symm) (by simp)
      have hend := h.ends_setup hs ht .cancelled (.procedureCancelled u.machine.id) ha
      have hcancel : u.machine.cancellation = .setup .cancelled ∧ u.machine.followUps = [] := by
        rw [hp]
        exact ⟨rfl, rfl⟩
      rw [hcancel.1, hcancel.2]
      exact .inr hend
    · exact .inl (h.run_close_other hs hm ht .cancelled hsetup hcon)

/-- An operation leaves the two joined and announces nothing about their AMF, or it ends both. -/
theorem Joined.step (h : e.Joined c slot slot') (hs : e.Steady) (hm : e.Matched)
    (hop : ∀ entity, op ≠ .remove entity) :
    (e.step op).2.Joined c slot slot' ∧
      (op ≠ .drainEvents → Unannounced c.amf e (e.step op).2) ∨
    EndsBoth op e (e.step op).2 c slot slot' := by
  cases op with
  | setup request => exact .inl ((h.launchSetup hs request).imp_right fun hlog _ => hlog)
  | update request => exact .inl ((h.launchConfigUpdate hs request).imp_right fun hlog _ => hlog)
  | connect controller request =>
    exact .inl ((h.connect hs controller request).imp_right fun hlog _ => hlog)
  | message m => exact (h.message hs hm m).imp_left (.imp_right fun hlog _ => hlog)
  | advance => exact .inl ⟨h.proceeds hs.proceeds_advance, fun _ => hs.unannounced_advance _⟩
  | advanceBy ticks => exact .inl ((h.advanceBy hs ticks).imp_right fun hlog _ => hlog)
  | cancel id => exact (h.cancel hs hm id).imp_left (.imp_right fun hlog _ => hlog)
  | remove entity => exact absurd rfl (hop entity)
  | transportLost =>
    obtain ⟨-, gone, ht⟩ := hs.coherent.tornDown hs.quiet
    exact .inr (.of_tornDown h hs.coherent ht)
  | drainEvents => exact .inl ⟨h.extend id rfl, fun hne => absurd rfl hne⟩

end

end NgapProcedures.Engine
