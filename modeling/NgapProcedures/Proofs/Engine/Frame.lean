import NgapProcedures.Proofs.Engine.Clock
import NgapProcedures.Proofs.Engine.Links

/-! What a cancellation leaves alone. It ends an instance, and with it the setup that the instance
launched or the connection that launched it, and nobody else. Connections know their setups by name,
though, so that where the name of a setup that is gone was given out again, the cancellation of the
connection takes a stranger with it. -/

namespace NgapProcedures

def Machine.setupSlot? : Machine → Option Nat
  | .connection _ slot => some slot
  | _ => none

/-- the two are one instance, or one of them launched the other; it is slots that tell instances apart
for good -/
def Task.Kin (t u : Task) : Prop :=
  u.slot = t.slot ∨ t.machine.setupSlot? = some u.slot ∨ u.machine.setupSlot? = some t.slot

namespace Engine

variable {γ : Type}

/-- the instance is left as it is: its machine, its registration, its timer, and what its handle
reads -/
structure Spares (e e' : Engine γ) (q : ProcedureId) (u : Task) : Prop where
  task : e'.tasks.get? q = some u
  registered : ∀ entity, q ∈ e'.registry.ids entity ↔ q ∈ e.registry.ids entity
  armed : e'.armed.get? q = e.armed.get? q
  result : e'.results.get? u.slot = e.results.get? u.slot

def Owns (e : Engine γ) (t : Task) : Prop :=
  ∀ c slot v, t.machine = .connection c slot → e.tasks.get? c.setup = some v → v.slot = slot

section

variable {e e' : Engine γ} {gone : ProcedureId → Prop} {q : ProcedureId} {u : Task}

theorem Without.spares (hw : e.Without e' gone) (hc : e.Coherent []) (hu : e.tasks.get? q = some u)
    (hg : ¬gone q) : e.Spares e' q u where
  task := hw.tasks.2 ⟨hu, hg⟩
  registered _ := hw.registry.trans (and_iff_left hg)
  armed := Option.ext fun _ => hw.armed.trans (and_iff_left hg)
  result := hw.results fun _ _ hv hg' he => hg (hc.apart hv hu he ▸ hg')

theorem Timed.waits_iff_without (ht : e.Timed) (hw : e.Without e' gone) (hg : ¬gone q)
    (k : TimerId) (d : UInt64) : e'.timers.Waits ⟨k, q, d⟩ ↔ e.timers.Waits ⟨k, q, d⟩ := by
  refine ⟨fun hk => ?_, fun hk => ht.waits_without hw hk hg⟩
  obtain ⟨live, htimers⟩ := hw.timers
  refine ⟨?_, (hw.live.1 hk.2).1⟩
  have hqueue := hk.1
  rwa [htimers] at hqueue

end

section

variable {e : Engine γ} {x : ProcedureId} {t : Task}

theorem Coherent.wakes_close_connection (h : e.Coherent []) (hw : e.wakes = [])
    {c : AmfConnection} {slot slot' : Nat}
    (ht : e.tasks.get? x = some ⟨.connection c slot, slot'⟩) (r : Result) (event : Event) :
    (e.close x ⟨.connection c slot, slot'⟩ r event []).wakes = [] := by
  simp [Engine.close, parentWake, h.parents_connection ht, hw]

variable [Gateway γ]

/-- The end of an instance that takes nobody with it ends the connection that launched it, if there is
one, because no other has its result. -/
theorem Coherent.without_end (h : e.Coherent []) (hw : e.wakes = [])
    (hempty : ∀ {q c slot slot'}, e.tasks.get? q = some ⟨.connection c slot, slot'⟩ →
      e.results.get? slot = none)
    (ht : e.tasks.get? x = some t) (r : Result) (event : Event) :
    ∃ gone, e.Without (e.close x t r event []).run gone ∧
      ∀ q u, e.tasks.get? q = some u → gone q → t.Kin u := by
  have hclose := h.without_close ht r event []
  have hself {q : ProcedureId} {u : Task} (hu : e.tasks.get? q = some u) (hq : q = x) : t.Kin u := by
    subst hq
    obtain rfl := Option.some.inj (hu.symm.trans ht)
    exact .inl rfl
  cases hp : e.parents.get? x with
  | none =>
    rw [run_close_alone hw hp]
    exact ⟨_, hclose, fun q u hu hq => hself hu hq⟩
  | some p =>
    have hwakes : (e.close x t r event []).wakes = [(p, .procedureDone x)] := by
      simp [Engine.close, hw, parentWake, hp]
    have hresults : ∀ n, (e.close x t r event []).results.get? n =
        if n = t.slot then some r else e.results.get? n := Results.get?_record (h.slot ht).2 r
    rw [run_of_wakes_cons hwakes]
    have hwithout := hclose.trans (.refl (e.close x t r event []) [])
    have hc := h.without hwithout
    generalize e.close x t r event [] = e₁ at hwithout hc hresults
    rcases hc.dispatch_ending_cases p (w := .procedureDone x) trivial with
      he | ⟨u, hu, ⟨hcancel, -⟩ | ⟨c, slot, outcome, hm, hres, he⟩⟩
    · rw [he, run_of_wakes_nil rfl]
      exact ⟨_, hwithout, fun q u hu hq => hself hu (hq.resolve_right id)⟩
    · simp at hcancel
    · obtain ⟨machine, slot'⟩ := u
      subst hm
      rw [he, run_close_alone rfl (hc.parents_connection hu)]
      refine ⟨_, hwithout.trans (hc.without_close hu _ _ _), fun q v hv hq => ?_⟩
      rcases hq with hq | hq
      · exact hself hv (hq.resolve_right id)
      · have hold := (hwithout.tasks.1 hu).1
        subst hq
        obtain rfl := Option.some.inj (hv.symm.trans hold)
        have hslot : slot = t.slot := by
          by_contra hne
          have hres : e₁.results.get? slot = _ := hres
          rw [hresults, if_neg hne, hempty hold] at hres
          simp at hres
        exact .inr (.inr (congrArg some hslot))

/-- the cancellation of a connection ends it, and then cancels whoever has the name of its setup -/
theorem Coherent.cancel_connection (h : e.Coherent []) (hw : e.wakes = []) {c : AmfConnection}
    {slot slot' : Nat} (ht : e.tasks.get? x = some ⟨.connection c slot, slot'⟩) :
    (e.cancel x).2 = ((e.close x ⟨.connection c slot, slot'⟩ (.connection .cancelled)
      (.procedureCancelled c.id) []).cancel c.setup).2 := by
  have hp := h.parents_connection ht
  rw [h.cancel_eq hw ht]
  have hwake : e.close x ⟨.connection c slot, slot'⟩ (.connection .cancelled)
      (.procedureCancelled c.id) [(c.setup, .cancel)] = (e.close x ⟨.connection c slot, slot'⟩
      (.connection .cancelled) (.procedureCancelled c.id) []).wake c.setup .cancel := by
    simp [Engine.close, parentWake, hp, Engine.wake]
  have hnil := h.wakes_close_connection hw ht (.connection .cancelled) (.procedureCancelled c.id)
  have hc := h.without (h.without_close ht (.connection .cancelled) (.procedureCancelled c.id) [])
  refine (congrArg run hwake).trans ?_
  generalize e.close x ⟨.connection c slot, slot'⟩ (.connection .cancelled)
    (.procedureCancelled c.id) [] = e₁ at hnil hc
  rw [run_wake hnil]
  cases hv : e₁.tasks.get? c.setup with
  | none => rw [dispatch_unknown hv, cancel_unknown hv, run_of_wakes_nil hnil]
  | some v =>
    rw [hc.cancel_eq hnil hv, dispatch_cancel hv (hc.isTerminal hv) hc.standing]

/-- A cancellation takes nobody but the kin of the instance, if each connection is joined to its setup or
has lost it, and the name of a lost setup is not in use. -/
theorem Steady.cancel_without (hs : e.Steady)
    (hlinks : ∀ {q c slot slot'}, e.tasks.get? q = some ⟨.connection c slot, slot'⟩ →
      e.Joined c slot slot' ∨ e.Vacant slot none)
    (ht : e.tasks.get? x = some t) (hown : e.Owns t) :
    ∃ gone, e.Without (e.cancel x).2 gone ∧ ∀ q u, e.tasks.get? q = some u → gone q → t.Kin u := by
  have hc := hs.coherent
  have hempty {q : ProcedureId} {c : AmfConnection} {slot slot' : Nat}
      (hq : e.tasks.get? q = some ⟨.connection c slot, slot'⟩) : e.results.get? slot = none :=
    (hlinks hq).elim (·.empty hc) (·.result)
  have hcancel := congrArg Prod.snd (hc.cancel_eq hs.quiet ht)
  obtain ⟨machine, slot'⟩ := t
  cases machine with
  | setup p =>
    rw [hcancel]
    exact hc.without_end hs.quiet hempty ht _ _
  | update p =>
    rw [hcancel]
    exact hc.without_end hs.quiet hempty ht _ _
  | connection c slot =>
    obtain rfl : c.id = x := hc.named ht
    have hself {u : Task} (hu : e.tasks.get? c.id = some u) :
        Task.Kin ⟨.connection c slot, slot'⟩ u := by
      obtain rfl := Option.some.inj (hu.symm.trans ht)
      exact .inl rfl
    rcases hlinks ht with hj | hv
    · obtain ⟨v, hv, rfl, hk, -⟩ := hj.setup
      have hne := hc.apart_of_parent ht hj.parent
      have hclose := (hc.without_close ht (.connection .cancelled) (.procedureCancelled c.id)
        [(c.setup, .cancel)]).trans (.refl _ [])
      have hsetup := (hc.without hclose).without_close (hclose.tasks.2 ⟨hv, by simp [hne.symm]⟩)
        (.setup .cancelled) (.procedureCancelled c.setup) []
      rw [hcancel]
      refine ⟨_, (hc.run_close_connection hs.quiet hv hk ht hj.parent) ▸
        (hclose.trans hsetup).trans (.refl _ []), fun q u hu hq => ?_⟩
      rcases hq with ((rfl | hf) | rfl) | hf
      · exact hself hu
      · exact hf.elim
      · obtain rfl := Option.some.inj (hu.symm.trans hv)
        exact .inr (.inl rfl)
      · exact hf.elim
    · have hclose := hc.without_close ht (.connection .cancelled) (.procedureCancelled c.id) []
      have hgone : (e.close c.id ⟨.connection c slot, slot'⟩ (.connection .cancelled)
          (.procedureCancelled c.id) []).tasks.get? c.setup = none := by
        refine Option.eq_none_iff_forall_ne_some.2 fun v hv' => ?_
        have hv' := (hclose.tasks.1 hv').1
        exact hv.unoccupied hv' (hown c slot v rfl hv')
      rw [hc.cancel_connection hs.quiet ht, cancel_unknown hgone]
      exact ⟨_, hclose, fun q u hu hq => hself (hq ▸ hu)⟩

theorem Coherent.cancelled (h : e.Coherent []) (hw : e.wakes = []) (ht : e.tasks.get? x = some t) :
    (e.cancel x).2.tasks.get? x = none ∧
      (e.cancel x).2.results.get? t.slot = some t.machine.cancellation := by
  have hclose := h.without_close ht t.machine.cancellation (.procedureCancelled t.machine.id)
    t.machine.followUps
  have hc := h.without hclose
  have hcl : e.Closes t _ _ _ := .cancelled
  obtain ⟨gone, hs, -⟩ := hc.run_ending (hcl.ending_close hw x)
  rw [h.cancel_eq hw ht]
  refine ⟨Option.eq_none_iff_forall_ne_some.2 fun u hu => ?_, ?_⟩
  · exact (hclose.tasks.1 (hs.tasks.1 hu).1).2 rfl
  · exact hc.result_without hs.toWithout (h.result_close ht _ _ _)

end

variable [Gateway γ]

theorem Tied.connection_cases {e : Engine γ} {history : List Operation} (h : Tied e history)
    (hs : e.Steady) {q : ProcedureId} {c : AmfConnection} {slot slot' : Nat}
    (hq : (e.after history).tasks.get? q = some ⟨.connection c slot, slot'⟩) :
    (e.after history).Joined c slot slot' ∨ (e.after history).Vacant slot none ∧
      ∃ before entity rest, history = before ++ .remove entity :: rest ∧
        (e.after before).Joined c slot slot' ∧
        c.setup ∈ (e.after before).registry.ids entity ∧
        c.id ∉ (e.after before).registry.ids entity := by
  refine (h.connection hq).imp_right fun hcut => ⟨?_, hcut⟩
  obtain ⟨before, entity, rest, rfl, hj, hin, -⟩ := hcut
  obtain ⟨t, ht, rfl, -⟩ := hj.setup
  rw [after_append]
  exact (((hs.after before).coherent.vacant_remove ht hin).after
    ((hs.after before).after [.remove entity]) rest).1

/-- A cancellation leaves everybody alone but the instance that it is for, the setup that this launched,
and the connection that launched it. The one exception is a connection whose setup was removed without
it: if somebody else goes by the name of that setup, he is cancelled as well. -/
theorem cancel_spares_after (gateway : γ) (ids : IdSource) (config : EngineConfig)
    (history : List Operation) {x : ProcedureId} {t : Task}
    (ht : ((Engine.new gateway ids config).after history).tasks.get? x = some t) :
    let start := Engine.new gateway ids config
    let e := start.after history
    let e' := (e.cancel x).2
    (e.Owns t →
      (∀ q u, e.tasks.get? q = some u → ¬t.Kin u → e.Spares e' q u ∧
        (messages history + 1 < 2 ^ 64 →
          ∀ k d, e'.timers.Waits ⟨k, q, d⟩ ↔ e.timers.Waits ⟨k, q, d⟩)) ∧
      ∀ n, (∀ q u, e.tasks.get? q = some u → t.Kin u → u.slot ≠ n) →
        e'.results.get? n = e.results.get? n) ∧
    ∀ c slot v, t.machine = .connection c slot → e.tasks.get? c.setup = some v → v.slot ≠ slot →
      e'.tasks.get? c.setup = none ∧ e'.results.get? v.slot = some v.machine.cancellation ∧
      ∃ before entity rest, history = before ++ .remove entity :: rest ∧
        (start.after before).Joined c slot t.slot ∧
        c.setup ∈ (start.after before).registry.ids entity ∧
        c.id ∉ (start.after before).registry.ids entity := by
  intro start e e'
  have hstart : start.Steady := steady_new gateway ids config
  have hs : e.Steady := hstart.after history
  have htied : start.Tied history := tied_new gateway ids config history
  refine ⟨fun hown => ?_, fun c slot v hm hv hne => ?_⟩
  · obtain ⟨gone, hw, hkin⟩ := hs.cancel_without
      (fun hq => (htied.connection_cases hstart hq).imp_right And.left) ht hown
    refine ⟨fun q u hu hnot => ⟨hw.spares hs.coherent hu fun hg => hnot (hkin q u hu hg),
      fun hn k d => ?_⟩, fun n hn => hw.results fun q u hu hg => hn q u hu (hkin q u hu hg)⟩
    exact (timed_after gateway ids config history hn).1.waits_iff_without hw
      (fun hg => hnot (hkin q u hu hg)) k d
  · obtain ⟨machine, slot'⟩ := t
    subst hm
    obtain rfl : c.id = x := hs.coherent.named ht
    rcases htied.connection_cases hstart ht with hj | ⟨-, hcut⟩
    · obtain ⟨w, hw, hslot, -⟩ := hj.setup
      exact absurd (Option.some.inj (hv.symm.trans hw) ▸ hslot) hne
    · obtain ⟨before, -, -, -, hj, -⟩ := id hcut
      have hother := (hstart.after before).coherent.apart_of_parent hj.connection hj.parent
      have hclose := hs.coherent.without_close ht (.connection .cancelled)
        (.procedureCancelled c.id) []
      have hnil := hs.coherent.wakes_close_connection hs.quiet ht (.connection .cancelled)
        (.procedureCancelled c.id)
      obtain ⟨hgone, hresult⟩ := (hs.coherent.without hclose).cancelled hnil
        (hclose.tasks.2 ⟨hv, hother.symm⟩)
      have hcancel : e' = _ := hs.coherent.cancel_connection hs.quiet ht
      rw [hcancel]
      exact ⟨hgone, hresult, hcut⟩

/-- the cancellation of a connection and its setup leaves another setup alone -/
theorem cancel_spares_after_connect :
    let request (amf : String) : ProcedureRequest NgSetupRequest :=
      ⟨⟨amf⟩, ⟨⟨"00101", 411, 22⟩, none, [⟨7, ["00101"]⟩], .v128⟩, 1⟩
    let e := (Engine.new (⟨⟩ : NoGateway) .sequential {}).after
      [.connect ⟨"ngc"⟩ (request "amf-1"), .setup (request "amf-2")]
    ∃ t u, e.tasks.get? ⟨"proc-2"⟩ = some t ∧ e.tasks.get? ⟨"proc-3"⟩ = some u ∧
      e.Spares (e.cancel ⟨"proc-2"⟩).2 ⟨"proc-3"⟩ u := by
  intro request e
  have hconnection : e.tasks.get? ⟨"proc-2"⟩ = some
      ⟨.connection ⟨⟨"proc-2"⟩, ⟨"ngc"⟩, ⟨"amf-1"⟩, ⟨"proc-1"⟩, .awaitingSetup, none⟩ 0, 1⟩ := by
    decide +kernel
  have hother : (e.tasks.get? ⟨"proc-3"⟩).map (fun u => (u.slot, u.machine.setupSlot?)) =
      some (2, none) := by decide +kernel
  have hsetup : (e.tasks.get? ⟨"proc-1"⟩).map (·.slot) = some 0 := by decide +kernel
  obtain ⟨u, hu, hslots⟩ := Option.map_eq_some_iff.1 hother
  obtain ⟨hslot, hnone⟩ := Prod.mk.inj hslots
  obtain ⟨hspares, -⟩ := cancel_spares_after _ _ _ _ hconnection
  refine ⟨_, u, hconnection, hu, ((hspares ?_).1 _ u hu ?_).1⟩
  · rintro c slot v hm hv
    obtain ⟨rfl, rfl⟩ : _ ∧ _ := by simpa using hm
    obtain ⟨v', hv', hslot⟩ := Option.map_eq_some_iff.1 hsetup
    exact Option.some.inj (hv'.symm.trans hv) ▸ hslot
  · show ¬(u.slot = 1 ∨ some 0 = some u.slot ∨ u.machine.setupSlot? = some 1)
    simp [hslot, hnone]

/-- The name of a setup that was removed without its connection is given to a setup of another AMF. The
cancellation of the connection cancels that one. -/
theorem cancel_takes_stranger :
    let request (amf : String) : ProcedureRequest NgSetupRequest :=
      ⟨⟨amf⟩, ⟨⟨"00101", 411, 22⟩, none, [⟨7, ["00101"]⟩], .v128⟩, 1⟩
    let e := (Engine.new (⟨⟩ : NoGateway) (.listed "a" ["b", "a"]) {}).after
      [.connect ⟨"ngc"⟩ (request "amf-1"), .remove ⟨"amf-1"⟩, .setup (request "amf-2")]
    ¬∀ x t, e.tasks.get? x = some t → ∀ q u, e.tasks.get? q = some u → ¬t.Kin u →
      e.Spares (e.cancel x).2 q u := by
  intro request e hall
  have hconnection : (e.tasks.get? ⟨"b"⟩).map (fun t => (t.slot, t.machine.setupSlot?)) =
      some (1, some 0) := by decide +kernel
  have hstranger : (e.tasks.get? ⟨"a"⟩).map (fun u => (u.slot, u.machine.setupSlot?)) =
      some (2, none) := by decide +kernel
  have hgone : (e.cancel ⟨"b"⟩).2.tasks.get? ⟨"a"⟩ = none := by decide +kernel
  obtain ⟨t, ht, htslots⟩ := Option.map_eq_some_iff.1 hconnection
  obtain ⟨u, hu, huslots⟩ := Option.map_eq_some_iff.1 hstranger
  obtain ⟨htslot, htsetup⟩ := Prod.mk.inj htslots
  obtain ⟨huslot, husetup⟩ := Prod.mk.inj huslots
  have hspares := hall ⟨"b"⟩ t ht ⟨"a"⟩ u hu
    (by simp [Task.Kin, htslot, htsetup, huslot, husetup])
  exact absurd (hgone.symm.trans hspares.task) (by simp)

end Engine

end NgapProcedures
