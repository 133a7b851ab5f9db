import NgapProcedures.Proofs.Engine.Settling
import NgapProcedures.Proofs.Retry.Verdict

/-! What is told of one instance while instances end. Whoever is cancelled is told of once, whoever
learns what became of its setup is not, and nothing is told of anybody else. -/

namespace NgapProcedures

theorem AmfConnection.subject?_announcement (amf : EntityId)
    (outcome : RetryOutcome NgSetupResponse) : (announcement amf outcome).subject? = none := by
  cases outcome <;> rfl

namespace Engine

variable {γ : Type}

/-- the events that tell of an instance -/
def told (id : ProcedureId) (events : List Event) : List Event :=
  events.filter (·.subject? = some id)

theorem told_append (id : ProcedureId) (a b : List Event) :
    told id (a ++ b) = told id a ++ told id b :=
  List.filter_append ..

theorem told_cons_self {id : ProcedureId} {event : Event} (h : event.subject? = some id)
    (rest : List Event) : told id (event :: rest) = event :: told id rest :=
  List.filter_cons_of_pos (by simpa using h)

theorem told_cons_other {id : ProcedureId} {event : Event} (h : event.subject? ≠ some id)
    (rest : List Event) : told id (event :: rest) = told id rest :=
  List.filter_cons_of_neg (by simpa using h)

theorem told_filterMap {f : ProcedureId → Option Event}
    (hf : ∀ q event, f q = some event → event.subject? = some q) {ids : List ProcedureId}
    (hd : ids.Nodup) (id : ProcedureId) :
    told id (ids.filterMap f) = if id ∈ ids then (f id).toList else [] := by
  induction ids with
  | nil => rfl
  | cons q rest ih =>
    obtain ⟨hnot, hd⟩ := List.nodup_cons.1 hd
    have hcons : told id ((q :: rest).filterMap f) =
        told id (f q).toList ++ told id (rest.filterMap f) := by
      rw [← told_append]
      cases hq : f q <;> simp [hq]
    rw [hcons, ih hd]
    by_cases he : id = q
    · subst he
      rw [if_neg hnot, if_pos (by simp), List.append_nil]
      cases hq : f id with
      | none => rfl
      | some event => exact told_cons_self (hf id event hq) []
    · have hother : told id (f q).toList = [] := by
        cases hq : f q with
        | none => rfl
        | some event =>
          refine told_cons_other (fun hs => he ?_) []
          exact Option.some.inj (hs.symm.trans (hf q event hq))
      simp [hother, he]

/-- how an instance, or a name that nobody has, comes out of a run of ends, and what they tell of it -/
inductive Undergoes (e' : Engine γ) (id : ProcedureId) : Option Task → List Event → Prop where
  | absent (hn : e'.tasks.get? id = none) : Undergoes e' id none []
  | kept {t : Task} (ht : e'.tasks.get? id = some t) : Undergoes e' id (some t) []
  | cancelled {t : Task} (hn : e'.tasks.get? id = none)
      (hr : e'.results.get? t.slot = some t.machine.cancellation) :
      Undergoes e' id (some t) [.procedureCancelled id]
  | informed {t : Task} {c : AmfConnection} {n : Nat} {outcome : RetryOutcome NgSetupResponse}
      (hm : t.machine = .connection c n) (hn : e'.tasks.get? id = none)
      (hr : e'.results.get? t.slot = some (.connection (AmfConnection.outcomeOf outcome))) :
      Undergoes e' id (some t) []

section

variable {e : Engine γ} {id q : ProcedureId} {o : Option Task} {events : List Event} {t : Task}

theorem Undergoes.start (e : Engine γ) (id : ProcedureId) :
    e.Undergoes id (e.tasks.get? id) [] := by
  cases ht : e.tasks.get? id with
  | none => exact .absent ht
  | some t => exact .kept ht

theorem Undergoes.wakes (h : e.Undergoes id o events) (ws : List (ProcedureId × Wake)) :
    ({ e with wakes := ws }).Undergoes id o events := by
  cases h with
  | absent hn => exact .absent hn
  | kept ht => exact .kept ht
  | cancelled hn hr => exact .cancelled hn hr
  | informed hm hn hr => exact .informed hm hn hr

/-- another instance ends -/
theorem Undergoes.close (h : e.Undergoes id o events) (hc : e.Coherent [])
    (ht : e.tasks.get? q = some t) (hq : id ≠ q) (r : Result) (event : Event)
    (ws : List (ProcedureId × Wake)) : (e.close q t r event ws).Undergoes id o events := by
  have hget : (e.close q t r event ws).tasks.get? id = e.tasks.get? id :=
    Table.get?_erase_other _ hq
  have hw := hc.without_close ht r event ws
  cases h with
  | absent hn => exact .absent (hget.trans hn)
  | kept hk => exact .kept (hget.trans hk)
  | cancelled hn hr => exact .cancelled (hget.trans hn) (hc.result_without hw hr)
  | informed hm hn hr => exact .informed hm (hget.trans hn) (hc.result_without hw hr)

theorem Undergoes.of_get? (h : e.Undergoes id o events) (ht : e.tasks.get? id = some t) :
    o = some t ∧ events = [] := by
  cases h with
  | kept hk => exact ⟨hk.symm.trans ht, rfl⟩
  | _ => simp_all

variable [Gateway γ]

theorem Undergoes.dispatch (h : e.Undergoes id o events) (hc : e.Coherent []) (q : ProcedureId)
    {w : Wake} (hw : w.Ending) : ∃ new, (e.dispatch q w).log = e.log ++ new ∧
      (e.dispatch q w).Undergoes id o (events ++ told id new) := by
  -- the end of an instance that is told of nobody, or of that instance alone
  have hclose {t : Task} (ht : e.tasks.get? q = some t) {r : Result} {event : Event}
      {ws : List (ProcedureId × Wake)} (hs : event.subject? = none ∨ event.subject? = some q)
      (hself : id = q → (e.close q t r event ws).Undergoes id (some t) (told id [event])) :
      ∃ new, (e.close q t r event ws).log = e.log ++ new ∧
        (e.close q t r event ws).Undergoes id o (events ++ told id new) := by
    refine ⟨[event], rfl, ?_⟩
    by_cases hid : id = q
    · obtain ⟨rfl, rfl⟩ := h.of_get? (hid ▸ ht)
      exact hself hid
    · have hother : event.subject? ≠ some id := by
        rcases hs with hs | hs <;> simp [hs, Ne.symm hid]
      rw [told_cons_other hother]
      simpa [told] using h.close hc ht hid r event ws
  rcases hc.dispatch_ending_cases q hw with he | ⟨t, ht, ⟨-, he⟩ | ⟨c, slot, outcome, hm, -, he⟩⟩
  · rw [he]
    exact ⟨[], (List.append_nil _).symm, by simpa [told] using h⟩
  · rw [he, hc.named ht]
    refine hclose ht (.inr rfl) fun hid => ?_
    subst hid
    rw [told_cons_self rfl]
    exact .cancelled (Table.get?_erase_self ..) (hc.result_close ht ..)
  · rw [he]
    have hs := AmfConnection.subject?_announcement c.amf outcome
    refine hclose ht (.inl hs) fun hid => ?_
    subst hid
    rw [told_cons_other (by simp [hs])]
    exact .informed hm (Table.get?_erase_self ..) (hc.result_close ht ..)

theorem Undergoes.run (h : e.Undergoes id o events) (hc : e.Coherent [])
    (hw : ∀ x ∈ e.wakes, x.2.Ending) : ∃ new, e.run.log = e.log ++ new ∧
      e.run.Undergoes id o (events ++ told id new) := by
  let P (e' : Engine γ) : Prop := ∃ new, e'.log = e.log ++ new ∧
    e'.Undergoes id o (events ++ told id new)
  refine (hc.ending_induction (P := P) (fun e' q w rest hc hcons hw _ hp => ?_) hw
    ⟨[], (List.append_nil _).symm, by simpa [told] using h⟩).1
  obtain ⟨a, ha, hu⟩ := hp
  obtain ⟨b, hb, hu⟩ := (hu.wakes rest).dispatch (hc.wakes rest) q hw
  refine ⟨a ++ b, hb.trans ?_, by rwa [told_append, ← List.append_assoc]⟩
  rw [← List.append_assoc, ← ha]

/-- the end of an instance and of all that goes with it -/
theorem Undergoes.run_close (hc : e.Coherent []) (hw : e.wakes = [])
    (ht : e.tasks.get? q = some t) {r : Result} {event : Event} {ws : List (ProcedureId × Wake)}
    (hcl : e.Closes t r event ws) (h : (e.close q t r event ws).Undergoes id o events) :
    ∃ new, (e.close q t r event ws).run.log = e.log ++ event :: new ∧
      (e.close q t r event ws).run.Undergoes id o (events ++ told id new) := by
  obtain ⟨new, hlog, hu⟩ := h.run (hc.without (hc.without_close ht r event ws))
    (hcl.ending_close hw q)
  exact ⟨new, hlog.trans (List.append_assoc ..), hu⟩

theorem Coherent.undergoes_cancel (hc : e.Coherent []) (hw : e.wakes = [])
    (ht : e.tasks.get? q = some t) (id : ProcedureId) :
    ∃ new, (e.cancel q).2.log = e.log ++ new ∧
      (e.cancel q).2.Undergoes id (e.tasks.get? id) (told id new) := by
  rw [hc.cancel_eq hw ht]
  by_cases hid : id = q
  · subst hid
    have hcancelled : (e.close id t t.machine.cancellation (.procedureCancelled t.machine.id)
        t.machine.followUps).Undergoes id (some t) [.procedureCancelled id] :=
      .cancelled (Table.get?_erase_self ..) (hc.result_close ht ..)
    obtain ⟨new, hlog, hu⟩ := hcancelled.run_close hc hw ht .cancelled
    rw [hc.named ht] at hlog hu ⊢
    rw [ht]
    exact ⟨_, hlog, by rwa [told_cons_self rfl]⟩
  · obtain ⟨new, hlog, hu⟩ := ((Undergoes.start e id).close hc ht hid _ _ _).run_close hc hw ht
      .cancelled
    refine ⟨_, hlog, ?_⟩
    rwa [told_cons_other fun hs => hid ?_]
    rw [hc.named ht] at hs
    exact (Option.some.inj hs).symm

end

end Engine

end NgapProcedures
