import NgapProcedures.Proofs.Engine.Coherence

/-! One tick on. Of the timers that fire, those that are still armed wake their owners, and each of
these sends its request again, in the order in which the timers fired. -/

namespace NgapProcedures.Engine

variable {γ : Type}

/-- owners of the timers that are armed for them, and are so no longer -/
def expiring (armed : Table ProcedureId TimerId) : List Timer → List ProcedureId
  | [] => []
  | t :: rest =>
    if armed.get? t.owner = some t.id then t.owner :: expiring (armed.erase t.owner) rest
    else expiring armed rest

theorem mem_expiring_iff {armed : Table ProcedureId TimerId} {fired : List Timer}
    {id : ProcedureId} :
    id ∈ expiring armed fired ↔ ∃ t ∈ fired, t.owner = id ∧ armed.get? id = some t.id := by
  induction fired generalizing armed with
  | nil => simp [expiring]
  | cons t rest ih =>
    unfold expiring
    simp only [List.mem_cons, exists_eq_or_imp]
    split
    · next ha =>
      rw [List.mem_cons, ih, Table.get?_erase]
      by_cases he : id = t.owner
      · simp [he, ha]
      · simp [he, Ne.symm he]
    · next ha =>
      rw [ih]
      refine ⟨.inr, fun hc => hc.resolve_left ?_⟩
      rintro ⟨rfl, hk⟩
      exact ha hk

theorem expiring_nodup (armed : Table ProcedureId TimerId) (fired : List Timer) :
    (expiring armed fired).Nodup := by
  induction fired generalizing armed with
  | nil => exact .nil
  | cons t rest ih =>
    unfold expiring
    split
    · refine List.nodup_cons.2 ⟨fun hm => ?_, ih _⟩
      obtain ⟨u, -, -, hu⟩ := mem_expiring_iff.1 hm
      simp at hu
    · exact ih _

/-- if every fired timer is armed, all their owners are woken -/
theorem expiring_eq {armed : Table ProcedureId TimerId} {fired : List Timer}
    (ha : ∀ t ∈ fired, armed.get? t.owner = some t.id) (hd : (fired.map (·.id)).Nodup) :
    expiring armed fired = fired.map (·.owner) := by
  induction fired generalizing armed with
  | nil => rfl
  | cons t rest ih =>
    obtain ⟨ht, hrest⟩ := List.forall_mem_cons.1 ha
    obtain ⟨hnot, hd⟩ := List.nodup_cons.1 hd
    rw [expiring, if_pos ht, List.map_cons, ih (fun u hu => ?_) hd]
    rw [Table.get?_erase, if_neg fun he => ?_, hrest u hu]
    have hid := hrest u hu
    rw [he, ht] at hid
    exact hnot (List.mem_map.2 ⟨u, hu, (Option.some.inj hid).symm⟩)

theorem foldl_expire (fired : List Timer) (e : Engine γ) : ∃ armed,
    fired.foldl expire e = { e with
      armed, wakes := e.wakes ++ (expiring e.armed fired).map (·, .timerFired) } ∧
    ∀ q, armed.get? q = if q ∈ expiring e.armed fired then none else e.armed.get? q := by
  induction fired generalizing e with
  | nil => exact ⟨e.armed, by simp [expiring], by simp [expiring]⟩
  | cons t rest ih =>
    obtain ⟨armed, he, ha⟩ := ih (e.expire t)
    by_cases ht : e.armed.get? t.owner = some t.id
    · have hexpire : e.expire t =
          { e with armed := e.armed.erase t.owner }.wake t.owner .timerFired := if_pos ht
      have hexpiring : expiring e.armed (t :: rest) =
          t.owner :: expiring (e.armed.erase t.owner) rest := if_pos ht
      rw [hexpire] at he ha
      rw [List.foldl_cons, hexpire, hexpiring]
      refine ⟨armed, by rw [he]; simp [wake], fun q => (ha q).trans ?_⟩
      by_cases hq : q = t.owner <;> simp [hq, wake, Table.get?_erase]
    · have hexpire : e.expire t = e := if_neg ht
      have hexpiring : expiring e.armed (t :: rest) = expiring e.armed rest := if_neg ht
      rw [hexpire] at he ha
      rw [List.foldl_cons, hexpire, hexpiring]
      exact ⟨armed, he, ha⟩

def resend [Gateway γ] (e : Engine γ) (id : ProcedureId) : Engine γ :=
  match e.tasks.get? id with
  | some t =>
    match t.machine.request? with
    | some message => e.transmit id { t with machine := t.machine.resent } message
        t.machine.resent.transmissions
    | none => e
  | none => e

def requests (e : Engine γ) (ids : List ProcedureId) : List (Nat × PeerMessage) :=
  ids.filterMap fun id => (e.tasks.get? id).bind fun t => t.machine.request?.map (t.slot, ·)

def resends (e : Engine γ) (ids : List ProcedureId) : List Event :=
  ids.filterMap fun id => (e.tasks.get? id).bind fun t =>
    t.machine.request?.map fun _ => .requestSent id t.machine.resent.transmissions

theorem mem_requests_iff {e : Engine γ} {ids : List ProcedureId} {x : Nat × PeerMessage} :
    x ∈ e.requests ids ↔ ∃ id ∈ ids, ∃ t, e.tasks.get? id = some t ∧ t.slot = x.1 ∧
      t.machine.request? = some x.2 := by
  rw [requests, List.mem_filterMap]
  refine exists_congr fun id => and_congr_right fun _ => ?_
  simp only [Option.bind_eq_some_iff, Option.map_eq_some_iff]
  refine exists_congr fun t => and_congr_right fun _ => ⟨?_, fun ⟨hslot, hm⟩ => ⟨_, hm, by rw [hslot]⟩⟩
  rintro ⟨message, hm, rfl⟩
  exact ⟨rfl, hm⟩

theorem requests_congr {e e' : Engine γ} {ids : List ProcedureId}
    (h : ∀ q ∈ ids, e'.tasks.get? q = e.tasks.get? q) : e'.requests ids = e.requests ids :=
  List.filterMap_congr fun q hq => by rw [h q hq]

/-- the engine once its timers have fired, and before their owners are woken -/
def tickedOver (e : Engine γ) (armed : Table ProcedureId TimerId) : Engine γ :=
  { e with timers := e.timers.advance.2, armed }

theorem Coherent.tickedOver {e : Engine γ} (h : e.Coherent []) {armed : Table ProcedureId TimerId}
    (ha : ∀ q, armed.get? q =
      if q ∈ expiring e.armed e.timers.advance.1 then none else e.armed.get? q) :
    (e.tickedOver armed).Coherent (expiring e.armed e.timers.advance.1) := by
  have hlive := TimerService.takeDue_live (e.timers.now + 1) e.timers.queue e.timers.live
  have harmed {q : ProcedureId} {k : TimerId} : armed.get? q = some k ↔
      q ∉ expiring e.armed e.timers.advance.1 ∧ e.armed.get? q = some k := by
    rw [ha]
    by_cases hq : q ∈ expiring e.armed e.timers.advance.1 <;> simp [hq]
  have hdue {q : ProcedureId} (hq : q ∈ expiring e.armed e.timers.advance.1) :
      ∃ k, e.armed.get? q = some k := by
    obtain ⟨t, -, -, hk⟩ := mem_expiring_iff.1 hq
    exact ⟨t.id, hk⟩
  refine { h with
    backoff := fun {q t} hq => ?_
    armed := fun {q k} hq => ?_
    due_known := fun {q} hq => ?_
    due_nodup := expiring_nodup _ _
    live := fun {k} hk => ?_ }
  · rw [h.backoff hq]
    simp only [List.not_mem_nil, or_false]
    constructor
    · rintro ⟨k, hk⟩
      by_cases hm : q ∈ expiring e.armed e.timers.advance.1
      · exact .inr hm
      · exact .inl ⟨k, harmed.2 ⟨hm, hk⟩⟩
    · rintro (⟨k, hk⟩ | hm)
      · exact ⟨k, (harmed.1 hk).2⟩
      · exact hdue hm
  · obtain ⟨hm, hk⟩ := harmed.1 hq
    exact ⟨(h.armed hk).1, hm⟩
  · obtain ⟨k, hk⟩ := hdue hq
    exact (h.armed hk).1
  · obtain ⟨q, hq⟩ := h.live (hlive.1 k hk)
    refine ⟨q, harmed.2 ⟨fun hm => ?_, hq⟩⟩
    obtain ⟨t, ht, -, hk'⟩ := mem_expiring_iff.1 hm
    rw [hq] at hk'
    obtain rfl := Option.some.inj hk'
    have hfired : (e.tickedOver armed).timers.isPending t.id = false := (hlive.2 t ht).2
    rw [hfired] at hk
    exact Bool.false_ne_true hk

variable [Gateway γ]

def sendAll (gateway : γ) (messages : List PeerMessage) : γ :=
  messages.foldl (fun g message => (Gateway.send g message).2) gateway

theorem foldl_resend (due : List ProcedureId) (e : Engine γ) (hd : due.Nodup) :
    ∃ tasks, due.foldl resend e = { e with
        tasks
        log := e.log ++ e.resends due
        gateway := sendAll e.gateway ((e.requests due).map (·.2)) } ∧
      ∀ q, tasks.get? q = if q ∈ due then
        (e.tasks.get? q).map fun t => { t with machine := t.machine.resent }
        else e.tasks.get? q := by
  induction due generalizing e with
  | nil => exact ⟨e.tasks, by simp [resends, requests, sendAll], by simp⟩
  | cons id rest ih =>
    obtain ⟨hnot, hd⟩ := List.nodup_cons.1 hd
    obtain ⟨tasks, he, ht⟩ := ih (e.resend id) hd
    have hsame (q : ProcedureId) (hq : q ≠ id) : (e.resend id).tasks.get? q = e.tasks.get? q := by
      unfold resend
      split
      · split
        · simp [transmit, Table.get?_insert, hq]
        · rfl
      · rfl
    have hother (q : ProcedureId) (hq : q ∈ rest) :
        (e.resend id).tasks.get? q = e.tasks.get? q := hsame q fun hc => hnot (hc ▸ hq)
    have hrest : (e.resend id).requests rest = e.requests rest := requests_congr hother
    have hlog : (e.resend id).resends rest = e.resends rest :=
      List.filterMap_congr fun q hq => by rw [hother q hq]
    refine ⟨tasks, ?_, fun q => ?_⟩
    · rw [List.foldl_cons, he, hrest, hlog]
      cases hget : e.tasks.get? id with
      | none => simp [resend, hget, requests, resends]
      | some t =>
        cases hreq : t.machine.request? with
        | none => simp [resend, hget, hreq, requests, resends]
        | some message => simp [resend, hget, hreq, requests, resends, transmit, sendAll]
    · rw [ht]
      by_cases hq : q = id
      · subst hq
        simp only [hnot, ↓reduceIte, List.mem_cons, true_or]
        cases hget : e.tasks.get? q with
        | none => simp [resend, hget]
        | some t =>
          cases hreq : t.machine.request? with
          | none => simp [resend, hget, hreq, Machine.resent_of_request? hreq]
          | some message => simp [resend, hget, hreq, transmit]
      · simp [hq, hsame q hq]

theorem run_due {e : Engine γ} {due : List ProcedureId} (h : e.Coherent due)
    (hw : e.wakes = due.map (·, .timerFired)) :
    e.run = due.foldl resend { e with wakes := [] } ∧ e.run.Coherent [] := by
  induction due generalizing e with
  | nil =>
    have hnil : { e with wakes := [] } = e := by
      cases e
      simp_all
    rw [run_of_wakes_nil hw, List.foldl_nil, hnil]
    exact ⟨rfl, h⟩
  | cons id rest ih =>
    have h₀ := h.wakes (rest.map (·, .timerFired))
    obtain ⟨t, ht⟩ := h₀.due_known (List.mem_cons_self ..)
    have hwait := (h₀.backoff ht).2 (.inr (List.mem_cons_self ..))
    obtain ⟨message, hreq, hsend⟩ := dispatch_timerFired ht (h₀.suspended ht) hwait (h₀.named ht)
    have hresend : resend { e with wakes := [] } id = { e with wakes := [] }.transmit id
        { t with machine := t.machine.resent } message t.machine.resent.transmissions := by
      have ht' : ({ e with wakes := [] }).tasks.get? id = some t := ht
      simp only [resend, ht', hreq]
    rw [run_of_wakes_cons hw, hsend, List.foldl_cons, hresend]
    exact ih (h₀.transmit ht hwait message _) rfl

theorem Coherent.advance_eq {e : Engine γ} (h : e.Coherent []) (hw : e.wakes = []) : ∃ armed,
    e.advance = (expiring e.armed e.timers.advance.1).foldl resend (e.tickedOver armed) ∧
    (∀ q, armed.get? q =
      if q ∈ expiring e.armed e.timers.advance.1 then none else e.armed.get? q) ∧
    e.advance.Coherent [] := by
  obtain ⟨armed, he, ha⟩ := foldl_expire e.timers.advance.1 { e with timers := e.timers.advance.2 }
  let due := expiring e.armed e.timers.advance.1
  have hwoken : e.advance =
      ({ e.tickedOver armed with wakes := due.map (·, .timerFired) } : Engine γ).run := by
    refine congrArg run (he.trans ?_)
    simp [hw, Engine.tickedOver, due]
  obtain ⟨hrun, hc⟩ := run_due ((h.tickedOver ha).wakes (due.map (·, .timerFired))) rfl
  rw [hwoken]
  refine ⟨armed, hrun.trans ?_, ha, hc⟩
  congr 1
  simp [Engine.tickedOver, hw]

/-- An advance changes the timers, takes away the armed ones that fired, and has their owners send
their requests. -/
theorem Coherent.advance_spec {e : Engine γ} (h : e.Coherent []) (hw : e.wakes = []) :
    ∃ tasks armed, e.advance = { e with
        tasks, armed
        timers := e.timers.advance.2
        log := e.log ++ e.resends (expiring e.armed e.timers.advance.1)
        gateway := sendAll e.gateway
          ((e.requests (expiring e.armed e.timers.advance.1)).map (·.2)) } ∧
      (∀ q, armed.get? q =
        if q ∈ expiring e.armed e.timers.advance.1 then none else e.armed.get? q) ∧
      ∀ q, tasks.get? q = if q ∈ expiring e.armed e.timers.advance.1 then
        (e.tasks.get? q).map fun t => { t with machine := t.machine.resent }
        else e.tasks.get? q := by
  obtain ⟨armed, he, ha, -⟩ := h.advance_eq hw
  obtain ⟨tasks, hr, ht⟩ := foldl_resend _ (e.tickedOver armed)
    (expiring_nodup e.armed e.timers.advance.1)
  exact ⟨tasks, armed, he.trans hr, ha, ht⟩

/-- a tick on which nobody is woken moves the time -/
theorem Coherent.advance_idle {e : Engine γ} (h : e.Coherent []) (hw : e.wakes = [])
    (hx : expiring e.armed e.timers.advance.1 = []) :
    e.advance = { e with timers := e.timers.advance.2 } := by
  obtain ⟨armed, he, ha, -⟩ := h.advance_eq hw
  obtain rfl : armed = e.armed := Table.ext_get? fun q => by simp [ha, hx]
  rw [he, hx]
  rfl

theorem Coherent.advance_of_empty {e : Engine γ} (h : e.Coherent []) (hw : e.wakes = [])
    (hempty : ∀ q, e.tasks.get? q = none) :
    e.advance = { e with timers := e.timers.advance.2 } := by
  refine h.advance_idle hw (List.eq_nil_iff_forall_not_mem.2 fun q hq => ?_)
  obtain ⟨t, -, -, hk⟩ := mem_expiring_iff.1 hq
  obtain ⟨⟨u, hu⟩, -⟩ := h.armed hk
  simp [hempty q] at hu

/-- a tick on which one instance is woken has it send its request -/
theorem Coherent.advance_single {e : Engine γ} (h : e.Coherent []) (hw : e.wakes = [])
    {id : ProcedureId} (hx : expiring e.armed e.timers.advance.1 = [id]) {t : Task}
    (ht : e.tasks.get? id = some t) {message : PeerMessage}
    (hm : t.machine.request? = some message) :
    e.advance = ({ e with timers := e.timers.advance.2, armed := e.armed.erase id }).transmit id
      { t with machine := t.machine.resent } message t.machine.resent.transmissions := by
  obtain ⟨armed, he, ha, -⟩ := h.advance_eq hw
  obtain rfl : armed = e.armed.erase id := Table.ext_get? fun q => by
    simp [ha, hx, Table.get?_erase]
  have ht' : (e.tickedOver (e.armed.erase id)).tasks.get? id = some t := ht
  rw [he, hx, List.foldl_cons, List.foldl_nil, resend, ht']
  simp only [hm]
  rfl

end NgapProcedures.Engine
