import NgapProcedures.Proofs.Engine.Silence
import NgapProcedures.Proofs.Engine.Timing

/-! A procedure that waits out a backoff. Whatever is done to the engine, it keeps its task and its
timer until the timer is due, or its slot is vacated for good by a cancellation or a removal. -/

namespace NgapProcedures.Engine

variable {γ : Type}

structure Waiting (e : Engine γ) (id : ProcedureId) (t : Task) (k : TimerId) (d : UInt64) :
    Prop where
  task : e.tasks.get? id = some t
  backoff : t.machine.waitingFor = .timer
  timer : e.timers.Waits ⟨k, id, d⟩

/-- a slot that was given out and whose instance is gone, with what it left there -/
structure Vacant (e : Engine γ) (slot : Nat) (result : Option Result) : Prop where
  issued : slot < e.started
  unoccupied : ∀ {q u}, e.tasks.get? q = some u → u.slot ≠ slot
  result : e.results.get? slot = result

def sentBy (slot : Nat) (sent : List (Nat × PeerMessage)) : List PeerMessage :=
  sent.filterMap fun x => if x.1 = slot then some x.2 else none

theorem sentBy_append (slot : Nat) (a b : List (Nat × PeerMessage)) :
    sentBy slot (a ++ b) = sentBy slot a ++ sentBy slot b :=
  List.filterMap_append ..

theorem sentBy_eq_nil {slot : Nat} {sent : List (Nat × PeerMessage)}
    (h : ∀ x ∈ sent, x.1 ≠ slot) : sentBy slot sent = [] :=
  List.filterMap_eq_nil_iff.2 fun x hx => if_neg (h x hx)

section

variable {e e' : Engine γ} {slot : Nat} {result : Option Result}

theorem Vacant.without {gone : ProcedureId → Prop} (h : e.Vacant slot result)
    (hw : e.Without e' gone) : e'.Vacant slot result where
  issued := hw.started ▸ h.issued
  unoccupied hq := h.unoccupied (hw.tasks.1 hq).1
  result := (hw.results fun _ _ hu _ => h.unoccupied hu).trans h.result

/-- whoever goes leaves a vacant slot -/
theorem Coherent.vacant (h : e.Coherent []) {gone : ProcedureId → Prop} (hw : e.Without e' gone)
    {id : ProcedureId} {t : Task} (ht : e.tasks.get? id = some t) (hg : gone id) :
    e'.Vacant t.slot (e'.results.get? t.slot) where
  issued := hw.started ▸ (h.slot ht).1
  unoccupied hq he := (hw.tasks.1 hq).2 (h.apart ht (hw.tasks.1 hq).1 he.symm ▸ hg)
  result := rfl

theorem Coherent.vacant_remove (h : e.Coherent []) {id : ProcedureId} {t : Task}
    (ht : e.tasks.get? id = some t) {entity : EntityId} (hg : id ∈ e.registry.ids entity) :
    (e.remove entity).2.Vacant t.slot none := by
  obtain ⟨hw, hres, -⟩ := h.without_remove entity
  have hv := h.vacant hw ht hg
  rwa [hres, (h.slot ht).2] at hv

theorem Waiting.without {id : ProcedureId} {t : Task} {k : TimerId} {d : UInt64}
    (h : e.Waiting id t k d) (ht : e.Timed) {gone : ProcedureId → Prop} (hw : e.Without e' gone)
    (hg : ¬gone id) : e'.Waiting id t k d where
  task := hw.tasks.2 ⟨h.task, hg⟩
  backoff := h.backoff
  timer := ht.waits_without hw h.timer hg

end

variable [Gateway γ]

section

variable {e e' : Engine γ} {op : Operation}

/-- no move fills a vacant slot -/
theorem Vacant.move {slot : Nat} {result : Option Result} (h : e.Vacant slot result)
    (hs : e.Steady) (hm : Move op e e') : e'.Vacant slot result := by
  cases hm with
  | named => exact ⟨h.issued, h.unoccupied, h.result⟩
  | drained => exact ⟨h.issued, h.unoccupied, h.result⟩
  | settled hd hw => exact h.without hd.toWithout
  | @enrolled _ _ m registry hm =>
    refine ⟨Nat.lt_succ_of_lt h.issued, fun {q u} hq => ?_, h.result⟩
    rcases get?_enroll_cases hq with ⟨-, rfl⟩ | ⟨-, hq⟩
    · exact Nat.ne_of_gt h.issued
    · exact h.unoccupied hq
  | linked ht hk c => exact ⟨h.issued, h.unoccupied, h.result⟩
  | @backedOff m _ id t r delay hb =>
    obtain ⟨-, -, -, ha⟩ := hs.coherent.of_backs hb
    rw [backedOff, backOff_eq ha]
    refine ⟨h.issued, fun {q u} hq => ?_, h.result⟩
    rcases Table.get?_insert_eq_some_iff.1 hq with ⟨-, rfl⟩ | ⟨-, hq⟩
    · have hne : t.slot ≠ slot := h.unoccupied hb.task
      exact hne
    · exact h.unoccupied hq
  | removed _ entity => exact h.without (hs.coherent.without_remove entity).1
  | tornDown ht => exact h.without (ht.without hs.coherent)
  | advanced =>
    obtain ⟨tasks, armed, he, -, ht⟩ := hs.coherent.advance_spec hs.quiet
    rw [he]
    refine ⟨h.issued, fun {q u} hq => ?_, h.result⟩
    have hq : tasks.get? q = some u := hq
    rw [ht] at hq
    split at hq
    · obtain ⟨v, hv, rfl⟩ := Option.map_eq_some_iff.1 hq
      have hne : v.slot ≠ slot := h.unoccupied hv
      exact hne
    · exact h.unoccupied hq

/-- A vacant slot sends nothing. -/
theorem Vacant.silent {slot : Nat} {result : Option Result} (h : e.Vacant slot result)
    (hs : e.Steady) (hop : ∀ k, op ≠ .advanceBy k) : sentBy slot (e.sends op) = [] := by
  refine sentBy_eq_nil fun x hx => ?_
  rcases hs.mem_sends hop hx with he | ⟨-, hx⟩
  · rw [he]
    exact Nat.ne_of_gt h.issued
  · obtain ⟨q, -, u, hu, hslot, -⟩ := mem_requests_iff.1 hx
    exact hslot ▸ h.unoccupied hu

/-- A move other than a tick leaves the procedure waiting, or it is cancelled or removed. -/
theorem Waiting.move {id : ProcedureId} {t : Task} {k : TimerId} {d : UInt64}
    (h : e.Waiting id t k d) (hs : e.Steady) (ht : e.Timed) (hm : Move op e e')
    (hop : op ≠ .advance) : e'.Waiting id t k d ∨
      e'.Vacant t.slot (some t.machine.cancellation) ∨
      e'.Vacant t.slot none ∧ op = .remove t.machine.entity := by
  cases hm with
  | named => exact .inl ⟨h.task, h.backoff, h.timer⟩
  | drained => exact .inl ⟨h.task, h.backoff, h.timer⟩
  | @settled _ _ _ gone hd hw =>
    by_cases hg : gone id
    · obtain ⟨r, hr, hc⟩ := hd.ended h.task hg
      have hv := hs.coherent.vacant hd.toWithout h.task hg
      rw [hr, hc h.backoff] at hv
      exact .inr (.inl hv)
    · exact .inl (h.without ht hd.toWithout hg)
  | @enrolled _ _ m registry hm =>
    refine .inl ⟨(Table.get?_insert_other _ _ fun he => ?_).trans h.task, h.backoff, h.timer⟩
    have hnew := hm.new
    rw [← he, h.task] at hnew
    simp at hnew
  | linked hp hk c => exact .inl ⟨h.task, h.backoff, h.timer⟩
  | @backedOff m _ q u r delay hb =>
    obtain ⟨-, -, hwait, ha⟩ := hs.coherent.of_backs hb
    have hne : id ≠ q := by
      rintro rfl
      have hu := hb.task
      rw [h.task] at hu
      rw [← Option.some.inj hu, h.backoff] at hwait
      simp at hwait
    rw [backedOff, backOff_eq ha]
    refine .inl ⟨(Table.get?_insert_other _ _ hne).trans h.task, h.backoff, ?_⟩
    exact (ht.sound.waits_scheduleTicks q (e.timers.ticksFor delay) _).2 (.inr h.timer)
  | removed _ entity =>
    have hw := (hs.coherent.without_remove entity).1
    by_cases hg : id ∈ e.registry.ids entity
    · have hv := hs.coherent.vacant_remove h.task hg
      obtain ⟨u, hu, he⟩ := hs.coherent.registered.1 hg
      rw [h.task] at hu
      rw [← Option.some.inj hu] at he
      exact .inr (.inr ⟨hv, by rw [he]⟩)
    · exact .inl (h.without ht hw hg)
  | @tornDown _ _ gone hd =>
    have hv := hs.coherent.vacant (hd.without hs.coherent) h.task trivial
    have hr := (hd.results t.slot t.machine.cancellation).2
      (.inr ⟨id, (hd.gone_iff id).2 ⟨t, h.task⟩, t, h.task, rfl, rfl⟩)
    rw [hr] at hv
    exact .inr (.inl hv)
  | advanced => exact absurd rfl hop

theorem Waiting.step {id : ProcedureId} {t : Task} {k : TimerId} {d : UInt64}
    (h : e.Waiting id t k d) (hs : e.Steady) (ht : e.Timed) (hop : ∀ k, op ≠ .advanceBy k)
    (hadv : op ≠ .advance) : (e.step op).2.Waiting id t k d ∨
      (e.step op).2.Vacant t.slot (some t.machine.cancellation) ∨
      (e.step op).2.Vacant t.slot none ∧ op = .remove t.machine.entity := by
  by_cases hmsg : ∃ m, op = .message m
  · obtain ⟨m, rfl⟩ := hmsg
    rcases hs.coherent.handleMessage_cases hs.quiet m with
      he | ⟨gone, e', he, hd, hw⟩ | ⟨q, u, r, delay, hb⟩
    · simp only [Engine.step, he]
      exact .inl h
    · simp only [Engine.step, he]
      exact h.move hs ht (.settled hd hw) hadv
    · simp only [Engine.step, hs.coherent.handleMessage_backs hs.quiet hb]
      exact h.move hs ht (.backedOff hb) hadv
  · have hop' (m : PeerMessage) : op ≠ .message m := fun he => hmsg ⟨m, he⟩
    let P (e' : Engine γ) : Prop := e'.Timed ∧ (e'.Waiting id t k d ∨
      e'.Vacant t.slot (some t.machine.cancellation) ∨
      e'.Vacant t.slot none ∧ op = .remove t.machine.entity)
    refine (hs.moves_induction (P := P) (fun a b ha hm hp => ?_) ⟨ht, .inl h⟩
      (hs.moves_step hop)).2.2
    obtain ⟨hta, hfate⟩ := hp
    refine ⟨(hta.move ha hm hop').1, ?_⟩
    rcases hfate with hfate | hfate | ⟨hfate, he⟩
    · exact hfate.move ha hta hm hadv
    · exact .inr (.inl (hfate.move ha hm))
    · exact .inr (.inr ⟨hfate.move ha hm, he⟩)

theorem Waiting.advance {id : ProcedureId} {t : Task} {k : TimerId} {d : UInt64}
    (h : e.Waiting id t k d) (hs : e.Steady) (ht : e.Timed) (hd : e.now + 1 < d) :
    e.advance.Waiting id t k d := by
  have hnot := mt (ht.mem_expiring_iff hs.coherent h.timer).1 (UInt64.not_le.2 hd)
  obtain ⟨tasks, armed, he, -, htasks⟩ := hs.coherent.advance_spec hs.quiet
  rw [he]
  refine ⟨(htasks id).trans ((if_neg hnot).trans h.task), h.backoff, ?_⟩
  exact (ht.sound.waits_advance _).2 ⟨h.timer, hd⟩

/-- A waiting procedure sends nothing, unless a tick makes its timer due. -/
theorem Waiting.silent {id : ProcedureId} {t : Task} {k : TimerId} {d : UInt64}
    (h : e.Waiting id t k d) (hs : e.Steady) (ht : e.Timed) (hop : ∀ k, op ≠ .advanceBy k)
    (hd : op = .advance → e.now + 1 < d) : sentBy t.slot (e.sends op) = [] := by
  refine sentBy_eq_nil fun x hx => ?_
  rcases hs.mem_sends hop hx with he | ⟨rfl, hdue⟩
  · rw [he]
    exact Nat.ne_of_gt (hs.coherent.slot h.task).1
  · obtain ⟨q, hq, u, hu, hx, -⟩ := mem_requests_iff.1 hdue
    intro hslot
    obtain rfl := hs.coherent.apart hu h.task (hx.trans hslot)
    exact UInt64.not_le.2 (hd rfl) ((ht.mem_expiring_iff hs.coherent h.timer).1 hq)

end

end NgapProcedures.Engine
