import NgapProcedures.Proofs.Engine.Waits

/-! Time over histories. Only ticks move it, and a procedure that waits does so, silent, until the
tick that its timer is due at. -/

namespace NgapProcedures

/-- ticks that an operation takes -/
def Operation.ticks : Operation → Nat
  | .advance => 1
  | .advanceBy ticks => ticks.toNat
  | _ => 0

namespace Engine

variable {γ : Type}

def ticks (history : List Operation) : Nat := (history.map Operation.ticks).sum

theorem ticks_cons (op : Operation) (history : List Operation) :
    ticks (op :: history) = op.ticks + ticks history := rfl

theorem ticks_append (a b : List Operation) : ticks (a ++ b) = ticks a + ticks b := by
  simp [ticks]

theorem ticks_spelled (history : List Operation) :
    ticks (history.flatMap Operation.spelled) = ticks history := by
  induction history with
  | nil => rfl
  | cons op rest ih =>
    have hop : ticks op.spelled = op.ticks := by
      cases op <;> simp [Operation.spelled, ticks, Operation.ticks]
    rw [List.flatMap_cons, ticks_append, ih, hop, ticks_cons]

theorem mem_spelled_remove_iff {history : List Operation} {entity : EntityId} :
    .remove entity ∈ history.flatMap Operation.spelled ↔ .remove entity ∈ history := by
  rw [List.mem_flatMap]
  constructor
  · rintro ⟨op, hop, hm⟩
    cases op <;> simp_all [Operation.spelled]
  · exact fun hm => ⟨_, hm, by simp [Operation.spelled]⟩

variable [Gateway γ]

theorem collects_sendsDuring : Collects (γ := γ) sends sendsDuring :=
  ⟨fun _ => rfl, fun _ _ _ => rfl⟩

theorem sendsDuring_spelled (e : Engine γ) (history : List Operation) :
    e.sendsDuring history = e.sendsDuring (history.flatMap Operation.spelled) := by
  refine collects_sendsDuring.spelled (fun e k => ?_) e history
  simp only [sends]
  generalize k.toNat = n
  induction n generalizing e with
  | zero => rfl
  | succ n ih => exact congrArg (e.advanceSends ++ ·) (ih e.advance)

section

variable {e e' : Engine γ} {op : Operation}

/-- only ticks move the clock, and nothing changes their length -/
theorem Steady.clock (hs : e.Steady) (hm : Move op e e') : e'.timers.tick = e.timers.tick ∧
    (op ≠ .advance → e'.timers.now = e.timers.now) := by
  have hwithout {e' : Engine γ} {gone : ProcedureId → Prop} (hw : e.Without e' gone) :
      e'.timers.tick = e.timers.tick ∧ (op ≠ .advance → e'.timers.now = e.timers.now) := by
    obtain ⟨live, hl⟩ := hw.timers
    rw [hl]
    exact ⟨rfl, fun _ => rfl⟩
  cases hm with
  | named => exact ⟨rfl, fun _ => rfl⟩
  | drained => exact ⟨rfl, fun _ => rfl⟩
  | settled hd hw => exact hwithout hd.toWithout
  | enrolled hm => exact ⟨rfl, fun _ => rfl⟩
  | linked ht hk c => exact ⟨rfl, fun _ => rfl⟩
  | backedOff hb =>
    obtain ⟨-, -, -, ha⟩ := hs.coherent.of_backs hb
    rw [backedOff, backOff_eq ha]
    exact ⟨rfl, fun _ => rfl⟩
  | removed _ entity => exact hwithout (hs.coherent.without_remove entity).1
  | tornDown ht => exact hwithout (ht.without hs.coherent)
  | advanced =>
    obtain ⟨tasks, armed, he, -⟩ := hs.coherent.advance_spec hs.quiet
    rw [he]
    exact ⟨rfl, fun hne => absurd rfl hne⟩

theorem Steady.tick_after (h : e.Steady) (history : List Operation) :
    (e.after history).timers.tick = e.timers.tick :=
  (h.after_induction (P := fun e' => e'.timers.tick = e.timers.tick)
    (fun _ _ _ hs hm hp => (hs.clock hm).1.trans hp) rfl history).2

theorem Steady.now_advance (h : e.Steady) : e.advance.now = e.now + 1 := by
  obtain ⟨tasks, armed, he, -⟩ := h.coherent.advance_spec h.quiet
  rw [he]
  rfl

theorem Steady.now_step (h : e.Steady) (hop : ∀ k, op ≠ .advanceBy k)
    (hfit : e.now.toNat + op.ticks < 2 ^ 64) :
    (e.step op).2.now.toNat = e.now.toNat + op.ticks := by
  by_cases hadv : op = .advance
  · subst hadv
    have hnow : (e.step .advance).2.now = e.now + 1 := h.now_advance
    rw [hnow]
    exact toNat_add_one hfit
  · have hticks : op.ticks = 0 := by
      cases op with
      | advance => exact absurd rfl hadv
      | advanceBy k => exact absurd rfl (hop k)
      | _ => rfl
    have hnow := (h.moves_induction (P := fun e' => e'.timers.now = e.timers.now)
      (fun _ _ hs hm hp => ((hs.clock hm).2 hadv).trans hp) rfl (h.moves_step hop)).2
    rw [hticks]
    exact congrArg UInt64.toNat hnow

end

theorem Steady.now_after {e : Engine γ} (h : e.Steady) (history : List Operation)
    (hfit : e.now.toNat + ticks history < 2 ^ 64) :
    (e.after history).now.toNat = e.now.toNat + ticks history := by
  rw [after_spelled]
  rw [← ticks_spelled] at hfit ⊢
  refine h.spelled_induction (P := fun e ops => e.now.toNat + ticks ops < 2 ^ 64 →
    (e.after ops).now.toNat = e.now.toNat + ticks ops) (fun _ _ => rfl)
    (fun {e op rest} h hop _ ih hfit => ?_) history hfit
  rw [ticks_cons] at hfit ⊢
  have hnow := h.now_step hop (by omega)
  refine (ih (by rw [hnow]; omega)).trans ?_
  rw [hnow, Nat.add_assoc]

/-- A vacant slot stays vacant, keeps what was left there, and never sends again. -/
theorem Vacant.after {e : Engine γ} {slot : Nat} {result : Option Result}
    (h : e.Vacant slot result) (hs : e.Steady) (history : List Operation) :
    (e.after history).Vacant slot result ∧ sentBy slot (e.sendsDuring history) = [] := by
  rw [after_spelled, sendsDuring_spelled]
  refine hs.spelled_induction (P := fun e ops => e.Vacant slot result →
    (e.after ops).Vacant slot result ∧ sentBy slot (e.sendsDuring ops) = [])
    (fun _ h => ⟨h, rfl⟩) (fun {e op rest} hs hop _ ih h => ?_) history h
  have hv := (hs.moves_induction (P := fun e' => e'.Vacant slot result)
    (fun _ _ ha hm hp => hp.move ha hm) h (hs.moves_step hop)).2
  obtain ⟨hv', hsent⟩ := ih hv
  have hsends : e.sendsDuring (op :: rest) = e.sends op ++ (e.step op).2.sendsDuring rest := rfl
  exact ⟨hv', by rw [hsends, sentBy_append, h.silent hs hop, hsent, List.append_nil]⟩

/-- What becomes of a procedure that waits, before its timer is due: it goes on waiting, or its slot
is vacant, and so far it has sent nothing. -/
theorem Waiting.after {e : Engine γ} {id : ProcedureId} {t : Task} {k : TimerId} {d : UInt64}
    (h : e.Waiting id t k d) (hs : e.Steady) (ht : e.Timed) (history : List Operation)
    (hn : e.timers.nextId.toNat + messages history < 2 ^ 64)
    (hd : e.now.toNat + ticks history < d.toNat) :
    ((e.after history).Waiting id t k d ∨
      (e.after history).Vacant t.slot (some t.machine.cancellation) ∨
      (e.after history).Vacant t.slot none ∧ .remove t.machine.entity ∈ history) ∧
    sentBy t.slot (e.sendsDuring history) = [] := by
  rw [after_spelled, sendsDuring_spelled, ← mem_spelled_remove_iff]
  rw [← messages_spelled] at hn
  rw [← ticks_spelled] at hd
  refine hs.spelled_induction (P := fun e ops => e.Waiting id t k d → e.Timed →
    e.timers.nextId.toNat + messages ops < 2 ^ 64 → e.now.toNat + ticks ops < d.toNat →
    ((e.after ops).Waiting id t k d ∨
      (e.after ops).Vacant t.slot (some t.machine.cancellation) ∨
      (e.after ops).Vacant t.slot none ∧ .remove t.machine.entity ∈ ops) ∧
    sentBy t.slot (e.sendsDuring ops) = []) (fun _ h _ _ _ => ⟨.inl h, rfl⟩)
    (fun {e op rest} hs hop hs' ih h ht hn hd => ?_) history h ht hn hd
  rw [ticks_cons] at hd
  have hcount : messages (op :: rest) = messages [op] + messages rest := messages_append [op] rest
  obtain ⟨ht', -, hid⟩ := ht.step hs hop (by omega)
  have hlast := toNat_le_last d
  have hnow := hs.now_step hop (by omega)
  have hahead (hadv : op = .advance) : e.now + 1 < d := by
    subst hadv
    rw [UInt64.lt_iff_toNat_lt, toNat_add_one (by simp only [Operation.ticks] at hd; omega)]
    simp only [Operation.ticks] at hd
    omega
  have hfate : (e.step op).2.Waiting id t k d ∨
      (e.step op).2.Vacant t.slot (some t.machine.cancellation) ∨
      (e.step op).2.Vacant t.slot none ∧ op = .remove t.machine.entity := by
    by_cases hadv : op = .advance
    · subst hadv
      exact .inl (h.advance hs ht (hahead rfl))
    · exact h.step hs ht hop hadv
  have hsends : e.sendsDuring (op :: rest) = e.sends op ++ (e.step op).2.sendsDuring rest := rfl
  rw [hsends, sentBy_append, h.silent hs ht hop hahead, List.nil_append]
  rcases hfate with hw | hv | ⟨hv, rfl⟩
  · obtain ⟨hfate', hsent⟩ := ih hw ht' (by omega) (by rw [hnow]; omega)
    refine ⟨hfate'.imp_right (Or.imp_right fun hr => ?_), hsent⟩
    exact ⟨hr.1, List.mem_cons_of_mem _ hr.2⟩
  · obtain ⟨hv', hsent⟩ := hv.after hs' rest
    exact ⟨.inr (.inl hv'), hsent⟩
  · obtain ⟨hv', hsent⟩ := hv.after hs' rest
    exact ⟨.inr (.inr ⟨hv', List.mem_cons_self ..⟩), hsent⟩

end Engine

end NgapProcedures
