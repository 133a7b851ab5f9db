import NgapProcedures.Proofs.Engine.History

/-! The timers of an engine. As long as no number is given out twice, an armed timer waits in the
queue under the name of its procedure, and the timers that wait are the armed ones. -/

namespace NgapProcedures.Engine

variable {γ : Type}

structure Timed (e : Engine γ) : Prop where
  sound : e.timers.Sound
  kept : ∀ {id k}, e.armed.get? id = some k → ∃ d, e.timers.Waits ⟨k, id, d⟩

theorem timed_new (gateway : γ) (ids : IdSource) (config : EngineConfig) :
    (Engine.new gateway ids config).Timed where
  sound := TimerService.sound_new config.tick
  kept h := by simp [new] at h

theorem Timed.transfer {e e' : Engine γ} (h : e.Timed) (ht : e'.timers = e.timers)
    (ha : e'.armed = e.armed) : e'.Timed where
  sound := by
    rw [ht]
    exact h.sound
  kept := by
    rw [ht, ha]
    exact h.kept

/-- a timer stays while its owner does -/
theorem Timed.waits_without {e e' : Engine γ} {gone : ProcedureId → Prop} (h : e.Timed)
    (hw : e.Without e' gone) {id : ProcedureId} {k : TimerId} {d : UInt64}
    (hk : e.timers.Waits ⟨k, id, d⟩) (hg : ¬gone id) : e'.timers.Waits ⟨k, id, d⟩ := by
  obtain ⟨live, htimers⟩ := hw.timers
  refine ⟨by rw [htimers]; exact hk.1, hw.live.2 ⟨hk.2, fun q hq hqk => hg ?_⟩⟩
  -- two instances do not share a number
  obtain ⟨d', hd'⟩ := h.kept hqk
  have he := h.sound.eq_of_id hk.1 hd'.1 rfl
  exact (Timer.mk.inj he).2.1 ▸ hq

theorem Timed.without {e e' : Engine γ} {gone : ProcedureId → Prop} (h : e.Timed)
    (hw : e.Without e' gone) : e'.Timed where
  sound := by
    obtain ⟨live, htimers⟩ := hw.timers
    have hlive {k : TimerId} := hw.live (k := k)
    rw [htimers] at hlive ⊢
    exact h.sound.restrict fun k hk => (hlive.1 hk).1
  kept hk := by
    obtain ⟨hk, hg⟩ := hw.armed.1 hk
    obtain ⟨d, hd⟩ := h.kept hk
    exact ⟨d, h.waits_without hw hd hg⟩

section

variable {e : Engine γ}

theorem Timed.armed_of_waits (h : e.Timed) {due : List ProcedureId} (hc : e.Coherent due)
    {t : Timer} (ht : e.timers.Waits t) : e.armed.get? t.owner = some t.id := by
  obtain ⟨id, hid⟩ := hc.live ht.2
  obtain ⟨d, hd⟩ := h.kept hid
  have he := h.sound.eq_of_id ht.1 hd.1 rfl
  rw [he]
  exact hid

theorem Timed.expiring_eq (h : e.Timed) (hc : e.Coherent []) :
    expiring e.armed e.timers.advance.1 = e.timers.advance.1.map (·.owner) :=
  Engine.expiring_eq
    (fun _ ht => h.armed_of_waits hc ((h.sound.mem_fired_iff _).1 ht).1)
    h.sound.division_advance.distinct_fired

/-- an advance wakes those whose deadline has come -/
theorem Timed.mem_expiring_iff (h : e.Timed) (hc : e.Coherent []) {id : ProcedureId}
    {k : TimerId} {d : UInt64} (hk : e.timers.Waits ⟨k, id, d⟩) :
    id ∈ expiring e.armed e.timers.advance.1 ↔ d ≤ e.timers.now + 1 := by
  have harmed := h.armed_of_waits hc hk
  rw [Engine.mem_expiring_iff]
  constructor
  · rintro ⟨t, ht, -, hid⟩
    obtain ⟨hw, hd⟩ := (h.sound.mem_fired_iff t).1 ht
    rw [harmed] at hid
    obtain rfl := h.sound.eq_of_id hw.1 hk.1 (Option.some.inj hid).symm
    exact hd
  · intro hd
    exact ⟨_, (h.sound.mem_fired_iff _).2 ⟨hk, hd⟩, rfl, harmed⟩

theorem Timed.backOff (h : e.Timed) {id : ProcedureId} (ha : e.armed.get? id = none) (t : Task)
    (r : Rejection) (delay : Duration) (event : Event) (hn : e.timers.nextId.toNat + 1 < 2 ^ 64) :
    (e.backOff id t r delay event).Timed := by
  rw [backOff_eq ha]
  refine ⟨h.sound.scheduleTicks id _ hn, fun {q k} hk => ?_⟩
  have hwaits := h.sound.waits_scheduleTicks id (e.timers.ticksFor delay)
  rcases Table.get?_insert_eq_some_iff.1 hk with ⟨rfl, rfl⟩ | ⟨-, hk⟩
  · exact ⟨_, (hwaits _).2 (.inl rfl)⟩
  · obtain ⟨d, hd⟩ := h.kept hk
    exact ⟨d, (hwaits _).2 (.inr hd)⟩

theorem Timed.advance [Gateway γ] (h : e.Timed) (hc : e.Coherent []) (hw : e.wakes = []) :
    e.advance.Timed := by
  obtain ⟨tasks, armed, he, ha, -⟩ := hc.advance_spec hw
  rw [he]
  refine ⟨h.sound.advance, fun {q k} hk => ?_⟩
  have hk : armed.get? q = some k := hk
  rw [ha] at hk
  split at hk
  · simp at hk
  · next hq =>
    obtain ⟨d, hd⟩ := h.kept hk
    exact ⟨d, (h.sound.waits_advance _).2 ⟨hd, UInt64.not_le.1 (mt (h.mem_expiring_iff hc hd).2 hq)⟩⟩

end

/-- the number of messages handed to an engine; each starts one timer at most -/
def messages (history : List Operation) : Nat :=
  history.countP fun op => op matches .message _

theorem messages_append (a b : List Operation) : messages (a ++ b) = messages a + messages b :=
  List.countP_append

theorem messages_spelled (history : List Operation) :
    messages (history.flatMap Operation.spelled) = messages history := by
  induction history with
  | nil => rfl
  | cons op rest ih =>
    have hop : messages op.spelled = messages [op] := by
      cases op <;> simp [Operation.spelled, messages, List.countP_replicate]
    rw [List.flatMap_cons, messages_append, ih, hop, ← messages_append, List.singleton_append]

section

variable [Gateway γ] {e e' : Engine γ} {op : Operation}

theorem Timed.move (h : e.Timed) (hs : e.Steady) (hm : Move op e e')
    (hop : ∀ m, op ≠ .message m) : e'.Timed ∧ e'.timers.nextId = e.timers.nextId := by
  have hwithout {e' : Engine γ} {gone : ProcedureId → Prop} (hw : e.Without e' gone) :
      e'.Timed ∧ e'.timers.nextId = e.timers.nextId := by
    obtain ⟨live, hl⟩ := hw.timers
    exact ⟨h.without hw, by rw [hl]⟩
  cases hm with
  | named => exact ⟨h.transfer rfl rfl, rfl⟩
  | drained => exact ⟨h.transfer rfl rfl, rfl⟩
  | settled hd hw => exact hwithout hd.toWithout
  | enrolled hm => exact ⟨h.transfer rfl rfl, rfl⟩
  | linked ht hk c => exact ⟨h.transfer rfl rfl, rfl⟩
  | backedOff hb => exact absurd rfl (hop _)
  | removed _ entity => exact hwithout (hs.coherent.without_remove entity).1
  | tornDown ht => exact hwithout (ht.without hs.coherent)
  | advanced =>
    obtain ⟨tasks, armed, he, -⟩ := hs.coherent.advance_spec hs.quiet
    exact ⟨h.advance hs.coherent hs.quiet, by rw [he]; rfl⟩

/-- an operation starts one timer at most, and only a message does -/
theorem Timed.step (h : e.Timed) (hs : e.Steady) (hop : ∀ k, op ≠ .advanceBy k)
    (hn : e.timers.nextId.toNat + messages [op] < 2 ^ 64) : (e.step op).2.Timed ∧
      e.timers.nextId.toNat ≤ (e.step op).2.timers.nextId.toNat ∧
      (e.step op).2.timers.nextId.toNat ≤ e.timers.nextId.toNat + messages [op] := by
  by_cases hmsg : ∃ m, op = .message m
  · obtain ⟨m, rfl⟩ := hmsg
    rcases hs.coherent.handleMessage_cases hs.quiet m with
      he | ⟨gone, e', he, hd, -⟩ | ⟨id, t, r, delay, hb⟩
    · simp only [Engine.step, he]
      exact ⟨h, Nat.le_refl _, Nat.le_add_right ..⟩
    · obtain ⟨live, hl⟩ := hd.timers
      simp only [Engine.step, he, hl]
      exact ⟨h.without hd.toWithout, Nat.le_refl _, Nat.le_add_right ..⟩
    · obtain ⟨-, -, -, ha⟩ := hs.coherent.of_backs hb
      have hn : e.timers.nextId.toNat + 1 < 2 ^ 64 := hn
      simp only [Engine.step, hs.coherent.handleMessage_backs hs.quiet hb]
      have hnext : (e.backedOff id t r delay).timers.nextId.toNat =
          e.timers.nextId.toNat + 1 := by
        rw [backedOff, backOff_eq ha]
        exact toNat_add_one hn
      exact ⟨h.backOff ha t r delay _ hn, by omega, Nat.le_of_eq hnext⟩
  · have hop' (m : PeerMessage) : op ≠ .message m := fun he => hmsg ⟨m, he⟩
    let P (e' : Engine γ) : Prop := e'.Timed ∧ e'.timers.nextId = e.timers.nextId
    obtain ⟨-, ht, hid⟩ := hs.moves_induction (P := P)
      (fun a b ha hm hp => ⟨(hp.1.move ha hm hop').1, (hp.1.move ha hm hop').2.trans hp.2⟩)
      ⟨h, rfl⟩ (hs.moves_step hop)
    rw [hid]
    exact ⟨ht, Nat.le_refl _, Nat.le_add_right ..⟩

theorem Timed.after (h : e.Timed) (hs : e.Steady) (history : List Operation)
    (hn : e.timers.nextId.toNat + messages history < 2 ^ 64) : (e.after history).Timed ∧
      e.timers.nextId.toNat ≤ (e.after history).timers.nextId.toNat ∧
      (e.after history).timers.nextId.toNat ≤ e.timers.nextId.toNat + messages history := by
  rw [after_spelled]
  rw [← messages_spelled] at hn ⊢
  refine hs.spelled_induction (P := fun e ops => e.Timed →
    e.timers.nextId.toNat + messages ops < 2 ^ 64 → (e.after ops).Timed ∧
      e.timers.nextId.toNat ≤ (e.after ops).timers.nextId.toNat ∧
      (e.after ops).timers.nextId.toNat ≤ e.timers.nextId.toNat + messages ops)
    (fun _ h _ => ⟨h, Nat.le_refl _, Nat.le_refl _⟩) (fun {e op rest} hs hop _ ih h hn => ?_)
    history h hn
  have hcount : messages (op :: rest) = messages [op] + messages rest := messages_append [op] rest
  obtain ⟨h', hle, hid⟩ := h.step hs hop (by omega)
  obtain ⟨h'', hle', hid'⟩ := ih h' (by omega)
  simp only [Engine.after, List.foldl_cons] at hle' hid' ⊢
  exact ⟨h'', by omega, by omega⟩

theorem timed_after (gateway : γ) (ids : IdSource) (config : EngineConfig)
    (history : List Operation) (hn : messages history + 1 < 2 ^ 64) :
    ((Engine.new gateway ids config).after history).Timed ∧
      ((Engine.new gateway ids config).after history).timers.nextId.toNat ≤
        messages history + 1 := by
  rw [Nat.add_comm] at hn ⊢
  obtain ⟨ht, -, hid⟩ :=
    (timed_new gateway ids config).after (steady_new gateway ids config) history hn
  exact ⟨ht, hid⟩

end

end NgapProcedures.Engine
