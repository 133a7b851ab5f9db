import NgapProcedures.Proofs.Engine.Clock

/-! Timelines: operations, and between them whatever becomes of the gateway from outside. An engine
is as steady and as well timed along a timeline as along a history, since nothing of that lies in
the gateway. -/

namespace NgapProcedures

/-- operations, each with the change that the gateway undergoes from outside before it -/
abbrev Timeline (γ : Type) := List ((γ → γ) × Operation)

namespace Timeline

variable {γ : Type}

def operations (timeline : Timeline γ) : List Operation := timeline.map (·.2)

end Timeline

namespace Engine

variable {γ : Type}

def rewire (e : Engine γ) (change : γ → γ) : Engine γ := { e with gateway := change e.gateway }

theorem Steady.rewire {e : Engine γ} (h : e.Steady) (change : γ → γ) :
    (e.rewire change).Steady :=
  ⟨h.coherent.transfer rfl rfl rfl rfl rfl rfl rfl rfl, h.quiet⟩

theorem Timed.rewire {e : Engine γ} (h : e.Timed) (change : γ → γ) : (e.rewire change).Timed :=
  h.transfer rfl rfl

variable [Gateway γ]

/-- what the operations of a timeline return, and the engine after it -/
def play (e : Engine γ) : Timeline γ → List Answer × Engine γ
  | [] => ([], e)
  | (change, op) :: rest =>
    let (answer, e) := (e.rewire change).step op
    let (answers, e) := e.play rest
    (answer :: answers, e)

theorem play_cons (e : Engine γ) (change : γ → γ) (op : Operation) (rest : Timeline γ) :
    e.play ((change, op) :: rest) =
      (((e.rewire change).step op).1 :: (((e.rewire change).step op).2.play rest).1,
        (((e.rewire change).step op).2.play rest).2) := rfl

theorem Steady.play {e : Engine γ} (h : e.Steady) (timeline : Timeline γ) :
    (e.play timeline).2.Steady := by
  induction timeline generalizing e with
  | nil => exact h
  | cons x rest ih => exact ih ((h.rewire x.1).after [x.2])

theorem Steady.tick_play {e : Engine γ} (h : e.Steady) (timeline : Timeline γ) :
    (e.play timeline).2.timers.tick = e.timers.tick := by
  induction timeline generalizing e with
  | nil => rfl
  | cons x rest ih => exact (ih ((h.rewire x.1).after [x.2])).trans ((h.rewire x.1).tick_after [x.2])

theorem Timed.play {e : Engine γ} (h : e.Timed) (hs : e.Steady) (timeline : Timeline γ)
    (hn : e.timers.nextId.toNat + messages timeline.operations < 2 ^ 64) :
    (e.play timeline).2.Timed ∧
      e.timers.nextId.toNat ≤ (e.play timeline).2.timers.nextId.toNat ∧
      (e.play timeline).2.timers.nextId.toNat ≤
        e.timers.nextId.toNat + messages timeline.operations := by
  induction timeline generalizing e with
  | nil => exact ⟨h, Nat.le_refl _, Nat.le_refl _⟩
  | cons x rest ih =>
    have hs' := hs.rewire x.1
    have hcount : messages (Timeline.operations (x :: rest)) =
        messages [x.2] + messages (Timeline.operations rest) := messages_append [x.2] _
    have hnext : (e.rewire x.1).timers.nextId = e.timers.nextId := rfl
    obtain ⟨ht, hle, hid⟩ := (h.rewire x.1).after hs' [x.2] (by rw [hnext]; omega)
    obtain ⟨ht', hle', hid'⟩ := ih ht (hs'.after [x.2]) (by rw [hnext] at hid; omega)
    rw [hnext] at hle hid
    exact ⟨ht', Nat.le_trans hle hle', by rw [hcount]; exact Nat.le_trans hid' (by omega)⟩

theorem Steady.now_play {e : Engine γ} (h : e.Steady) (timeline : Timeline γ)
    (hfit : e.now.toNat + ticks timeline.operations < 2 ^ 64) :
    (e.play timeline).2.now.toNat = e.now.toNat + ticks timeline.operations := by
  induction timeline generalizing e with
  | nil => rfl
  | cons x rest ih =>
    have hs := h.rewire x.1
    have hcount : ticks (Timeline.operations (x :: rest)) =
        ticks [x.2] + ticks (Timeline.operations rest) := ticks_append [x.2] _
    rw [hcount] at hfit ⊢
    have hnow : ((e.rewire x.1).after [x.2]).now.toNat = e.now.toNat + ticks [x.2] :=
      hs.now_after [x.2] (by
        have hsame : (e.rewire x.1).now = e.now := rfl
        rw [hsame]
        omega)
    refine (ih (hs.after [x.2]) (by rw [hnow]; omega)).trans ?_
    rw [hnow, Nat.add_assoc]

end Engine

end NgapProcedures
