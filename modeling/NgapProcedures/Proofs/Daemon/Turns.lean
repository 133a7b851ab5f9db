import NgapProcedures.Daemon
import NgapProcedures.Proofs.Engine.Pair
import NgapProcedures.Proofs.Engine.Timeline

/-! A daemon with its peer, in turns. The clock goes on, the daemon catches up with it, the peer
answers what it was sent, and the daemon takes the next reply, in any order. Ticks go by as the clock
says, and a log that is drained loses no request from the count. -/

namespace NgapProcedures

inductive Turn where
  | clock (elapsed : Duration)
  | tick
  | serve
  | take

namespace Session

def turn (s : Session) : Turn → Session
  | .clock elapsed => s.step (.clock elapsed)
  | .tick => s.step .tick
  | .serve => { s with daemon := s.daemon.servePeer }
  | .take =>
    match s.daemon.inbound with
    | [] => s
    | m :: rest => { s with daemon := { s.daemon with inbound := rest }.deliver m }

def play (s : Session) (turns : List Turn) : Session := turns.foldl turn s

theorem play_append (s : Session) (turns rest : List Turn) :
    s.play (turns ++ rest) = (s.play turns).play rest :=
  List.foldl_append

theorem turn_take {s : Session} {m : PeerMessage} {rest : List PeerMessage}
    (h : s.daemon.inbound = m :: rest) :
    s.turn .take = { s with daemon := ({ s.daemon with inbound := rest } : Daemon).deliver m } := by
  simp only [turn, h]

end Session

/-- the turns that an input comes to; a message from elsewhere comes to none -/
def SessionInput.turns : SessionInput → List Turn
  | clock elapsed => [.clock elapsed]
  | tick => [.tick]
  | pump => [.serve, .take]
  | deliver _ => []

theorem Session.step_eq_play (s : Session) {input : SessionInput}
    (h : ∀ m, input ≠ .deliver m) : s.step input = s.play input.turns := by
  cases input with
  | clock elapsed => rfl
  | tick => rfl
  | deliver m => exact absurd rfl (h m)
  | pump =>
    simp only [SessionInput.turns, play, List.foldl_cons, List.foldl_nil, turn, step, Daemon.pump]
    cases s.daemon.servePeer.inbound with
    | nil => rfl
    | cons m rest => rfl

theorem Session.after_eq_play (s : Session) {inputs : List SessionInput}
    (h : ∀ m, .deliver m ∉ inputs) : s.after inputs = s.play (inputs.flatMap SessionInput.turns) := by
  induction inputs generalizing s with
  | nil => rfl
  | cons input rest ih =>
    have hinput (m : PeerMessage) : input ≠ .deliver m := fun he => h m (he ▸ List.mem_cons_self ..)
    have hrest (m : PeerMessage) : .deliver m ∉ rest := fun hm => h m (List.mem_cons_of_mem _ hm)
    have hplay := ih (s.step input) hrest
    rw [s.step_eq_play hinput] at hplay
    simp only [after, play, List.foldl_cons, List.flatMap_cons, List.foldl_append,
      s.step_eq_play hinput] at hplay ⊢
    exact hplay

theorem TickPacer.total_mono (p : TickPacer) {reading reading' : Duration}
    (h : reading.nanos ≤ reading'.nanos) : p.total reading ≤ p.total reading' := by
  have hdiv : (reading - p.origin).ticksIn p.tick ≤ (reading' - p.origin).ticksIn p.tick :=
    Nat.div_le_div_right (Nat.sub_le_sub_right h _)
  rw [UInt64.le_iff_toNat_le, total, total, toNat_ofNatClamp, toNat_ofNatClamp]
  omega

/-- the ticks owed are those from the last reading to this one, unless the clock has gone back -/
theorem TickPacer.toNat_due {p : TickPacer} {reading : Duration} (h : p.issued ≤ p.total reading) :
    p.issued.toNat + (p.due reading).1.toNat = (p.total reading).toNat := by
  have hle := UInt64.le_iff_toNat_le.1 h
  unfold due
  dsimp only
  split
  · next hge =>
    have := UInt64.le_iff_toNat_le.1 hge
    simp only [UInt64.toNat_zero]
    omega
  · rw [UInt64.toNat_sub_of_le _ _ h]
    omega

structure Paced (s : Session) : Prop where
  issued : s.daemon.pacer.issued = s.daemon.engine.now
  behind : s.daemon.pacer.issued ≤ s.daemon.pacer.total s.clock

/-- The ticks that are due take the engine's time to the total, which 64 bits can hold. -/
theorem Paced.due {s : Session} (h : Paced s) :
    s.daemon.engine.now.toNat + (s.daemon.pacer.due s.clock).1.toNat =
      (s.daemon.pacer.total s.clock).toNat :=
  h.issued ▸ TickPacer.toNat_due h.behind

/-- the peer takes what it was sent and replies, and nothing else happens -/
theorem Daemon.servePeer_eq (d : Daemon) : ∃ peer inbound, d.servePeer = { d with
    engine := { d.engine with gateway := ⟨d.engine.gateway.inner.receive.2⟩ }, peer, inbound } := by
  have hfold (requests : List PeerMessage) (d : Daemon) : ∃ peer inbound,
      requests.foldl (fun d request =>
        { d with
          peer := (d.peer.serve request).2.2
          inbound := d.inbound ++ (d.peer.serve request).2.1.toList }) d =
        { d with peer, inbound } := by
    induction requests generalizing d with
    | nil => exact ⟨_, _, rfl⟩
    | cons request rest ih =>
      obtain ⟨peer, inbound, he⟩ := ih _
      exact ⟨peer, inbound, he⟩
  exact hfold d.engine.gateway.inner.waiting
    { d with engine := { d.engine with gateway := ⟨d.engine.gateway.inner.receive.2⟩ } }

theorem Daemon.servePeer_frame (d : Daemon) : d.servePeer.pacer = d.pacer ∧
    d.servePeer.engine =
      { d.engine with gateway := ⟨d.engine.gateway.inner.receive.2⟩ } ∧
    d.servePeer.setupRequests = d.setupRequests := by
  obtain ⟨peer, inbound, he⟩ := d.servePeer_eq
  rw [he]
  exact ⟨rfl, rfl, rfl⟩

theorem Daemon.now_servePeer (d : Daemon) : d.servePeer.engine.now = d.engine.now := by
  rw [d.servePeer_frame.2.1]
  rfl

theorem Daemon.pacer_tick (d : Daemon) (reading : Duration) :
    (d.tick reading).2.pacer = (d.pacer.due reading).2 := by
  unfold Daemon.tick
  dsimp only
  split <;> rfl

theorem Daemon.tick_cases (d : Daemon) (reading : Duration) :
    (d.pacer.due reading).1 = 0 ∧
      (d.tick reading).2 = { d with pacer := (d.pacer.due reading).2 } ∨
    (d.tick reading).2 = tally { d with
      pacer := (d.pacer.due reading).2
      engine := d.engine.advanceBy (d.pacer.due reading).1 } := by
  unfold Daemon.tick
  dsimp only
  split
  · next h => exact .inl ⟨h, rfl⟩
  · exact .inr rfl

section

variable {s : Session}

theorem Paced.clock (h : Paced s) (elapsed : Duration) : Paced (s.step (.clock elapsed)) := by
  have hle : s.clock.nanos ≤ (s.clock + elapsed).nanos := Nat.le_add_right ..
  exact ⟨h.issued, UInt64.le_trans h.behind (s.daemon.pacer.total_mono hle)⟩

theorem Paced.now_tick (h : Paced s) (hs : s.daemon.engine.Steady) :
    (s.daemon.tick s.clock).2.engine.now = s.daemon.pacer.total s.clock := by
  have hlast := toNat_le_last (s.daemon.pacer.total s.clock)
  have hdue := h.due
  refine UInt64.toNat_inj.1 (Eq.trans ?_ hdue)
  rcases s.daemon.tick_cases s.clock with ⟨hzero, he⟩ | he
  · simp [he, hzero]
  · have hticks : Engine.ticks [.advanceBy (s.daemon.pacer.due s.clock).1] =
        (s.daemon.pacer.due s.clock).1.toNat := by simp [Engine.ticks, Operation.ticks]
    have hnow := hs.now_after [.advanceBy (s.daemon.pacer.due s.clock).1] (by omega)
    rw [hticks] at hnow
    rw [he]
    exact hnow

theorem Paced.tick (h : Paced s) (hs : s.daemon.engine.Steady) : Paced (s.step .tick) := by
  have hpacer := s.daemon.pacer_tick s.clock
  refine ⟨?_, ?_⟩
  · show (s.daemon.tick s.clock).2.pacer.issued = _
    rw [hpacer]
    exact (h.now_tick hs).symm
  · show (s.daemon.tick s.clock).2.pacer.issued ≤ (s.daemon.tick s.clock).2.pacer.total s.clock
    rw [hpacer]
    exact UInt64.le_refl _

theorem Paced.serve (h : Paced s) : Paced { s with daemon := s.daemon.servePeer } := by
  have hpacer := s.daemon.servePeer_frame.1
  have hnow := s.daemon.now_servePeer
  refine ⟨(congrArg TickPacer.issued hpacer).trans (h.issued.trans hnow.symm), ?_⟩
  simp only [hpacer]
  exact h.behind

theorem Paced.deliver (h : Paced s) (hs : s.daemon.engine.Steady) (m : PeerMessage) :
    Paced { s with daemon := s.daemon.deliver m } := by
  have hfit : s.daemon.engine.now.toNat + (Operation.message m).ticks < 2 ^ 64 :=
    s.daemon.engine.now.toNat_lt
  have hnow : (s.daemon.engine.handleMessage m).2.now = s.daemon.engine.now :=
    UInt64.toNat_inj.1 (hs.now_step (by simp) hfit)
  exact ⟨h.issued.trans hnow.symm, h.behind⟩

/-- the pace is kept through every turn -/
theorem Paced.turn (h : Paced s) (hs : s.daemon.engine.Steady) (turn : Turn) :
    Paced (s.turn turn) := by
  cases turn with
  | clock elapsed => exact h.clock elapsed
  | tick => exact h.tick hs
  | serve => exact h.serve
  | take =>
    cases hin : s.daemon.inbound with
    | nil =>
      have hsame : s.turn .take = s := by simp [Session.turn, hin]
      rw [hsame]
      exact h
    | cons m rest =>
      rw [Session.turn_take hin]
      have h' : Paced { s with daemon := { s.daemon with inbound := rest } } := ⟨h.issued, h.behind⟩
      exact h'.deliver hs m

end

end NgapProcedures
