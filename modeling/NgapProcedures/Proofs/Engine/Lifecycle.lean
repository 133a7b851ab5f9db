import NgapProcedures.Proofs.Engine.Becomes
import NgapProcedures.Proofs.Engine.Clock

/-! The life of an instance as its handle tells it. A launched instance is live and its handle not
ready, until an operation settles it, and the handle is ready with a result that stays, or removes its
entity, and the handle will never be ready. -/

namespace NgapProcedures.Engine

variable {γ : Type}

structure Alive (e : Engine γ) (h : Handle) : Prop where
  known : ∃ t, e.tasks.get? h.id = some t ∧ t.slot = h.slot
  live : e.isLive h.id = true
  unready : e.ready h = false

/-- nobody has the slot of the handle, whatever name he goes by -/
def Unknown (e : Engine γ) (h : Handle) : Prop :=
  ∀ q t, e.tasks.get? q = some t → t.slot ≠ h.slot

inductive Phase where
  | live | settled | removed
  deriving DecidableEq

/-- the phase that the instance of a handle is in after a history -/
def InPhase [Gateway γ] (e : Engine γ) (h : Handle) (history : List Operation) : Phase → Prop
  | .live => (e.after history).Alive h
  | .settled => (e.after history).Unknown h ∧ (e.after history).ready h = true
  | .removed => (e.after history).Unknown h ∧
    (∃ before entity rest, history = before ++ .remove entity :: rest ∧
      (e.after before).Alive h ∧ h.id ∈ (e.after before).registry.ids entity) ∧
    ∀ future, (e.after (history ++ future)).ready h = false

section

variable {e : Engine γ} {h : Handle}

theorem Coherent.alive (hc : e.Coherent []) {t : Task} (ht : e.tasks.get? h.id = some t)
    (hslot : t.slot = h.slot) : e.Alive h where
  known := ⟨t, ht, hslot⟩
  live := by simp [isLive, ht, hc.isTerminal ht]
  unready := by simp [ready, result?, ← hslot, (hc.slot ht).2]

theorem Alive.known_of_unknown (ha : e.Alive h) : ¬e.Unknown h := by
  obtain ⟨t, ht, hslot⟩ := ha.known
  exact fun hu => hu h.id t ht hslot

theorem Vacant.unknown {result : Option Result} (hv : e.Vacant h.slot result) : e.Unknown h :=
  fun _ _ ht => hv.unoccupied ht

theorem result_of_result? {r : Result} (hr : e.result? h = some r) : e.result h = .ok r := by
  simp [result, hr]

end

variable [Gateway γ] {e : Engine γ} {h : Handle}

/-- what may become of a live instance in an operation -/
def Passes (e : Engine γ) (h : Handle) (op : Operation) : Prop :=
  (e.step op).2.Alive h ∨ (∃ r, (e.step op).2.Vacant h.slot (some r)) ∨
    ∃ entity, op = .remove entity ∧ h.id ∈ e.registry.ids entity ∧
      (e.step op).2.Vacant h.slot none

theorem Alive.passes (ha : e.Alive h) (hs : e.Steady) {op : Operation}
    (hop : ∀ k, op ≠ .advanceBy k) : e.Passes h op := by
  obtain ⟨t, ht, hslot⟩ := ha.known
  have hc := (hs.moves (hs.moves_step hop)).coherent
  have hb := hs.becomes_step hop h.id
  rw [ht] at hb
  rw [Passes, ← hslot]
  generalize told h.id (e.logged op) = events at hb
  cases hb with
  | kept _ ht' => exact .inl (hc.alive ht' hslot)
  | backedOff _ _ ht' => exact .inl (hc.alive ht' hslot)
  | resent _ _ _ ht' => exact .inl (hc.alive ht' hslot)
  | settled _ _ hv => exact .inr (.inl ⟨_, hv⟩)
  | removed hop _ hv => exact .inr (.inr ⟨_, hop, hs.coherent.registered.2 ⟨t, ht, rfl⟩, hv⟩)

theorem Alive.ticks (ha : e.Alive h) (hs : e.Steady) (n : Nat) :
    (e.after (List.replicate n .advance)).Alive h ∨
      ∃ r, (e.after (List.replicate n .advance)).Vacant h.slot (some r) := by
  induction n with
  | zero => exact .inl ha
  | succ n ih =>
    rw [List.replicate_succ', after_append]
    have hs' := hs.after (List.replicate n .advance)
    rcases ih with ha | ⟨r, hv⟩
    · have htick : Passes _ h .advance := ha.passes hs' (by simp)
      rcases htick with ha | hv | ⟨entity, hop, -⟩
      · exact .inl ha
      · exact .inr hv
      · simp at hop
    · exact .inr ⟨r, (hv.after hs' [.advance]).1⟩

theorem Alive.step (ha : e.Alive h) (hs : e.Steady) (op : Operation) : e.Passes h op := by
  by_cases hop : ∀ k, op ≠ .advanceBy k
  · exact ha.passes hs hop
  · obtain ⟨k, rfl⟩ : ∃ k, op = .advanceBy k := by simpa using hop
    rw [Passes, show (e.step (.advanceBy k)).2 = _ from e.advanceBy_eq k]
    exact (ha.ticks hs k.toNat).imp_right .inl

/-- what has become of a live instance after a history -/
theorem Alive.after (ha : e.Alive h) (hs : e.Steady) (history : List Operation) :
    (e.after history).Alive h ∨ (∃ r, (e.after history).Vacant h.slot (some r)) ∨
      (e.after history).Vacant h.slot none ∧ ∃ before entity rest,
        history = before ++ .remove entity :: rest ∧ (e.after before).Alive h ∧
        h.id ∈ (e.after before).registry.ids entity := by
  induction history using List.reverseRecOn with
  | nil => exact .inl ha
  | append_singleton history op ih =>
    have hs' := hs.after history
    rw [after_append]
    rcases ih with ha | ⟨r, hv⟩ | ⟨hv, before, entity, rest, rfl, hrest⟩
    · refine (ha.step hs' op).imp_right (Or.imp_right ?_)
      rintro ⟨entity, rfl, hm, hv⟩
      exact ⟨hv, history, entity, [], rfl, ha, hm⟩
    · exact .inr (.inl ⟨r, (hv.after hs' [op]).1⟩)
    · exact .inr (.inr ⟨(hv.after hs' [op]).1, before, entity, rest ++ [op], by simp, hrest⟩)

theorem Alive.inPhase (ha : e.Alive h) (hs : e.Steady) (history : List Operation) :
    ∃! phase, e.InPhase h history phase := by
  have hready (hv : (e.after history).Vacant h.slot none) (future : List Operation) :
      (e.after (history ++ future)).ready h = false := by
    rw [after_append]
    simp [ready, result?, (hv.after (hs.after history) future).1.result]
  rcases ha.after hs history with ha' | ⟨r, hv⟩ | ⟨hv, hcut⟩
  · refine ⟨.live, ha', fun phase hp => ?_⟩
    cases phase with
    | live => rfl
    | settled => exact absurd hp.1 ha'.known_of_unknown
    | removed => exact absurd hp.1 ha'.known_of_unknown
  · have hr : (e.after history).ready h = true := by simp [ready, result?, hv.result]
    refine ⟨.settled, ⟨hv.unknown, hr⟩, fun phase hp => ?_⟩
    cases phase with
    | live => exact absurd hv.unknown hp.known_of_unknown
    | settled => rfl
    | removed =>
      have hnever := hp.2.2 []
      rw [List.append_nil, hr] at hnever
      exact absurd hnever (by simp)
  · refine ⟨.removed, ⟨hv.unknown, hcut, hready hv⟩, fun phase hp => ?_⟩
    cases phase with
    | live => exact absurd hv.unknown hp.known_of_unknown
    | settled =>
      have hnever := hready hv []
      rw [List.append_nil, hp.2] at hnever
      exact absurd hnever (by simp)
    | removed => rfl

/-- what a slot holds, it goes on holding -/
theorem Alive.result_after (ha : e.Alive h) (hs : e.Steady) {history : List Operation} {r : Result}
    (hr : (e.after history).results.get? h.slot = some r) (future : List Operation) :
    (e.after (history ++ future)).results.get? h.slot = some r := by
  rw [after_append]
  rcases ha.after hs history with ha' | ⟨r', hv⟩ | ⟨hv, -⟩
  · have := ha'.unready
    simp [ready, result?, hr] at this
  · obtain rfl := Option.some.inj (hv.result.symm.trans hr)
    exact (hv.after (hs.after history) future).1.result
  · have := hv.result
    simp [hr] at this

/-- a launch that returns a handle leaves its instance live -/
theorem Steady.alive_step (hs : e.Steady) {op : Operation} (hl : (e.step op).1 = .handle h) :
    (e.step op).2.Alive h := by
  have hop : ∀ k, op ≠ .advanceBy k := by
    rintro k rfl
    simp [Engine.step] at hl
  have hc := (hs.moves (hs.moves_step hop)).coherent
  -- the machine taken in last is the one that the handle is for
  have henroll {e₁ : Engine γ} {m : Machine} (hh : ⟨m.id, e₁.started⟩ = h)
      (he : (e.step op).2 = e₁.enroll m) : (e.step op).2.Alive h := by
    subst hh
    exact hc.alive ((congrArg (·.tasks.get? m.id) he).trans (Table.get?_insert_self ..)) rfl
  have hhandle {launched : Except LaunchError Handle × Engine γ} {h' : Handle} {e' : Engine γ}
      (he : launched = (.ok h', e')) (hl : Answer.ofLaunch launched.1 = .handle h) : h' = h := by
    simpa [he, Answer.ofLaunch] using hl
  cases op with
  | setup request =>
    rcases launchSetup_cases hs.quiet request with ⟨error, he⟩ | ⟨registry, hm, he⟩
    · simp [Engine.step, he, Answer.ofLaunch] at hl
    · exact henroll (hhandle he hl) (congrArg Prod.snd he)
  | update request =>
    rcases launchConfigUpdate_cases hs.quiet request with ⟨error, he⟩ | ⟨registry, hm, he⟩
    · simp [Engine.step, he, Answer.ofLaunch] at hl
    · exact henroll (hhandle he hl) (congrArg Prod.snd he)
  | connect controller request =>
    rcases launchConnection_cases hs.coherent hs.quiet controller request with
      ⟨error, ids, he, -⟩ | ⟨registry, hm, -, -, ⟨error, he⟩ | ⟨registry', hm', he⟩⟩
    · simp [Engine.step, he, Answer.ofLaunch] at hl
    · simp [Engine.step, he, Answer.ofLaunch] at hl
    · exact henroll (hhandle he hl) (congrArg Prod.snd he)
  | _ => simp [Engine.step] at hl

/-- The instance of a handle that a launch returned is in exactly one phase after any operations, and a
result that has been read once is read by every later reader of its slot. -/
theorem lifecycle_after (gateway : γ) (ids : IdSource) (config : EngineConfig)
    (history : List Operation) (launch : Operation) (h : Handle)
    (hl : (((Engine.new gateway ids config).after history).step launch).1 = .handle h) :
    let e := (((Engine.new gateway ids config).after history).step launch).2
    (∀ future, ∃! phase, e.InPhase h future phase) ∧
    ∀ future r, (e.after future).result h = .ok r →
      ∀ more clone, clone.slot = h.slot → (e.after (future ++ more)).result clone = .ok r := by
  intro e
  have hs := steady_after gateway ids config history
  have hs' : e.Steady := hs.after [launch]
  have ha : e.Alive h := hs.alive_step hl
  refine ⟨ha.inPhase hs', fun future r hr more clone hclone => ?_⟩
  have hr : (e.after future).results.get? h.slot = some r := by
    unfold result result? at hr
    split at hr
    · next hget => exact hget.trans (congrArg some (Except.ok.inj hr))
    · simp at hr
  exact result_of_result? ((congrArg _ hclone).trans (ha.result_after hs' hr more))

/-- a connection whose entity is removed while it waits -/
theorem lifecycle_after_connect :
    let launch : Operation := .connect ⟨"ngc"⟩
      ⟨⟨"amf-1"⟩, ⟨⟨"00101", 411, 22⟩, none, [⟨7, ["00101"]⟩], .v128⟩, 1⟩
    let e := ((Engine.new (⟨⟩ : NoGateway) .sequential {}).step launch).2
    let h : Handle := ⟨⟨"proc-2"⟩, 1⟩
    e.InPhase h [] .live ∧ ∃! phase, e.InPhase h [.remove ⟨"ngc"⟩] phase := by
  intro launch e h
  have hlaunch : ((Engine.new (⟨⟩ : NoGateway) .sequential {}).step launch).1 = .handle h := by
    decide +kernel
  obtain ⟨hall, -⟩ := lifecycle_after _ _ _ [] _ h hlaunch
  exact ⟨(steady_new _ _ _).alive_step hlaunch, hall _⟩

end NgapProcedures.Engine
