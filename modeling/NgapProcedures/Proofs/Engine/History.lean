import Mathlib.Logic.Relation
import NgapProcedures.Proofs.Engine.Launch
import NgapProcedures.Proofs.Engine.Teardown
import NgapProcedures.Proofs.Engine.Ticking

/-! Operations as moves. Between two operations the engine is steady: coherent and with nothing left
to be dispatched. An operation takes it there by moves of a few kinds, and what every move keeps
holds after every history. -/

namespace NgapProcedures

def Operation.spelled : Operation → List Operation
  | .advanceBy ticks => List.replicate ticks.toNat .advance
  | op => [op]

namespace Engine

variable {γ : Type}

structure Steady (e : Engine γ) : Prop where
  coherent : e.Coherent []
  quiet : e.wakes = []

theorem steady_new (gateway : γ) (ids : IdSource) (config : EngineConfig) :
    (Engine.new gateway ids config).Steady :=
  ⟨coherent_new gateway ids config, rfl⟩

variable [Gateway γ]

inductive Move : Operation → Engine γ → Engine γ → Prop where
  | named {op : Operation} (e : Engine γ) (ids : IdSource) : Move op e { e with ids }
  | drained (e : Engine γ) : Move .drainEvents e { e with log := [] }
  | settled {op : Operation} {e e' : Engine γ} {gone : ProcedureId → Prop}
      (hs : e.Settled e' gone) (hw : e'.wakes = []) : Move op e e'
  | enrolled {op : Operation} {e : Engine γ} {m : Machine} {registry : Registry}
      (hm : e.Admissible m registry) : Move op e ({ e with registry }.enroll m)
  | linked {op : Operation} {e : Engine γ} {s : ProcedureId} {t : Task}
      (ht : e.tasks.get? s = some t) (hk : t.machine.kind = .ngSetup) (c : ProcedureId) :
      Move op e { e with parents := e.parents.insert s c }
  | backedOff {m : PeerMessage} {e : Engine γ} {id : ProcedureId} {t : Task} {r : Rejection}
      {delay : Duration} (hb : e.Backs m id t r delay) :
      Move (.message m) e (e.backedOff id t r delay)
  | removed (e : Engine γ) (entity : EntityId) : Move (.remove entity) e (e.remove entity).2
  | tornDown {e e' : Engine γ} {gone : List ProcedureId} (ht : TornDown e e' gone) :
      Move .transportLost e e'
  | advanced (e : Engine γ) : Move .advance e e.advance

section

variable {e e' : Engine γ} {op : Operation}

theorem Steady.move (h : e.Steady) (hm : Move op e e') : e'.Steady := by
  cases hm with
  | named _ ids => exact ⟨h.coherent.draw ids, h.quiet⟩
  | drained => exact ⟨h.coherent.transfer rfl rfl rfl rfl rfl rfl rfl rfl, h.quiet⟩
  | settled hs hw => exact ⟨h.coherent.without hs.toWithout, hw⟩
  | enrolled hm => exact ⟨h.coherent.enroll hm, h.quiet⟩
  | linked ht hk c => exact ⟨h.coherent.link ht hk c, h.quiet⟩
  | @backedOff m _ id t r delay hb =>
    obtain ⟨-, -, hwait, ha⟩ := h.coherent.of_backs hb
    refine ⟨h.coherent.backOff hb.task hwait hb.retries r delay _, ?_⟩
    rw [backedOff, backOff_eq ha]
    exact h.quiet
  | removed _ entity =>
    obtain ⟨hw, -, hwakes⟩ := h.coherent.without_remove entity
    exact ⟨h.coherent.without hw, hwakes.trans h.quiet⟩
  | tornDown ht => exact ⟨h.coherent.without (ht.without h.coherent), ht.quiet⟩
  | advanced =>
    obtain ⟨tasks, armed, he, -⟩ := h.coherent.advance_spec h.quiet
    obtain ⟨-, -, -, hc⟩ := h.coherent.advance_eq h.quiet
    exact ⟨hc, by rw [he]; exact h.quiet⟩

theorem Steady.moves_induction {P : Engine γ → Prop}
    (step : ∀ e e', e.Steady → Move op e e' → P e → P e') (h : e.Steady) (hp : P e)
    (hm : Relation.ReflTransGen (Move op) e e') : e'.Steady ∧ P e' := by
  induction hm with
  | refl => exact ⟨h, hp⟩
  | tail _ hm ih => exact ⟨ih.1.move hm, step _ _ ih.1 hm ih.2⟩

theorem Steady.moves (h : e.Steady) (hm : Relation.ReflTransGen (Move op) e e') : e'.Steady :=
  (h.moves_induction (P := fun _ => True) (fun _ _ _ _ _ => trivial) trivial hm).1

theorem moves_enrollSetup {request : ProcedureRequest NgSetupRequest} {registry : Registry}
    (hm : e.Admissible (.setup (.new e.ids.draw.1 request)) registry) (op : Operation) :
    Relation.ReflTransGen (Move op) e (e.enrollSetup request registry) :=
  .tail (.single (.named e e.ids.draw.2))
    (.enrolled ⟨hm.fresh, hm.new, hm.inactive, hm.registered⟩)

theorem Steady.moves_connect (h : e.Steady) (controller : EntityId)
    (request : ProcedureRequest NgSetupRequest) :
    Relation.ReflTransGen (Move op) e (e.launchConnection controller request).2 := by
  rcases launchConnection_cases h.coherent h.quiet controller request with
    ⟨error, ids, he, -⟩ | ⟨registry, hm, -, -, ⟨error, he⟩ | ⟨registry', hm', he⟩⟩
  · rw [he]
    exact .single (.named e ids)
  · have hmoves := moves_enrollSetup hm op
    have h₁ := h.moves hmoves
    have hnamed : Move op (e.enrollSetup request registry) _ :=
      .named _ (e.enrollSetup request registry).ids.draw.2
    have h₂ := h₁.move hnamed
    rw [he]
    rcases h₂.coherent.cancel_cases h₂.quiet e.ids.draw.1 with
      ⟨hc, -⟩ | ⟨gone, e', hc, hs, -, hw⟩
    · rw [hc]
      exact hmoves.tail hnamed
    · rw [hc]
      exact (hmoves.tail hnamed).tail (.settled hs hw)
  · have hmoves := moves_enrollSetup hm op
    have hnamed : Move op (e.enrollSetup request registry) _ :=
      .named _ (e.enrollSetup request registry).ids.draw.2
    have hsetup : (e.enrollSetup request registry).tasks.get? e.ids.draw.1 = some
        ⟨(Machine.setup (.new e.ids.draw.1 request)).launched, e.started⟩ :=
      Table.get?_insert_self ..
    have hlinked : Move op { e.enrollSetup request registry with
        ids := (e.enrollSetup request registry).ids.draw.2 }
        ((e.enrollSetup request registry).link e.ids.draw.1) :=
      .linked (e := { e.enrollSetup request registry with
        ids := (e.enrollSetup request registry).ids.draw.2 }) hsetup rfl _
    rw [he]
    exact ((hmoves.tail hnamed).tail hlinked).tail (.enrolled hm')

/-- An operation other than a number of ticks at once is a sequence of moves. -/
theorem Steady.moves_step (h : e.Steady) (hop : ∀ k, op ≠ .advanceBy k) :
    Relation.ReflTransGen (Move op) e (e.step op).2 := by
  cases op with
  | setup request =>
    rcases launchSetup_cases h.quiet request with ⟨error, he⟩ | ⟨registry, hm, he⟩
    · simp only [step, he]
      exact .single (.named e _)
    · simp only [step, he]
      exact moves_enrollSetup hm _
  | update request =>
    rcases launchConfigUpdate_cases h.quiet request with ⟨error, he⟩ | ⟨registry, hm, he⟩
    · simp only [step, he]
      exact .single (.named e _)
    · simp only [step, he]
      exact .tail (.single (.named e e.ids.draw.2))
        (.enrolled ⟨hm.fresh, hm.new, hm.inactive, hm.registered⟩)
  | connect controller request => exact h.moves_connect controller request
  | message m =>
    rcases h.coherent.handleMessage_cases h.quiet m with
      he | ⟨gone, e', he, hs, hw⟩ | ⟨id, t, r, delay, hb⟩
    · simp only [step, he]
      exact .refl
    · simp only [step, he]
      exact .single (.settled hs hw)
    · simp only [step, h.coherent.handleMessage_backs h.quiet hb]
      exact .single (.backedOff hb)
  | advance => exact .single (.advanced e)
  | advanceBy k => exact absurd rfl (hop k)
  | cancel id =>
    rcases h.coherent.cancel_cases h.quiet id with ⟨he, -⟩ | ⟨gone, e', he, hs, -, hw⟩
    · simp only [step, he]
      exact .refl
    · simp only [step, he]
      exact .single (.settled hs hw)
  | remove entity => exact .single (.removed e entity)
  | transportLost =>
    obtain ⟨-, gone, ht⟩ := h.coherent.tornDown h.quiet
    exact .single (.tornDown ht)
  | drainEvents => exact .single (.drained e)

end

theorem advanceBy_eq (e : Engine γ) (ticks : UInt64) :
    e.advanceBy ticks = e.after (List.replicate ticks.toNat .advance) := by
  unfold advanceBy
  generalize ticks.toNat = n
  induction n with
  | zero => rfl
  | succ n ih =>
    rw [List.replicate_succ', after, List.foldl_append]
    exact congrArg advance ih

theorem after_append (e : Engine γ) (history future : List Operation) :
    e.after (history ++ future) = (e.after history).after future :=
  List.foldl_append ..

/-- a number of ticks at once is that number of ticks -/
theorem step_spelled (e : Engine γ) (op : Operation) : (e.step op).2 = e.after op.spelled := by
  cases op with
  | advanceBy ticks => exact e.advanceBy_eq ticks
  | _ => rfl

theorem after_spelled (e : Engine γ) (history : List Operation) :
    e.after history = e.after (history.flatMap Operation.spelled) := by
  induction history generalizing e with
  | nil => rfl
  | cons op rest ih =>
    rw [List.flatMap_cons, after_append, ← ih, ← step_spelled]
    rfl

structure Collects {β : Type} (f : Engine γ → Operation → List β)
    (F : Engine γ → List Operation → List β) : Prop where
  nil : ∀ e, F e [] = []
  cons : ∀ e op rest, F e (op :: rest) = f e op ++ F (e.step op).2 rest

section

variable {β : Type} {f : Engine γ → Operation → List β} {F : Engine γ → List Operation → List β}

theorem Collects.append (h : Collects f F) (e : Engine γ) (a b : List Operation) :
    F e (a ++ b) = F e a ++ F (e.after a) b := by
  induction a generalizing e with
  | nil => simp [h.nil, after]
  | cons op rest ih =>
    rw [List.cons_append, h.cons, h.cons, ih, List.append_assoc]
    rfl

theorem Collects.spelled (h : Collects f F)
    (ticks : ∀ e k, f e (.advanceBy k) = F e (List.replicate k.toNat .advance)) (e : Engine γ)
    (history : List Operation) : F e history = F e (history.flatMap Operation.spelled) := by
  induction history generalizing e with
  | nil => rfl
  | cons op rest ih =>
    have hop : f e op = F e op.spelled := by
      cases op with
      | advanceBy k => exact ticks e k
      | _ => simp [Operation.spelled, h.cons, h.nil]
    rw [List.flatMap_cons, h.append, h.cons, hop, ih, step_spelled]

end

theorem ne_advanceBy_of_mem_spelled {history : List Operation} {op : Operation}
    (h : op ∈ history.flatMap Operation.spelled) (k : UInt64) : op ≠ .advanceBy k := by
  obtain ⟨op', -, hop⟩ := List.mem_flatMap.1 h
  rintro rfl
  cases op' with
  | advanceBy ticks => simp [Operation.spelled] at hop
  | _ => simp [Operation.spelled] at hop

/-- what holds of operations one after the other holds of a history that is spelled out -/
theorem Steady.spelled_induction {P : Engine γ → List Operation → Prop}
    (nil : ∀ {e}, e.Steady → P e [])
    (cons : ∀ {e op rest}, e.Steady → (∀ k, op ≠ .advanceBy k) → (e.step op).2.Steady →
      P (e.step op).2 rest → P e (op :: rest)) {e : Engine γ} (h : e.Steady)
    (history : List Operation) : P e (history.flatMap Operation.spelled) := by
  have hplain := fun op (hop : op ∈ history.flatMap Operation.spelled) =>
    ne_advanceBy_of_mem_spelled hop
  generalize history.flatMap Operation.spelled = ops at hplain
  induction ops generalizing e with
  | nil => exact nil h
  | cons op rest ih =>
    obtain ⟨hop, hrest⟩ := List.forall_mem_cons.1 hplain
    have h' := h.moves (h.moves_step hop)
    exact cons h hop h' (ih h' hrest)

/-- what every move keeps holds after every history -/
theorem Steady.after_induction {P : Engine γ → Prop}
    (step : ∀ op e e', e.Steady → Move op e e' → P e → P e') {e : Engine γ} (h : e.Steady)
    (hp : P e) (history : List Operation) : (e.after history).Steady ∧ P (e.after history) := by
  rw [after_spelled]
  refine h.spelled_induction (P := fun e ops => P e → (e.after ops).Steady ∧ P (e.after ops))
    (fun h hp => ⟨h, hp⟩) (fun {e op rest} h hop _ ih hp => ?_) history hp
  exact ih (h.moves_induction (step op) hp (h.moves_step hop)).2

theorem Steady.after {e : Engine γ} (h : e.Steady) (history : List Operation) :
    (e.after history).Steady :=
  (h.after_induction (P := fun _ => True) (fun _ _ _ _ _ _ => trivial) trivial history).1

theorem steady_after (gateway : γ) (ids : IdSource) (config : EngineConfig)
    (history : List Operation) : ((Engine.new gateway ids config).after history).Steady :=
  (steady_new gateway ids config).after history

end Engine

end NgapProcedures
