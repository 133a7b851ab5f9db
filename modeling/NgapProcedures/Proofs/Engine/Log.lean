import NgapProcedures.Proofs.Engine.History

/-! The event log. It grows at its end until it is drained, so that an operation has logged what its
log has on top, and no event is lost or told twice however often the log is drained. -/

namespace NgapProcedures

def Answer.drained : Answer → List Event
  | .events drained => drained
  | _ => []

namespace Engine

variable {γ : Type}

theorem log_settle (e : Engine γ) (id : ProcedureId) (cancelled : Bool) :
    (e.settle id cancelled).log = e.log := by
  obtain ⟨tasks, armed, parents, timers, registry, wakes, he⟩ := e.exists_settle id cancelled
  rw [he]

theorem log_foldl_remove (e : Engine γ) (entities : List EntityId) :
    (entities.foldl (fun e entity => (e.remove entity).2) e).log = e.log := by
  obtain ⟨tasks, armed, parents, live, registry, he, -⟩ := foldl_remove entities e
  rw [he]

theorem prefix_log_foldl {α : Type} {f : Engine γ → α → Engine γ}
    (h : ∀ e a, e.log <+: (f e a).log) (e : Engine γ) (l : List α) : e.log <+: (l.foldl f e).log := by
  induction l generalizing e with
  | nil => exact List.prefix_refl _
  | cons a rest ih => exact (h e a).trans (ih (f e a))

variable [Gateway γ]

theorem prefix_log_performAll (e : Engine γ) (owner : ProcedureId) (effects : List Effect) :
    e.log <+: (e.performAll owner effects).log := by
  refine prefix_log_foldl (fun e effect => ?_) e effects
  cases effect <;> simp [perform, armTimer, releaseTimer_eq, wake, emit]

theorem prefix_log_dispatch (e : Engine γ) (id : ProcedureId) (w : Wake) :
    e.log <+: (e.dispatch id w).log := by
  unfold dispatch
  cases e.tasks.get? id with
  | none => exact List.prefix_refl _
  | some t =>
    dsimp only
    split
    · have hperform := prefix_log_performAll { e with
        tasks := e.tasks.insert id (t.resume e.results w).1
        results := (t.resume e.results w).2.1 } id (t.resume e.results w).2.2
      split
      · rw [log_settle]
        exact hperform
      · exact hperform
    · exact List.prefix_refl _

theorem prefix_log_run (e : Engine γ) : e.log <+: e.run.log :=
  (run_induction (P := fun e' => e.log <+: e'.log)
    (fun e' id w rest _ h => h.trans (prefix_log_dispatch { e' with wakes := rest } id w))
    (List.prefix_refl _)).1

theorem prefix_log_launchRetry (e : Engine γ) (entity : EntityId) (kind : Kind)
    (machine : ProcedureId → Machine) : e.log <+: (e.launchRetry entity kind machine).2.log := by
  unfold launchRetry
  rcases hal : e.allocateId with ⟨error | id, e'⟩
  all_goals have hsame : e'.log = e.log := by rw [← (Prod.mk.inj hal).2]
  · exact hsame ▸ List.prefix_refl _
  · dsimp only
    split
    · exact hsame ▸ List.prefix_refl _
    · cases e'.registry.register entity id with
      | error error => exact hsame ▸ List.prefix_refl _
      | ok registry =>
        rw [← hsame]
        exact (List.prefix_append ..).trans
          (prefix_log_run ({ e' with registry }.start (machine id)).2)

theorem prefix_log_cancel (e : Engine γ) (id : ProcedureId) : e.log <+: (e.cancel id).2.log := by
  unfold cancel
  split
  · exact prefix_log_run (e.wake id .cancel)
  · exact List.prefix_refl _

theorem prefix_log_launchConnection (e : Engine γ) (controller : EntityId)
    (request : ProcedureRequest NgSetupRequest) :
    e.log <+: (e.launchConnection controller request).2.log := by
  have hsetup : e.log <+: (e.launchSetup request).2.log := prefix_log_launchRetry ..
  unfold launchConnection
  split
  · exact List.prefix_refl _
  · generalize e.launchSetup request = launched at hsetup ⊢
    rcases launched with ⟨error | setup, e'⟩
    · exact hsetup
    · refine hsetup.trans ?_
      dsimp only
      rcases hal : e'.allocateId with ⟨error | id, e''⟩
      all_goals have hsame : e''.log = e'.log := by rw [← (Prod.mk.inj hal).2]
      · exact hsame ▸ prefix_log_cancel e'' setup.id
      · dsimp only
        cases e''.registry.register controller id with
        | error error => exact hsame ▸ prefix_log_cancel e'' setup.id
        | ok registry =>
          refine List.IsPrefix.trans ?_ (prefix_log_run _)
          rw [← hsame]
          split <;> exact List.prefix_append ..

theorem prefix_log_advance (e : Engine γ) : e.log <+: e.advance.log := by
  obtain ⟨armed, he, -⟩ := foldl_expire e.timers.advance.1 { e with timers := e.timers.advance.2 }
  have hrun := prefix_log_run
    (e.timers.advance.1.foldl expire { e with timers := e.timers.advance.2 })
  have hexpired : (e.timers.advance.1.foldl expire { e with timers := e.timers.advance.2 }).log =
      e.log := by rw [he]
  exact hexpired ▸ hrun

/-- an operation takes nothing from the log, unless it drains it -/
theorem prefix_log_step (e : Engine γ) {op : Operation} (hop : op ≠ .drainEvents) :
    e.log <+: (e.step op).2.log := by
  cases op with
  | setup request => exact prefix_log_launchRetry ..
  | update request => exact prefix_log_launchRetry ..
  | connect controller request => exact prefix_log_launchConnection ..
  | message m =>
    simp only [step, handleMessage]
    split
    · exact prefix_log_run (e.wake _ (.message m.pdu))
    · exact List.prefix_refl _
  | advance => exact prefix_log_advance e
  | advanceBy ticks =>
    rw [step, advanceBy_eq]
    generalize ticks.toNat = n
    induction n generalizing e with
    | zero => exact List.prefix_refl _
    | succ n ih => exact (prefix_log_advance e).trans (ih e.advance)
  | cancel id => exact prefix_log_cancel e id
  | remove entity => exact log_foldl_remove e [entity] ▸ List.prefix_refl _
  | transportLost =>
    have hcancel := prefix_log_foldl (fun e entity => prefix_log_foldl prefix_log_cancel e
      (e.registry.ids entity)) { e with tearingDown := true } e.registry.entities
    simp only [step, transportLost, log_foldl_remove]
    split
    · exact hcancel
    · exact hcancel.trans (List.prefix_append ..)
  | drainEvents => exact absurd rfl hop

def logged (e : Engine γ) : Operation → List Event
  | .drainEvents => []
  | op => (e.step op).2.log.drop e.log.length

/-- events logged during a history, whether or not they have been drained since -/
def loggedDuring (e : Engine γ) : List Operation → List Event
  | [] => []
  | op :: rest => e.logged op ++ loggedDuring (e.step op).2 rest

def drainedDuring (e : Engine γ) : List Operation → List Event
  | [] => []
  | op :: rest => (e.step op).1.drained ++ drainedDuring (e.step op).2 rest

theorem collects_loggedDuring : Collects (γ := γ) logged loggedDuring :=
  ⟨fun _ => rfl, fun _ _ _ => rfl⟩

theorem loggedDuring_append (e : Engine γ) (a b : List Operation) :
    e.loggedDuring (a ++ b) = e.loggedDuring a ++ (e.after a).loggedDuring b :=
  collects_loggedDuring.append e a b

theorem log_step (e : Engine γ) {op : Operation} (hop : op ≠ .drainEvents) :
    (e.step op).2.log = e.log ++ e.logged op := by
  have hlogged : e.logged op = (e.step op).2.log.drop e.log.length := by
    cases op with
    | drainEvents => exact absurd rfl hop
    | _ => rfl
  rw [hlogged]
  exact (List.prefix_iff_eq_append.1 (e.prefix_log_step hop)).symm

theorem drained_step (e : Engine γ) {op : Operation} (hop : op ≠ .drainEvents) :
    (e.step op).1.drained = [] := by
  have hlaunch (launched : Except LaunchError Handle) : (Answer.ofLaunch launched).drained = [] := by
    cases launched <;> rfl
  cases op with
  | setup request => exact hlaunch _
  | update request => exact hlaunch _
  | connect controller request => exact hlaunch _
  | drainEvents => exact absurd rfl hop
  | _ => rfl

/-- What a history drains and what it leaves in the log is what there was and what it has logged,
in this order. -/
theorem drained_append_log (e : Engine γ) (history : List Operation) :
    e.drainedDuring history ++ (e.after history).log = e.log ++ e.loggedDuring history := by
  induction history generalizing e with
  | nil => simp [drainedDuring, loggedDuring, after]
  | cons op rest ih =>
    have hafter : e.after (op :: rest) = (e.step op).2.after rest := rfl
    rw [drainedDuring, loggedDuring, hafter, List.append_assoc, ih]
    by_cases hop : op = .drainEvents
    · subst hop
      rfl
    · rw [drained_step e hop, log_step e hop, List.nil_append, List.append_assoc]

theorem loggedDuring_spelled (e : Engine γ) (history : List Operation) :
    e.loggedDuring history = e.loggedDuring (history.flatMap Operation.spelled) := by
  refine collects_loggedDuring.spelled (fun e k => ?_) e history
  -- ticks drain nothing, so that what they log is what their log has on top
  have hdrained (n : Nat) (e : Engine γ) : e.drainedDuring (List.replicate n .advance) = [] := by
    induction n generalizing e with
    | zero => rfl
    | succ n ih => exact ih e.advance
  have hlog := e.drained_append_log (List.replicate k.toNat .advance)
  rw [hdrained, List.nil_append, ← advanceBy_eq] at hlog
  exact List.append_cancel_left ((log_step e (by simp)).symm.trans hlog)

end Engine

end NgapProcedures
