import NgapProcedures.Proofs.Attention
import NgapProcedures.Proofs.Engine.Speakers

/-! Every task of an engine has a slot of its own for its result, and a connection reads a slot that
was given to a setup. Starting, dropping and resuming tasks keep this, whichever wake is dispatched,
so that in a sound engine the guard in front of every task is right. -/

namespace NgapProcedures

/-- a result is of the kind of the machine that has it -/
theorem Machine.kind_of_result? {m : Machine} {r : Result} (h : m.result? = some r) :
    r.kind = m.kind := by
  cases m with
  | setup p =>
    obtain ⟨outcome, -, rfl⟩ := Option.map_eq_some_iff.1 h
    rfl
  | update p =>
    obtain ⟨outcome, -, rfl⟩ := Option.map_eq_some_iff.1 h
    rfl
  | connection c slot =>
    obtain ⟨outcome, -, rfl⟩ := Option.map_eq_some_iff.1 h
    rfl

theorem Result.eq_setup_of_kind {r : Result} (h : r.kind = .ngSetup) :
    ∃ outcome, r = .setup outcome := by
  cases r with
  | setup outcome => exact ⟨outcome, rfl⟩
  | update outcome => cases h
  | connection outcome => cases h

namespace Task

variable {t : Task} {results : Results} {w : Wake}

theorem slot_resume (t : Task) (results : Results) (w : Wake) :
    (t.resume results w).1.slot = t.slot := by
  unfold Task.resume
  split <;> rfl

theorem kind_resume (t : Task) (results : Results) (w : Wake) :
    (t.resume results w).1.machine.kind = t.machine.kind := by
  unfold Task.resume
  split
  · rfl
  · next hr => exact (Machine.resume_static hr).2.2.1

theorem kind_resumeAll (t : Task) (results : Results) (wakes : List Wake) :
    (t.resumeAll results wakes).1.machine.kind = t.machine.kind := by
  induction wakes generalizing t results with
  | nil => rfl
  | cons w rest ih => exact (ih _ _).trans (kind_resume t results w)

theorem Sound.heeds_resumeAll (h : t.Sound results) (hkind : t.machine.kind ≠ .amfConnection)
    (wakes : List Wake) (w : Wake) :
    (t.resumeAll results wakes).1.Heeds (t.resumeAll results wakes).2 w := by
  refine (h.resumeAll wakes).heeds ?_
  intro c slot hm
  refine absurd ?_ hkind
  rw [← kind_resumeAll t results wakes, hm]
  rfl

/-- a connection reads the result of its setup in the same slot all along -/
theorem connection_of_resume {c : AmfConnection} {slot own : Nat}
    (h : (t.resume results w).1 = ⟨.connection c slot, own⟩) :
    ∃ c', t.machine = .connection c' slot := by
  obtain ⟨m, n⟩ := t
  cases m with
  | connection c' slot' =>
    unfold Task.resume at h
    dsimp only [Machine.resume] at h
    cases hevent : c'.eventOf (results.get? slot') w with
    | none =>
      simp only [hevent, Option.map_none, Task.mk.injEq, Machine.connection.injEq] at h
      exact ⟨c', by rw [h.1.2]⟩
    | some event =>
      simp only [hevent, Option.map_some, Task.mk.injEq, Machine.connection.injEq] at h
      exact ⟨c', by rw [h.1.2]⟩
  | setup p =>
    have hkind := kind_resume ⟨.setup p, n⟩ results w
    rw [h] at hkind
    cases hkind
  | update p =>
    have hkind := kind_resume ⟨.update p, n⟩ results w
    rw [h] at hkind
    cases hkind

/-- no slot but the task's own is written -/
theorem get?_resume_other {n : Nat} (h : n ≠ t.slot) (w : Wake) :
    (t.resume results w).2.1.get? n = results.get? n := by
  unfold Task.resume
  split
  · rfl
  · exact Results.get?_record_other h _

theorem kind_of_get?_resume {r : Result} (h : (t.resume results w).2.1.get? t.slot = some r) :
    results.get? t.slot = some r ∨ r.kind = t.machine.kind := by
  unfold Task.resume at h
  split at h
  · exact .inl h
  · next m fx hr =>
    rcases Results.of_get?_record h with hold | hnew
    · exact .inl hold
    · exact .inr ((Machine.kind_of_result? hnew).trans (Machine.resume_static hr).2.2.1)

theorem Sound.of_get?_eq {results' : Results} (h : t.Sound results)
    (heq : results'.get? t.slot = results.get? t.slot) : t.Sound results' :=
  ⟨h.grown, heq.trans h.recorded⟩

end Task

namespace Engine

variable {γ : Type}

structure SetupSlot (e : Engine γ) (slot : Nat) : Prop where
  issued : slot < e.started
  occupied : ∀ {id t}, e.tasks.get? id = some t → t.slot = slot → t.machine.kind = .ngSetup
  written : ∀ {r}, e.results.get? slot = some r → r.kind = .ngSetup

structure Sound (e : Engine γ) : Prop where
  task : ∀ {id t}, e.tasks.get? id = some t → t.Sound e.results
  issued : ∀ {id t}, e.tasks.get? id = some t → t.slot < e.started
  unused : ∀ {n}, e.started ≤ n → e.results.get? n = none
  apart : ∀ {id id' t t'}, e.tasks.get? id = some t → e.tasks.get? id' = some t' →
    t.slot = t'.slot → id = id'
  setup : ∀ {id c slot own}, e.tasks.get? id = some ⟨.connection c slot, own⟩ → e.SetupSlot slot

theorem sound_new (gateway : γ) (ids : IdSource) (config : EngineConfig) :
    (Engine.new gateway ids config).Sound := by
  constructor <;> simp [new]

section

variable {e e' : Engine γ} {slot : Nat}

theorem SetupSlot.aside (h : e.SetupSlot slot) (ht : e'.tasks = e.tasks)
    (hr : e'.results = e.results) (hs : e'.started = e.started) : e'.SetupSlot slot where
  issued := hs ▸ h.issued
  occupied hq := h.occupied (ht ▸ hq)
  written hr' := h.written (hr ▸ hr')

theorem Sound.aside (h : e.Sound) (ht : e'.tasks = e.tasks) (hr : e'.results = e.results)
    (hs : e'.started = e.started) : e'.Sound where
  task hq := hr ▸ h.task (ht ▸ hq)
  issued hq := hs ▸ h.issued (ht ▸ hq)
  unused hn := hr ▸ h.unused (hs ▸ hn)
  apart hq hq' := h.apart (ht ▸ hq) (ht ▸ hq')
  setup hq := (h.setup (ht ▸ hq)).aside ht hr hs

theorem SetupSlot.forget (h : e.SetupSlot slot) (id : ProcedureId) :
    (e.forget id).SetupSlot slot where
  issued := by
    rw [forget_eq]
    exact h.issued
  occupied hq := h.occupied (get?_forget hq)
  written hr := by
    rw [forget_eq] at hr
    exact h.written hr

theorem Sound.forget (h : e.Sound) (id : ProcedureId) : (e.forget id).Sound where
  task hq := by
    have hsound := h.task (get?_forget hq)
    rw [forget_eq]
    exact hsound
  issued hq := by
    have hissued := h.issued (get?_forget hq)
    rw [forget_eq]
    exact hissued
  unused := by
    rw [forget_eq]
    exact h.unused
  apart hq hq' := h.apart (get?_forget hq) (get?_forget hq')
  setup hq := (h.setup (get?_forget hq)).forget id

theorem SetupSlot.start (h : e.SetupSlot slot) (m : Machine) : (e.start m).2.SetupSlot slot where
  issued := Nat.lt_succ_of_lt h.issued
  occupied hq hslot := by
    rcases get?_tasks_start hq with ⟨-, rfl⟩ | ⟨-, hold⟩
    · exact absurd hslot (Nat.ne_of_gt h.issued)
    · exact h.occupied hold hslot
  written hr := h.written hr

/-- the slot of a new setup is its own and empty -/
theorem Sound.setupSlot_start (h : e.Sound) {m : Machine} (hm : m.kind = .ngSetup) :
    (e.start m).2.SetupSlot e.started where
  issued := Nat.lt_succ_self _
  occupied hq hslot := by
    rcases get?_tasks_start hq with ⟨-, rfl⟩ | ⟨-, hold⟩
    · exact hm
    · exact absurd hslot (Nat.ne_of_lt (h.issued hold))
  written hr := by
    have hnone : e.results.get? e.started = none := h.unused (Nat.le_refl _)
    have hsome : e.results.get? e.started = some _ := hr
    rw [hnone] at hsome
    cases hsome

theorem Sound.start (h : e.Sound) {m : Machine} (hgrown : m.Grown) (hresult : m.result? = none)
    (hsetup : ∀ c slot, m = .connection c slot → e.SetupSlot slot) : (e.start m).2.Sound where
  task hq := by
    rcases get?_tasks_start hq with ⟨-, rfl⟩ | ⟨-, hold⟩
    · exact ⟨hgrown, (h.unused (Nat.le_refl _)).trans hresult.symm⟩
    · exact h.task hold
  issued hq := by
    rcases get?_tasks_start hq with ⟨-, rfl⟩ | ⟨-, hold⟩
    · exact Nat.lt_succ_self _
    · exact Nat.lt_succ_of_lt (h.issued hold)
  unused hn := h.unused (Nat.le_of_succ_le hn)
  apart hq hq' hslot := by
    rcases get?_tasks_start hq with ⟨hid, rfl⟩ | ⟨-, hold⟩
    · rcases get?_tasks_start hq' with ⟨hid', -⟩ | ⟨-, hold'⟩
      · exact hid.trans hid'.symm
      · exact absurd hslot (Nat.ne_of_gt (h.issued hold'))
    · rcases get?_tasks_start hq' with ⟨-, rfl⟩ | ⟨-, hold'⟩
      · exact absurd hslot (Nat.ne_of_lt (h.issued hold))
      · exact h.apart hold hold' hslot
  setup hq := by
    rcases get?_tasks_start hq with ⟨-, heq⟩ | ⟨-, hold⟩
    · exact (hsetup _ _ (Task.mk.inj heq).1.symm).start m
    · exact (h.setup hold).start m

/-- in a sound engine the guard in front of every task is right -/
theorem Sound.heeds (h : e.Sound) {id : ProcedureId} {t : Task} (ht : e.tasks.get? id = some t)
    {w : Wake} (hready : ∀ c slot, t.machine = .connection c slot → w = .procedureDone c.setup →
      e.ready ⟨c.setup, slot⟩ = true) : t.Heeds e.results w := by
  refine (h.task ht).heeds ?_
  intro c slot hm hw
  obtain ⟨m, own⟩ := t
  obtain rfl : m = .connection c slot := hm
  obtain ⟨r, hr⟩ := Option.isSome_iff_exists.1 (hready c slot rfl hw)
  obtain ⟨outcome, rfl⟩ := Result.eq_setup_of_kind ((h.setup ht).written hr)
  exact ⟨outcome, hr⟩

end

variable [Gateway γ]

theorem results_performAll (e : Engine γ) (owner : ProcedureId) (effects : List Effect) :
    (e.performAll owner effects).results = e.results := by
  refine performAll_eq (f := fun e => e.results) (fun e effect => ?_) e effects
  cases effect <;> simp [perform, armTimer, releaseTimer_eq, wake, emit]

/-- a dispatch changes nothing, or resumes a task with the wake and then drops it at most -/
theorem dispatch_cases (e : Engine γ) (id : ProcedureId) (w : Wake) :
    e.dispatch id w = e ∨ ∃ t, e.tasks.get? id = some t ∧
      (e.dispatch id w).started = e.started ∧
      (e.dispatch id w).results = (t.resume e.results w).2.1 ∧
      ∀ q u, (e.dispatch id w).tasks.get? q = some u →
        q = id ∧ u = (t.resume e.results w).1 ∨ q ≠ id ∧ e.tasks.get? q = some u := by
  unfold dispatch
  cases ht : e.tasks.get? id with
  | none => exact .inl rfl
  | some t =>
    dsimp only
    split
    · refine .inr ⟨t, rfl, ?_⟩
      generalize t.resume e.results w = r
      obtain ⟨t', results, effects⟩ := r
      dsimp only
      have hstarted :=
        started_performAll { e with tasks := e.tasks.insert id t', results } id effects
      have hresults :=
        results_performAll { e with tasks := e.tasks.insert id t', results } id effects
      have htasks := performAll_tasks id effects { e with tasks := e.tasks.insert id t', results }
      generalize performAll { e with tasks := e.tasks.insert id t', results } id effects = done at *
      have hget (q : ProcedureId) (u : Task) (h : done.tasks.get? q = some u) :
          q = id ∧ u = t' ∨ q ≠ id ∧ e.tasks.get? q = some u := by
        rw [htasks] at h
        exact Table.get?_insert_eq_some_iff.1 h
      split
      · obtain ⟨_, _, _, _, _, _, heq⟩ := exists_settle done id t'.machine.isCancelled
        refine ⟨?_, ?_, fun q u hq => hget q u (get?_settle hq)⟩
        · rw [heq]
          exact hstarted
        · rw [heq]
          exact hresults
      · exact ⟨hstarted, hresults, hget⟩
    · exact .inl rfl

variable {e e' : Engine γ} {slot : Nat}

theorem SetupSlot.dispatch (h : e.SetupSlot slot) (id : ProcedureId) (w : Wake) :
    (e.dispatch id w).SetupSlot slot := by
  rcases e.dispatch_cases id w with heq | ⟨t, ht, hstarted, hresults, htasks⟩
  · rw [heq]
    exact h
  · constructor
    case issued =>
      rw [hstarted]
      exact h.issued
    case occupied =>
      intro q u hq hslot
      rcases htasks q u hq with ⟨-, rfl⟩ | ⟨-, hold⟩
      · rw [Task.slot_resume] at hslot
        rw [Task.kind_resume]
        exact h.occupied ht hslot
      · exact h.occupied hold hslot
    case written =>
      intro r hr
      rw [hresults] at hr
      by_cases hslot : slot = t.slot
      · subst hslot
        rcases Task.kind_of_get?_resume hr with hold | hkind
        · exact h.written hold
        · exact hkind.trans (h.occupied ht rfl)
      · rw [Task.get?_resume_other hslot] at hr
        exact h.written hr

theorem Sound.dispatch (h : e.Sound) (id : ProcedureId) (w : Wake) : (e.dispatch id w).Sound := by
  have hkeep {slot : Nat} (hslot : e.SetupSlot slot) : (e.dispatch id w).SetupSlot slot :=
    hslot.dispatch id w
  rcases e.dispatch_cases id w with heq | ⟨t, ht, hstarted, hresults, htasks⟩
  · rw [heq]
    exact h
  · -- whoever is not resumed has another slot than the one that may be written
    have hother {q : ProcedureId} {u : Task} (hq : q ≠ id) (hold : e.tasks.get? q = some u) :
        u.slot ≠ t.slot := fun hslot => hq (h.apart hold ht hslot)
    constructor
    case task =>
      intro q u hq
      rw [hresults]
      rcases htasks q u hq with ⟨-, rfl⟩ | ⟨hne, hold⟩
      · exact (h.task ht).resume w
      · exact (h.task hold).of_get?_eq (Task.get?_resume_other (hother hne hold) w)
    case issued =>
      intro q u hq
      rw [hstarted]
      rcases htasks q u hq with ⟨-, rfl⟩ | ⟨-, hold⟩
      · rw [Task.slot_resume]
        exact h.issued ht
      · exact h.issued hold
    case unused =>
      intro n hn
      rw [hstarted] at hn
      have hne : n ≠ t.slot := Nat.ne_of_gt (Nat.lt_of_lt_of_le (h.issued ht) hn)
      rw [hresults, Task.get?_resume_other hne]
      exact h.unused hn
    case apart =>
      intro q q' u u' hq hq' hslot
      rcases htasks q u hq with ⟨rfl, rfl⟩ | ⟨hne, hold⟩
      · rcases htasks q' u' hq' with ⟨rfl, -⟩ | ⟨hne', hold'⟩
        · rfl
        · rw [Task.slot_resume] at hslot
          exact absurd hslot.symm (hother hne' hold')
      · rcases htasks q' u' hq' with ⟨rfl, rfl⟩ | ⟨-, hold'⟩
        · rw [Task.slot_resume] at hslot
          exact absurd hslot (hother hne hold)
        · exact h.apart hold hold' hslot
    case setup =>
      intro q c slot own hq
      rcases htasks q _ hq with ⟨-, heq⟩ | ⟨-, hold⟩
      · obtain ⟨c', hmachine⟩ := Task.connection_of_resume heq.symm
        obtain ⟨m, own'⟩ := t
        subst hmachine
        exact hkeep (h.setup ht)
      · exact hkeep (h.setup hold)

end Engine

end NgapProcedures
