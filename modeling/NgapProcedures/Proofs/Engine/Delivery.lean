import NgapProcedures.Proofs.Engine.Frame

/-! The delivery of a message as a list of changes, each to one instance. The instance that the message
is for goes into a backoff or ends, and if it ends the connection that is joined to it ends as well. A
change touches nothing that is kept for any other instance. -/

namespace NgapProcedures

/-- what the delivery of a message does to one instance -/
inductive Change where
  | ended (id : ProcedureId) (t : Task) (r : Result) (event : Event)
  /-- it goes on with another task, and a timer -/
  | delayed (id : ProcedureId) (t : Task) (delay : Duration) (event : Event)

namespace Change

def id : Change → ProcedureId
  | ended id .. => id
  | delayed id .. => id

def slot : Change → Nat
  | ended _ t .. => t.slot
  | delayed _ t .. => t.slot

/-- the task that the instance goes on with -/
def task? : Change → Option Task
  | ended .. => none
  | delayed _ t .. => some t

def result? : Change → Option Result
  | ended _ _ r _ => some r
  | delayed .. => none

/-- the two changes are to different instances -/
def Apart (x y : Change) : Prop := x.id ≠ y.id ∧ x.slot ≠ y.slot

theorem Apart.symm {x y : Change} (h : x.Apart y) : y.Apart x := ⟨h.1.symm, h.2.symm⟩

end Change

def Machine.Answered (m : Machine) (pdu : Pdu) (r : Result) (event : Event) : Prop :=
  ∃ m', m.resume ∅ (.message pdu) = some (m', [.emit event]) ∧ m'.Completed r

/-- no machine looks at the results of others when it is given a message -/
theorem Machine.resume_message (m : Machine) (results : Results) (pdu : Pdu) :
    m.resume results (.message pdu) = m.resume ∅ (.message pdu) := by
  cases m with
  | setup p => rfl
  | update p => rfl
  | connection c slot => rfl

namespace Engine

variable {γ : Type}

def change (e : Engine γ) : Change → Engine γ
  | .ended id t r event => { e with
      tasks := e.tasks.erase id
      parents := e.parents.erase id
      registry := (e.registry.deregister t.machine.entity id).2
      results := e.results.record t.slot (some r)
      log := e.log ++ [event] }
  | .delayed id t delay event => { e with
      tasks := e.tasks.insert id t
      armed := e.armed.insert id e.timers.nextId
      timers := (e.timers.schedule id delay).2
      log := e.log ++ [event] }

def changeAll (e : Engine γ) (changes : List Change) : Engine γ := changes.foldl change e

structure Attached (e : Engine γ) : Prop where
  connection : ∀ {q c slot slot'}, e.tasks.get? q = some ⟨.connection c slot, slot'⟩ →
    e.Joined c slot slot' ∨ e.Vacant slot none

/-- the changes that the delivery of a message comes to -/
inductive Delivery (e : Engine γ) (m : PeerMessage) : List Change → Prop where
  | dropped (hr : e.recipient? m = none) : Delivery e m []
  | delayed {q : ProcedureId} {t : Task} {r : Rejection} {delay : Duration}
      (hb : e.Backs m q t r delay) :
      Delivery e m [.delayed q { t with machine := t.machine.backedOff r } delay
        (.backoffStarted t.machine.id t.machine.nextAttempt (.ofNatClamp delay.millis))]
  | alone {q : ProcedureId} {t : Task} {r : Result} {event : Event}
      (hr : e.recipient? m = some q) (ht : e.tasks.get? q = some t)
      (ha : t.machine.Answered m.pdu r event)
      (hj : ∀ c slot slot', c.setup = q → ¬e.Joined c slot slot') :
      Delivery e m [.ended q t r event]
  | together {c : AmfConnection} {t : Task} {slot' : Nat} {outcome : RetryOutcome NgSetupResponse}
      {event : Event} (hr : e.recipient? m = some c.setup) (ht : e.tasks.get? c.setup = some t)
      (ha : t.machine.Answered m.pdu (.setup outcome) event) (hj : e.Joined c t.slot slot') :
      Delivery e m [.ended c.setup t (.setup outcome) event,
        .ended c.id ⟨.connection c t.slot, slot'⟩ (.connection (AmfConnection.outcomeOf outcome))
          (AmfConnection.announcement c.amf outcome)]

section

variable (e : Engine γ) (x : Change) (xs : List Change) {q : ProcedureId}

theorem get?_change_tasks (q : ProcedureId) :
    (e.change x).tasks.get? q = if q = x.id then x.task? else e.tasks.get? q := by
  cases x with
  | ended id t r event => exact Table.get?_erase ..
  | delayed id t delay event => exact Table.get?_insert ..

theorem change_tasks_other (h : q ≠ x.id) : (e.change x).tasks.get? q = e.tasks.get? q :=
  (e.get?_change_tasks x q).trans (if_neg h)

theorem change_parents_other (h : q ≠ x.id) : (e.change x).parents.get? q = e.parents.get? q := by
  cases x with
  | ended id t r event => exact Table.get?_erase_other _ h
  | delayed id t delay event => rfl

theorem change_armed_other (h : q ≠ x.id) : (e.change x).armed.get? q = e.armed.get? q := by
  cases x with
  | ended id t r event => rfl
  | delayed id t delay event => exact Table.get?_insert_other _ _ h

theorem change_results_other {n : Nat} (h : n ≠ x.slot) :
    (e.change x).results.get? n = e.results.get? n := by
  cases x with
  | ended id t r event =>
    show (if e.results.contains t.slot then e.results else e.results.insert t.slot r).get? n = _
    split
    · rfl
    · exact Table.get?_insert_other _ _ h
  | delayed id t delay event => rfl

theorem change_registry_other (h : q ≠ x.id) (entity : EntityId) :
    q ∈ (e.change x).registry.ids entity ↔ q ∈ e.registry.ids entity := by
  cases x with
  | ended id t r event =>
    refine Registry.mem_ids_deregister.trans (and_iff_left ?_)
    exact fun he => h he.2
  | delayed id t delay event => exact Iff.rfl

theorem changeAll_cons : e.changeAll (x :: xs) = (e.change x).changeAll xs := rfl

theorem changeAll_append (ys : List Change) :
    e.changeAll (xs ++ ys) = (e.changeAll xs).changeAll ys := List.foldl_append ..

/-- what no change touches, no list of changes touches -/
theorem changeAll_eq {α : Type} {f : Engine γ → α} {xs : List Change}
    (step : ∀ e, ∀ x ∈ xs, f (e.change x) = f e) : f (e.changeAll xs) = f e := by
  induction xs generalizing e with
  | nil => rfl
  | cons x xs ih =>
    rw [changeAll_cons, ih (e.change x) fun e y hy => step e y (List.mem_cons_of_mem _ hy)]
    exact step e x List.mem_cons_self

variable {xs}

theorem changeAll_tasks_other (h : ∀ x ∈ xs, q ≠ x.id) :
    (e.changeAll xs).tasks.get? q = e.tasks.get? q :=
  e.changeAll_eq (f := fun e => e.tasks.get? q) fun e x hx => e.change_tasks_other x (h x hx)

theorem changeAll_parents_other (h : ∀ x ∈ xs, q ≠ x.id) :
    (e.changeAll xs).parents.get? q = e.parents.get? q :=
  e.changeAll_eq (f := fun e => e.parents.get? q) fun e x hx => e.change_parents_other x (h x hx)

theorem changeAll_armed_other (h : ∀ x ∈ xs, q ≠ x.id) :
    (e.changeAll xs).armed.get? q = e.armed.get? q :=
  e.changeAll_eq (f := fun e => e.armed.get? q) fun e x hx => e.change_armed_other x (h x hx)

theorem changeAll_results_other {n : Nat} (h : ∀ x ∈ xs, n ≠ x.slot) :
    (e.changeAll xs).results.get? n = e.results.get? n :=
  e.changeAll_eq (f := fun e => e.results.get? n) fun e x hx => e.change_results_other x (h x hx)

theorem changeAll_registry_other (h : ∀ x ∈ xs, q ≠ x.id) (entity : EntityId) :
    q ∈ (e.changeAll xs).registry.ids entity ↔ q ∈ e.registry.ids entity :=
  iff_of_eq <| e.changeAll_eq (f := fun e => q ∈ e.registry.ids entity) fun e x hx =>
    propext (e.change_registry_other x (h x hx) entity)

theorem changeAll_spares {u : Task} (hq : e.tasks.get? q = some u)
    (h : ∀ x ∈ xs, q ≠ x.id ∧ u.slot ≠ x.slot) : e.Spares (e.changeAll xs) q u where
  task := (e.changeAll_tasks_other fun x hx => (h x hx).1).trans hq
  registered := e.changeAll_registry_other fun x hx => (h x hx).1
  armed := e.changeAll_armed_other fun x hx => (h x hx).1
  result := e.changeAll_results_other fun x hx => (h x hx).2

/-- of changes to different instances, each leaves the task that it is to leave -/
theorem changeAll_tasks_of_mem (hp : xs.Pairwise Change.Apart) {x : Change} (hx : x ∈ xs) :
    (e.changeAll xs).tasks.get? x.id = x.task? := by
  induction xs generalizing e with
  | nil => simp at hx
  | cons y xs ih =>
    obtain ⟨hy, hp⟩ := List.pairwise_cons.1 hp
    rw [changeAll_cons]
    rcases List.mem_cons.1 hx with rfl | hx
    · rw [changeAll_tasks_other _ fun z hz => (hy z hz).1, get?_change_tasks, if_pos rfl]
    · exact ih (e.change y) hp hx

theorem changeAll_results_of_mem (hp : xs.Pairwise Change.Apart) {x : Change} (hx : x ∈ xs)
    {r : Result} (hr : x.result? = some r) (hempty : e.results.get? x.slot = none) :
    (e.changeAll xs).results.get? x.slot = some r := by
  induction xs generalizing e with
  | nil => simp at hx
  | cons y xs ih =>
    obtain ⟨hy, hp⟩ := List.pairwise_cons.1 hp
    rw [changeAll_cons]
    rcases List.mem_cons.1 hx with rfl | hx
    · rw [changeAll_results_other _ fun z hz => (hy z hz).2]
      cases x with
      | ended id t r' event =>
        obtain rfl := Option.some.inj hr
        exact (Results.get?_record hempty r' t.slot).trans (if_pos rfl)
      | delayed => simp [Change.result?] at hr
    · refine ih (e.change y) hp hx ?_
      rwa [change_results_other _ _ (hy _ hx).2.symm]

theorem changeAll_gateway : (e.changeAll xs).gateway = e.gateway :=
  e.changeAll_eq fun _ x _ => by cases x <;> rfl

/-- a task there is after some changes was there before, or one of them left it -/
theorem changeAll_tasks_cases {u : Task} (h : (e.changeAll xs).tasks.get? q = some u) :
    e.tasks.get? q = some u ∨ ∃ x ∈ xs, x.id = q ∧ x.task? = some u := by
  induction xs generalizing e with
  | nil => exact .inl h
  | cons x xs ih =>
    rcases ih (e.change x) h with hq | ⟨y, hy, hrest⟩
    · rw [get?_change_tasks] at hq
      split at hq
      · next he => exact .inr ⟨x, List.mem_cons_self, he.symm, hq⟩
      · exact .inl hq
    · exact .inr ⟨y, List.mem_cons_of_mem _ hy, hrest⟩

theorem changeAll_parents_of {p : ProcedureId} (h : (e.changeAll xs).parents.get? q = some p) :
    e.parents.get? q = some p := by
  induction xs generalizing e with
  | nil => exact h
  | cons x xs ih =>
    have hq := ih (e.change x) h
    cases x with
    | ended id t r event => exact (Table.get?_erase_eq_some_iff.1 hq).1
    | delayed id t delay event => exact hq

end

section

variable {e : Engine γ} {m : PeerMessage} {xs : List Change}

/-- whom a delivery changes: the recipient, or the connection that is joined to it -/
theorem Delivery.subject (h : e.Delivery m xs) {x : Change} (hx : x ∈ xs) :
    ∃ q t, e.recipient? m = some q ∧ e.tasks.get? q = some t ∧ (x.id = q ∧ x.slot = t.slot ∨
      ∃ c, x.id = c.id ∧ c.setup = q ∧ e.Joined c t.slot x.slot) := by
  cases h with
  | dropped hr => simp at hx
  | @delayed q t r delay hb =>
    obtain rfl := List.mem_singleton.1 hx
    exact ⟨q, t, hb.recipient, hb.task, .inl ⟨rfl, rfl⟩⟩
  | @alone q t r event hr ht ha hj =>
    obtain rfl := List.mem_singleton.1 hx
    exact ⟨q, t, hr, ht, .inl ⟨rfl, rfl⟩⟩
  | @together c t slot' outcome event hr ht ha hj =>
    rcases List.mem_pair.1 hx with rfl | rfl
    · exact ⟨c.setup, t, hr, ht, .inl ⟨rfl, rfl⟩⟩
    · exact ⟨c.setup, t, hr, ht, .inr ⟨c, rfl, rfl, hj⟩⟩

theorem Delivery.subject_of_recipient (h : e.Delivery m xs) {q : ProcedureId} {t : Task}
    (hr : e.recipient? m = some q) (ht : e.tasks.get? q = some t) {x : Change} (hx : x ∈ xs) :
    x.id = q ∧ x.slot = t.slot ∨ ∃ c, x.id = c.id ∧ c.setup = q ∧ e.Joined c t.slot x.slot := by
  obtain ⟨q', t', hr', ht', hcase⟩ := h.subject hx
  obtain rfl := Option.some.inj (hr'.symm.trans hr)
  obtain rfl := Option.some.inj (ht'.symm.trans ht)
  exact hcase

theorem Delivery.known (h : e.Delivery m xs) {x : Change} (hx : x ∈ xs) :
    ∃ u, e.tasks.get? x.id = some u ∧ u.slot = x.slot := by
  obtain ⟨q, t, -, ht, ⟨hid, hslot⟩ | ⟨c, hid, -, hj⟩⟩ := h.subject hx
  · exact ⟨t, hid ▸ ht, hslot.symm⟩
  · exact ⟨_, hid ▸ hj.connection, rfl⟩

theorem Delivery.task? (h : e.Delivery m xs) (hc : e.Coherent []) {x : Change} (hx : x ∈ xs)
    {u : Task} (hu : x.task? = some u) :
    u.machine.entity = m.entity ∧ u.machine.kind ≠ .amfConnection := by
  cases h with
  | dropped hr => simp at hx
  | @delayed q t r delay hb =>
    obtain rfl := List.mem_singleton.1 hx
    obtain rfl := Option.some.inj hu
    obtain ⟨he, hexp, -, -⟩ := hc.of_backs hb
    obtain ⟨-, hentity, hkind⟩ := t.machine.static_backedOff r
    refine ⟨hentity.trans he, fun hk => ?_⟩
    obtain ⟨c, slot, hm⟩ := Machine.eq_connection_of_kind (hkind.symm.trans hk)
    simp [hm, Machine.expects, Machine.accepts] at hexp
  | alone =>
    obtain rfl := List.mem_singleton.1 hx
    simp [Change.task?] at hu
  | together =>
    rcases List.mem_pair.1 hx with rfl | rfl <;> simp [Change.task?] at hu

theorem with_wakes_nil (hw : e.wakes = []) : { e with wakes := [] } = e := by
  cases e
  simp_all

/-- the end of an instance without a timer is a change, but for word of it to whoever waits for it -/
theorem close_eq_change {q : ProcedureId} (hw : e.wakes = []) (hn : e.armed.get? q = none) (t : Task)
    (r : Result) (event : Event) :
    { e.close q t r event [] with wakes := [] } = e.change (.ended q t r event) := by
  rw [← with_wakes_nil (e := e.change (.ended q t r event)) hw]
  simp [Engine.close, change, timersWithout_of_get? hn, Table.erase_of_get? hn]

theorem close_orphan_eq_change {q : ProcedureId} (hw : e.wakes = []) (hn : e.armed.get? q = none)
    (hp : e.parents.get? q = none) (t : Task) (r : Result) (event : Event) :
    e.close q t r event [] = e.change (.ended q t r event) := by
  rw [← close_eq_change hw hn]
  refine (with_wakes_nil ?_).symm
  simp [Engine.close, hw, parentWake, hp]

theorem Coherent.unarmed_of_recipient (hc : e.Coherent []) {q : ProcedureId} {t : Task}
    (hr : e.recipient? m = some q) (ht : e.tasks.get? q = some t) : e.armed.get? q = none := by
  obtain ⟨u, hu, -, hx⟩ := hc.of_recipient hr
  obtain rfl := Option.some.inj (hu.symm.trans ht)
  simp only [Machine.expects, Bool.and_eq_true, beq_iff_eq] at hx
  exact (hc.unarmed ht (by simp [hx.1])).1

/-- the changes of one delivery are to different instances -/
theorem Delivery.pairwise (h : e.Delivery m xs) (hc : e.Coherent []) :
    xs.Pairwise Change.Apart := by
  cases h with
  | dropped => exact .nil
  | delayed => exact List.pairwise_singleton ..
  | alone => exact List.pairwise_singleton ..
  | together hr ht ha hj =>
    have hne := hc.apart_of_parent hj.connection hj.parent
    refine List.pairwise_pair.2 ⟨hne.symm, fun heq => ?_⟩
    exact hne.symm (hc.apart ht hj.connection heq)

theorem Delivery.recipient_ne (h : e.Delivery m xs) (hc : e.Coherent []) {m' : PeerMessage}
    (hne : m'.entity ≠ m.entity) {q : ProcedureId} (hq : e.recipient? m' = some q) {x : Change}
    (hx : x ∈ xs) : q ≠ x.id := by
  obtain ⟨u, hu, he, hexp⟩ := hc.of_recipient hq
  obtain ⟨q', t, hr, ht, ⟨hid, -⟩ | ⟨c, hid, -, hj⟩⟩ := h.subject hx
  · rintro rfl
    obtain ⟨v, hv, he', -⟩ := hc.of_recipient (hid ▸ hr)
    obtain rfl := Option.some.inj (hv.symm.trans hu)
    exact hne (he.symm.trans he')
  · rintro rfl
    obtain rfl := Option.some.inj (hu.symm.trans (hid ▸ hj.connection))
    simp [Machine.expects, Machine.accepts] at hexp

/-- deliveries under two entities change different instances -/
theorem Delivery.apart (h : e.Delivery m xs) (hc : e.Coherent []) {m' : PeerMessage}
    {ys : List Change} (h' : e.Delivery m' ys) (hne : m.entity ≠ m'.entity) {x y : Change}
    (hx : x ∈ xs) (hy : y ∈ ys) : x.id ≠ y.id ∧ x.slot ≠ y.slot := by
  have hid : x.id ≠ y.id := by
    intro heq
    obtain ⟨q, t, hr, ht, ⟨hx', -⟩ | ⟨c, hx', rfl, hj⟩⟩ := h.subject hx
    · exact h'.recipient_ne hc hne hr hy (hx'.symm.trans heq)
    obtain ⟨q', t', hr', ht', ⟨hy', -⟩ | ⟨c', hy', rfl, hj'⟩⟩ := h'.subject hy
    · exact h.recipient_ne hc hne.symm hr' hx (hy'.symm.trans heq.symm)
    -- one connection waits for one setup only
    have hcon := hj.connection
    rw [← hx', heq, hy', hj'.connection] at hcon
    obtain ⟨⟨rfl, -⟩, -⟩ : (c' = c ∧ _) ∧ _ := by simpa using hcon
    obtain ⟨u, hu, he, -⟩ := hc.of_recipient hr
    obtain ⟨v, hv, he', -⟩ := hc.of_recipient hr'
    obtain rfl := Option.some.inj (hu.symm.trans hv)
    exact hne (he.symm.trans he')
  obtain ⟨u, hu, hslot⟩ := h.known hx
  obtain ⟨v, hv, hslot'⟩ := h'.known hy
  refine ⟨hid, fun heq => hid ?_⟩
  exact hc.apart hu hv (hslot.trans (heq.trans hslot'.symm))

/-- a delivery under one entity does not change whom a message under another is for -/
theorem Delivery.recipient?_eq (h : e.Delivery m xs) (hc : e.Coherent [])
    (hc' : (e.changeAll xs).Coherent []) {m' : PeerMessage} (hne : m'.entity ≠ m.entity) :
    (e.changeAll xs).recipient? m' = e.recipient? m' := by
  cases hr : e.recipient? m' with
  | some q =>
    obtain ⟨t, ht, he, hx⟩ := hc.of_recipient hr
    refine hc'.recipient?_eq ((e.changeAll_tasks_other fun x hx => ?_).trans ht) he hx
    exact h.recipient_ne hc hne hr hx
  | none =>
    refine Option.eq_none_iff_forall_ne_some.2 fun q hq => ?_
    obtain ⟨u, hu, he, hexp⟩ := hc'.of_recipient hq
    rcases e.changeAll_tasks_cases hu with hold | ⟨x, hx, -, hleft⟩
    · simp [hc.recipient?_eq hold he hexp] at hr
    · exact hne (he.symm.trans (h.task? hc hx hleft).1)

theorem Delivery.joined_of (h : e.Delivery m xs) (hc : e.Coherent []) {c : AmfConnection}
    {slot slot' : Nat} (hj : (e.changeAll xs).Joined c slot slot')
    (hs : ∀ x ∈ xs, c.setup ≠ x.id) : e.Joined c slot slot' where
  setup := by
    obtain ⟨t, ht, hrest⟩ := hj.setup
    exact ⟨t, (e.changeAll_tasks_other hs).symm.trans ht, hrest⟩
  connection := by
    rcases e.changeAll_tasks_cases hj.connection with hold | ⟨x, hx, -, hleft⟩
    · exact hold
    · exact absurd rfl (h.task? hc hx hleft).2
  parent := e.changeAll_parents_of hj.parent

theorem Joined.changeAll {c : AmfConnection} {slot slot' : Nat} (hj : e.Joined c slot slot')
    (hs : ∀ x ∈ xs, c.setup ≠ x.id) (hcon : ∀ x ∈ xs, c.id ≠ x.id) :
    (e.changeAll xs).Joined c slot slot' where
  setup := by
    obtain ⟨t, ht, hrest⟩ := hj.setup
    exact ⟨t, (e.changeAll_tasks_other hs).trans ht, hrest⟩
  connection := (e.changeAll_tasks_other hcon).trans hj.connection
  parent := (e.changeAll_parents_other hs).trans hj.parent

/-- A delivery comes to the same changes after one under another entity, even if that has ended a
connection registered under the first. -/
theorem Delivery.after_other (h : e.Delivery m xs) (hc : e.Coherent []) {m' : PeerMessage}
    {ys : List Change} (h' : e.Delivery m' ys) (hc' : (e.changeAll ys).Coherent [])
    (hne : m.entity ≠ m'.entity) : (e.changeAll ys).Delivery m xs := by
  have hrec := h'.recipient?_eq hc hc' hne
  have hapart {x : Change} (hx : x ∈ xs) : ∀ y ∈ ys, x.id ≠ y.id :=
    fun y hy => (h.apart hc h' hne hx hy).1
  cases h with
  | dropped hr => exact .dropped (hrec.trans hr)
  | delayed hb =>
    refine .delayed ⟨hrec.trans hb.recipient, ?_, hb.rejection, hb.wait, hb.retries⟩
    exact (e.changeAll_tasks_other (hapart List.mem_cons_self)).trans hb.task
  | alone hr ht ha hj =>
    have hself := hapart List.mem_cons_self
    refine .alone (hrec.trans hr) ((e.changeAll_tasks_other hself).trans ht) ha ?_
    rintro c slot slot' rfl hjoined
    exact hj c slot slot' rfl (h'.joined_of hc hjoined hself)
  | together hr ht ha hj =>
    have hself := hapart List.mem_cons_self
    have hcon := hapart (List.mem_cons_of_mem _ List.mem_cons_self)
    exact .together (hrec.trans hr) ((e.changeAll_tasks_other hself).trans ht) ha
      (hj.changeAll hself hcon)

/-- a message is dropped, or it is told what it does to whom -/
theorem Steady.exists_delivery (hs : e.Steady) (m : PeerMessage) : ∃ xs, e.Delivery m xs := by
  cases hr : e.recipient? m with
  | none => exact ⟨_, .dropped hr⟩
  | some q =>
    obtain ⟨t, ht, -, hx⟩ := hs.coherent.of_recipient hr
    rcases Machine.resume_message_cases hx ∅ with
      ⟨m', event, r, hres, hm, hk, -, -⟩ | ⟨r, delay, hrej, hwait, hretry⟩
    · have hans : t.machine.Answered m.pdu r event := ⟨m', hres, hm⟩
      by_cases hj : ∃ c slot slot', c.setup = q ∧ e.Joined c slot slot'
      · obtain ⟨c, slot, slot', rfl, hj⟩ := hj
        obtain ⟨u, hu, rfl, hsetup, -⟩ := id hj.setup
        obtain rfl := Option.some.inj (hu.symm.trans ht)
        cases r with
        | setup outcome => exact ⟨_, .together hr ht hans hj⟩
        | update outcome => simp [hsetup, Result.kind] at hk
        | connection outcome => simp [hsetup, Result.kind] at hk
      · refine ⟨_, .alone hr ht hans fun c slot slot' he hjoined => ?_⟩
        exact hj ⟨c, slot, slot', he, hjoined⟩
    · exact ⟨_, .delayed ⟨hr, ht, hrej, hwait, hretry⟩⟩

variable [Gateway γ]

theorem Attached.run_close (ha : e.Attached) (hs : e.Steady) {q : ProcedureId} {t : Task}
    (ht : e.tasks.get? q = some t) (hn : e.armed.get? q = none)
    (hj : ∀ c slot slot', c.setup = q → ¬e.Joined c slot slot') (r : Result) (event : Event) :
    (e.close q t r event []).run = e.change (.ended q t r event) := by
  have hw : (e.change (.ended q t r event)).wakes = [] := hs.quiet
  cases hp : e.parents.get? q with
  | none =>
    rw [run_close_alone hs.quiet hp]
    exact close_orphan_eq_change hs.quiet hn hp t r event
  | some p =>
    have hwakes : (e.close q t r event []).wakes = [(p, .procedureDone q)] := by
      simp [Engine.close, hs.quiet, parentWake, hp]
    rw [run_of_wakes_cons hwakes, close_eq_change hs.quiet hn]
    -- the wake for `p` is discarded, as no connection by that name is joined to `q`
    have hidle : (e.change (.ended q t r event)).dispatch p (.procedureDone q) =
        e.change (.ended q t r event) := by
      cases hu : (e.change (.ended q t r event)).tasks.get? p with
      | none => exact dispatch_unknown hu _
      | some u =>
        cases hx : u.machine.expects (.procedureDone q) with
        | false => exact dispatch_unexpected hu hx
        | true =>
          obtain ⟨c, slot, hm, hset, hres | ⟨m', outcome, hget, -⟩⟩ :=
            Machine.resume_procedureDone_cases hx (e.change (.ended q t r event)).results
          · exact dispatch_idle hu hx hres
          · have hold : e.tasks.get? p = some u := (Table.get?_erase_eq_some_iff.1 hu).1
            obtain ⟨machine, slot'⟩ := u
            subst hm
            rcases ha.connection hold with hjoined | hv
            · exact absurd hjoined (hj c slot slot' hset)
            · have hslot : slot ≠ t.slot := fun he => hv.unoccupied ht he.symm
              rw [change_results_other _ _ hslot, hv.result] at hget
              simp at hget
    rw [hidle]
    exact run_of_wakes_nil hw

theorem Steady.handleMessage_answered (hs : e.Steady) {q : ProcedureId} {t : Task} {r : Result}
    {event : Event} (hr : e.recipient? m = some q) (ht : e.tasks.get? q = some t)
    (ha : t.machine.Answered m.pdu r event) :
    e.handleMessage m = (true, (e.close q t r event []).run) := by
  obtain ⟨u, hu, -, hx⟩ := hs.coherent.of_recipient hr
  obtain rfl := Option.some.inj (hu.symm.trans ht)
  obtain ⟨m', hres, hm⟩ := ha
  rw [handleMessage, hr]
  dsimp only
  rw [run_wake hs.quiet, dispatch_complete ht hx ((Machine.resume_message ..).trans hres) hm]

/-- the changes are what the delivery does, and it is reported if there are any -/
theorem Delivery.handleMessage_eq (h : e.Delivery m xs) (hs : e.Steady) (ha : e.Attached) :
    e.handleMessage m = ((e.recipient? m).isSome, e.changeAll xs) := by
  have hc := hs.coherent
  cases h with
  | dropped hr =>
    rw [handleMessage, hr]
    rfl
  | delayed hb =>
    obtain ⟨-, -, -, hn⟩ := hc.of_backs hb
    rw [hc.handleMessage_backs hs.quiet hb, hb.recipient, backedOff, backOff_eq hn]
    rfl
  | alone hr ht hans hj =>
    have hn := hc.unarmed_of_recipient hr ht
    rw [hs.handleMessage_answered hr ht hans, ha.run_close hs ht hn hj, hr]
    rfl
  | @together c t slot' outcome event hr ht hans hj =>
    have hn := hc.unarmed_of_recipient hr ht
    have hne := hc.apart_of_parent hj.connection hj.parent
    have hwait := (hc.waitingFor_connection hj.connection).2.2
    have hn' : e.armed.get? c.id = none :=
      (hc.unarmed hj.connection (by simp [Machine.waitingFor, hwait])).1
    have horphan : (e.change (.ended c.setup t (.setup outcome) event)).parents.get? c.id = none :=
      (Table.get?_erase_other _ hne).trans (hc.parents_connection hj.connection)
    rw [hs.handleMessage_answered hr ht hans, hr,
      hc.run_close_setup hs.quiet ht hj.connection hj.parent, close_eq_change hs.quiet hn,
      close_orphan_eq_change (e := e.change (.ended c.setup t (.setup outcome) event)) hs.quiet hn'
        horphan]
    rfl

end

theorem attached_after [Gateway γ] (gateway : γ) (ids : IdSource) (config : EngineConfig)
    (history : List Operation) :
    ((Engine.new gateway ids config).after history).Attached where
  connection hq := by
    have htied := tied_new gateway ids config history
    exact (htied.connection_cases (steady_new gateway ids config) hq).imp_right And.left

end Engine

end NgapProcedures
