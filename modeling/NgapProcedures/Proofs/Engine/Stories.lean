import NgapProcedures.Proofs.Engine.Becomes
import NgapProcedures.Proofs.Engine.Clock
import NgapProcedures.Proofs.Retry.Story

/-! The story of every retry procedure that is launched. However its events lie between those of
others, they are a story, told as far as the procedure has come, and the result of its slot is the
outcome that the story tells. -/

namespace NgapProcedures

variable {γ : Type}

namespace Engine

/-- the wait that an operation imposes on the owner of a slot, by a rejection that is delivered to
him -/
def imposed? (e : Engine γ) (slot : Nat) : Operation → Option Duration
  | .message m => ((e.recipient? m).bind (e.tasks.get? ·)).bind fun t =>
    if t.slot = slot then (t.machine.rejection? m.pdu).bind Rejection.wait? else none
  | _ => none

theorem Coherent.imposed?_eq_none {e : Engine γ} (hc : e.Coherent []) {slot : Nat} {op : Operation}
    (hother : ∀ q u, Delivers op e q → e.tasks.get? q = some u → u.slot ≠ slot) :
    e.imposed? slot op = none := by
  cases op with
  | message m =>
    cases hrec : e.recipient? m with
    | none => simp [imposed?, hrec]
    | some q =>
      obtain ⟨u, hu, -⟩ := hc.of_recipient hrec
      simp [imposed?, hrec, hu, hother q u ⟨m, rfl, hrec⟩ hu]
  | _ => rfl

theorem Coherent.imposed?_of_not_delivers {e : Engine γ} (hc : e.Coherent []) {id : ProcedureId}
    {t : Task} (ht : e.tasks.get? id = some t) {op : Operation} (hop : ¬Delivers op e id) :
    e.imposed? t.slot op = none :=
  hc.imposed?_eq_none fun _ _ hd hu he => hop (hc.apart hu ht he ▸ hd)

theorem imposed?_of_recipient {e : Engine γ} {m : PeerMessage} {id : ProcedureId} {t : Task}
    (hrec : e.recipient? m = some id) (ht : e.tasks.get? id = some t) :
    e.imposed? t.slot (.message m) = (t.machine.rejection? m.pdu).bind Rejection.wait? := by
  simp [imposed?, hrec, ht]

/-- How far the story of a machine has come. It goes on while the machine is live; after that it stays
as it is, whoever goes by the name of the machine then. -/
inductive Telling (e : Engine γ) (h : Handle) (m : Machine) (imposed : List Duration)
    (events : List Event) : Prop where
  | live {t : Task} {waits : List UInt64} {pending : Option UInt64}
      (ht : e.tasks.get? h.id = some t) (hslot : t.slot = h.slot)
      (hm : t.machine.kind = m.kind ∧ t.machine.entity = m.entity ∧ t.machine.budget = m.budget)
      (hr : t.machine.Recounted imposed events waits pending)
  | closed {result : Option Result} {waits : List UInt64} {pending spent : Option UInt64}
      (hv : e.Vacant h.slot result) (hres : ∀ r, result = some r → r.retryOutcome?.isSome = true)
      (hstory : Story h.id m.kind m.entity m.budget.toNat imposed
        (result.bind Result.retryOutcome?) (lifetime events) waits pending spent)
      (hlast : e.tasks.get? h.id = none ∨ Relaunched events)

/-- the machine is gone, and its slot holds the outcome that the story tells -/
theorem Telling.ended {e : Engine γ} {h : Handle} {m : Machine} {imposed : List Duration}
    {events : List Event} {r : Result} {outcome : RetryOutcome Unit} {waits : List UInt64}
    {pending spent : Option UInt64} (hv : e.Vacant h.slot (some r))
    (hout : r.retryOutcome? = some outcome) (hn : e.tasks.get? h.id = none)
    (hstory : Story h.id m.kind m.entity m.budget.toNat imposed (some outcome) events waits pending
      spent) : e.Telling h m imposed events :=
  .closed hv (fun _ hr => Option.some.inj hr ▸ Option.isSome_of_mem hout)
    (by rwa [hstory.lifetime_eq, Option.bind_some, hout]) (.inl hn)

variable [Gateway γ]

/-- the waits that a history imposes on the owner of a slot -/
def imposedDuring (e : Engine γ) (slot : Nat) : List Operation → List Duration
  | [] => []
  | op :: rest => (e.imposed? slot op).toList ++ imposedDuring (e.step op).2 slot rest

theorem imposedDuring_spelled (e : Engine γ) (slot : Nat) (history : List Operation) :
    e.imposedDuring slot history =
      e.imposedDuring slot (history.flatMap Operation.spelled) := by
  have hcollects : Collects (γ := γ) (fun e op => (e.imposed? slot op).toList)
      fun e history => e.imposedDuring slot history := ⟨fun _ => rfl, fun _ _ _ => rfl⟩
  refine hcollects.spelled (fun e k => ?_) e history
  simp only [imposed?]
  generalize k.toNat = n
  induction n generalizing e with
  | zero => rfl
  | succ n ih => exact ih e.advance

inductive Launches (e : Engine γ) : Operation → Handle → Machine → Prop where
  | setup {request : ProcedureRequest NgSetupRequest} {h : Handle}
      (hok : (e.launchSetup request).1 = .ok h) :
      Launches e (.setup request) h (.setup (.new h.id request))
  | update {request : ProcedureRequest RanConfigurationUpdate} {h : Handle}
      (hok : (e.launchConfigUpdate request).1 = .ok h) :
      Launches e (.update request) h (.update (.new h.id request))
  | connect {controller : EntityId} {request : ProcedureRequest NgSetupRequest} {h : Handle}
      (hi : e.isActive controller .amfConnection = false)
      (hok : (e.launchSetup request).1 = .ok h) :
      Launches e (.connect controller request) h (.setup (.new h.id request))

variable {e : Engine γ} {h : Handle} {m : Machine} {op : Operation} {imposed : List Duration}
  {events : List Event}

omit [Gateway γ] in
/-- the end of a live machine is the end of its story -/
theorem Steady.telling_settled (hs : e.Steady) {e' : Engine γ} {t : Task} {waits : List UInt64}
    {pending : Option UInt64} {r : Result} {new : List Event} (ht : e.tasks.get? h.id = some t)
    (hslot : t.slot = h.slot)
    (hm : t.machine.kind = m.kind ∧ t.machine.entity = m.entity ∧ t.machine.budget = m.budget)
    (hr : t.machine.Recounted imposed events waits pending) (hend : Settles op e h.id t r new)
    (hn : e'.tasks.get? h.id = none) (hv : e'.Vacant t.slot (some r)) :
    e'.Telling h m (imposed ++ (e.imposed? t.slot op).toList) (events ++ new) := by
  obtain ⟨hkind, hentity, hbudget⟩ := hm
  have hid := hs.coherent.named ht
  rw [hslot] at hv
  cases hend with
  | cancelled hop =>
    have hstory := hr.cancelled
    rw [hid, hkind, hentity, hbudget] at hstory
    rw [hs.coherent.imposed?_of_not_delivers ht hop, Option.toList_none, List.append_nil]
    exact .ended hv (Machine.retryOutcome?_cancellation hr.retry) hn hstory
  | @answered m' outcome _ hop hrec hverdict hout =>
    obtain ⟨u, hu, -, hx⟩ := hs.coherent.of_recipient hrec
    obtain rfl := Option.some.inj (hu.symm.trans ht)
    simp only [Machine.expects, Bool.and_eq_true, beq_iff_eq] at hx
    obtain rfl := hr.pending_of_response hx.1
    obtain ⟨spent, hstory⟩ := hr.answered hverdict
    rw [hid, hkind, hentity, hbudget] at hstory
    rw [hop, imposed?_of_recipient hrec ht]
    exact .ended hv hout hn hstory
  | informed hc => exact absurd (by rw [hc]; rfl) hr.retry

/-- a live machine takes its story further, or ends it -/
theorem Steady.telling_live (hs : e.Steady) (hop : ∀ k, op ≠ .advanceBy k)
    (hN : m.budget.toNat + 1 < 2 ^ 32) {t : Task} {waits : List UInt64} {pending : Option UInt64}
    (ht : e.tasks.get? h.id = some t) (hslot : t.slot = h.slot)
    (hm : t.machine.kind = m.kind ∧ t.machine.entity = m.entity ∧ t.machine.budget = m.budget)
    (hr : t.machine.Recounted imposed events waits pending) :
    (e.step op).2.Telling h m (imposed ++ (e.imposed? h.slot op).toList)
      (events ++ told h.id (e.logged op)) := by
  have hb := hs.becomes_step hop h.id
  obtain ⟨hkind, hentity, hbudget⟩ := hm
  have hid := hs.coherent.named ht
  have hquiet (hop : ¬Delivers op e h.id) : imposed ++ (e.imposed? t.slot op).toList = imposed := by
    rw [hs.coherent.imposed?_of_not_delivers ht hop, Option.toList_none, List.append_nil]
  rw [← hslot]
  rw [ht] at hb
  generalize told h.id (e.logged op) = new at hb
  cases hb with
  | kept hop ht' =>
    rw [hquiet hop, List.append_nil]
    exact .live ht' hslot ⟨hkind, hentity, hbudget⟩ hr
  | @backedOff _ m' r delay hop hb ht' =>
    obtain ⟨-, -, hwait, -⟩ := hs.coherent.of_backs hb
    obtain ⟨-, hentity', hkind'⟩ := t.machine.static_backedOff r
    obtain rfl := hr.pending_of_response hwait
    subst hop
    rw [imposed?_of_recipient hb.recipient ht, hb.rejection, Option.bind_some, hb.wait, ← hid]
    exact .live ht' hslot ⟨hkind'.trans hkind, hentity'.trans hentity,
      (t.machine.budget_backedOff r).trans hbudget⟩ (hr.backedOff hb.wait hb.retries)
  | resent hop hdue hwait ht' =>
    obtain ⟨-, hentity', hkind'⟩ := t.machine.static_resent
    obtain ⟨ms, hp⟩ := hr.pending_of_timer hwait
    subst hop
    rw [hquiet (not_delivers (by simp)), ← hid]
    exact .live ht' hslot ⟨hkind'.trans hkind, hentity'.trans hentity,
      t.machine.budget_resent.trans hbudget⟩ (hr.resent hp (hbudget ▸ hN))
  | settled hend hn hv => exact hs.telling_settled ht hslot ⟨hkind, hentity, hbudget⟩ hr hend hn hv
  | removed hop hn hv =>
    have hstory := hr.story
    rw [hid, hkind, hentity, hbudget] at hstory
    rw [hquiet (hop ▸ not_delivers (by simp)), List.append_nil]
    exact .closed (hslot ▸ hv) (by simp) (hstory.lifetime_eq.symm ▸ hstory) (.inl hn)

/-- A story that is closed stays as it is: whatever else is told under the name begins with another
launch. -/
theorem Steady.telling_closed (hs : e.Steady) (hop : ∀ k, op ≠ .advanceBy k)
    {result : Option Result} {waits : List UInt64} {pending spent : Option UInt64}
    (hv : e.Vacant h.slot result) (hres : ∀ r, result = some r → r.retryOutcome?.isSome = true)
    (hstory : Story h.id m.kind m.entity m.budget.toNat imposed
      (result.bind Result.retryOutcome?) (lifetime events) waits pending spent)
    (hlast : e.tasks.get? h.id = none ∨ Relaunched events) :
    (e.step op).2.Telling h m (imposed ++ (e.imposed? h.slot op).toList)
      (events ++ told h.id (e.logged op)) := by
  rw [hs.coherent.imposed?_eq_none fun _ _ _ hu => hv.unoccupied hu, Option.toList_none,
    List.append_nil]
  have hv' : (e.step op).2.Vacant h.slot result := (hv.after hs [op]).1
  have hne : events ≠ [] := by
    rintro rfl
    simpa [opened, lifetime] using hstory.events_eq
  rcases hlast with hn | hlast
  · have hb := hs.becomes_step hop h.id
    rw [hn] at hb
    generalize told h.id (e.logged op) = new at hb
    have hagain {launch : Event} (hl : launch.isLaunch = true) (rest : List Event) :
        (e.step op).2.Telling h m imposed (events ++ launch :: rest) :=
      .closed hv' hres (by rwa [lifetime_append_launch hne hl]) (.inr ⟨_, _, _, rfl, hne, hl⟩)
    cases hb with
    | absent hn' => exact .closed hv' hres (by rwa [List.append_nil]) (.inl hn')
    | launched hu rest => exact hagain rfl rest
    | undone hn' kind entity rest => exact hagain rfl rest
  · exact .closed hv' hres (by rwa [hlast.lifetime_append]) (.inr (hlast.append _))

theorem Telling.step (ht : e.Telling h m imposed events) (hs : e.Steady)
    (hop : ∀ k, op ≠ .advanceBy k) (hN : m.budget.toNat + 1 < 2 ^ 32) :
    (e.step op).2.Telling h m (imposed ++ (e.imposed? h.slot op).toList)
      (events ++ told h.id (e.logged op)) := by
  cases ht with
  | live ht hslot hm hr => exact hs.telling_live hop hN ht hslot hm hr
  | closed hv hres hstory hlast => exact hs.telling_closed hop hv hres hstory hlast

theorem Telling.after (ht : e.Telling h m imposed events) (hs : e.Steady)
    (hN : m.budget.toNat + 1 < 2 ^ 32) (future : List Operation) :
    (e.after future).Telling h m (imposed ++ e.imposedDuring h.slot future)
      (events ++ told h.id (e.loggedDuring future)) := by
  rw [after_spelled, imposedDuring_spelled, loggedDuring_spelled]
  refine hs.spelled_induction (P := fun e ops => ∀ imposed events, e.Telling h m imposed events →
    (e.after ops).Telling h m (imposed ++ e.imposedDuring h.slot ops)
      (events ++ told h.id (e.loggedDuring ops))) (fun _ imposed events ht => ?_)
    (fun {e op rest} hs hop _ ih imposed events ht => ?_) future imposed events ht
  · simpa [imposedDuring, loggedDuring, told, Engine.after] using ht
  · have hrest := ih _ _ (ht.step hs hop hN)
    rw [List.append_assoc, List.append_assoc, ← told_append] at hrest
    exact hrest

theorem Launches.recounted (hl : e.Launches op h m) :
    m.launched.Recounted [] m.overture [] none := by
  cases hl
  · exact ⟨⟨rfl, rfl, Nat.zero_le _, by simp, by simp, by simp⟩, nofun, rfl, rfl, rfl⟩
  · exact ⟨⟨rfl, rfl, Nat.zero_le _, by simp, by simp, by simp⟩, nofun, rfl, rfl, rfl⟩
  · exact ⟨⟨rfl, rfl, Nat.zero_le _, by simp, by simp, by simp⟩, nofun, rfl, rfl, rfl⟩

theorem Launches.id_eq (hl : e.Launches op h m) : m.id = h.id := by
  cases hl <;> rfl

theorem Steady.telling_launch (hs : e.Steady) (hl : e.Launches op h m) :
    (e.step op).2.Telling h m [] (told h.id (e.logged op)) := by
  have hr := hl.recounted
  have hid := hl.id_eq
  obtain ⟨hid', hentity, hkind⟩ := m.static_launched
  have hlive (ht : (e.step op).2.tasks.get? h.id = some ⟨m.launched, h.slot⟩)
      (hevents : told h.id (e.logged op) = m.overture) :
      (e.step op).2.Telling h m [] (told h.id (e.logged op)) := by
    rw [hevents]
    exact .live ht rfl ⟨hkind, hentity, m.budget_launched⟩ hr
  -- the machine of a launch that is not for a connection is taken in alone
  have henroll {e₁ : Engine γ} (he : (e.step op).2 = e₁.enroll m) (hop : op ≠ .drainEvents)
      (hlog : e₁.log = e.log) (hslot : e₁.started = h.slot) :
      (e.step op).2.Telling h m [] (told h.id (e.logged op)) := by
    refine hlive ?_ ?_
    · rw [he, ← hid, ← hslot]
      exact Table.get?_insert_self ..
    · rw [logged_eq hop (show (e.step op).2.log = e.log ++ m.overture by rw [he, log_enroll, hlog]),
        told_overture, if_pos hid.symm]
  cases hl with
  | @setup request _ hok =>
    rcases launchSetup_cases hs.quiet request with ⟨error, he⟩ | ⟨registry, -, he⟩
    · simp [he] at hok
    · obtain rfl : _ = h := by simpa [he] using hok
      exact henroll (congrArg Prod.snd he) (by simp) rfl rfl
  | @update request _ hok =>
    rcases launchConfigUpdate_cases hs.quiet request with ⟨error, he⟩ | ⟨registry, -, he⟩
    · simp [he] at hok
    · obtain rfl : _ = h := by simpa [he] using hok
      exact henroll (congrArg Prod.snd he) (by simp) rfl rfl
  | connect hi hok =>
    rcases hs.told_connect hi hok with ⟨ht, hevents⟩ | ⟨hn, hv, hevents⟩
    · exact hlive ht hevents
    · have hstory := hr.cancelled
      rw [hid', hentity, hkind, Machine.budget_launched] at hstory
      rw [hevents]
      exact .ended hv rfl hn hstory

/-- The events that tell of a retry procedure are a story, from its launch to where its name is given
out again, whatever is done to the engine. Its handle is ready once the story has its end, and with the
outcome that this tells of. -/
theorem story_after (gateway : γ) (ids : IdSource) (config : EngineConfig)
    (history : List Operation) {op : Operation} {h : Handle} {m : Machine}
    (hl : ((Engine.new gateway ids config).after history).Launches op h m)
    (hN : m.budget.toNat < 2 ^ 32 - 1) (future : List Operation) :
    let e := (Engine.new gateway ids config).after history
    let e' := e.after (op :: future)
    let events := lifetime (told h.id (e.loggedDuring (op :: future)))
    let outcome := (e'.result? h).bind Result.retryOutcome?
    e.drainedDuring (op :: future) ++ e'.log = e.log ++ e.loggedDuring (op :: future) ∧
    (∃ waits pending spent, Story h.id m.kind m.entity m.budget.toNat
      (e.imposedDuring h.slot (op :: future)) outcome events waits pending spent) ∧
    (e'.ready h = true ↔ ∃ event ∈ events, event.closes = true) ∧
    (.procedureSucceeded h.id ∈ events ↔ outcome = some (.success ())) ∧
    ((∃ reason, .procedureRejected h.id reason ∈ events) ↔
      ∃ r, outcome = some (.failure (.rejected r))) ∧
    ((∃ n, .retriesExhausted h.id n ∈ events ∧ n.toNat = m.budget.toNat + 1) ↔
      ∃ last n, outcome = some (.failure (.retriesExhausted last n)) ∧
        n.toNat = m.budget.toNat + 1) ∧
    (.procedureCancelled h.id ∈ events ↔ outcome = some .cancelled) := by
  intro e e' events outcome
  have hs : e.Steady := steady_after gateway ids config history
  have hs' : (e.step op).2.Steady := hs.after [op]
  have htelling : e'.Telling h m (e.imposedDuring h.slot (op :: future))
      (told h.id (e.loggedDuring (op :: future))) := by
    have hrest := (hs.telling_launch hl).after hs' (by omega) future
    have himposed : e.imposed? h.slot op = none := by cases hl <;> rfl
    rw [List.nil_append, ← told_append] at hrest
    rwa [imposedDuring, himposed, Option.toList_none, List.nil_append, loggedDuring]
  obtain ⟨waits, pending, spent, hstory, hready⟩ : ∃ waits pending spent,
      Story h.id m.kind m.entity m.budget.toNat (e.imposedDuring h.slot (op :: future)) outcome
        events waits pending spent ∧ (e'.ready h = true ↔ outcome.isSome = true) := by
    cases htelling with
    | @live t waits pending ht hslot hm hr =>
      have hstory := hr.story
      have hnone : e'.result? h = none := by
        rw [result?, ← hslot]
        exact ((hs'.after future).coherent.slot ht).2
      rw [(hs'.after future).coherent.named ht, hm.1, hm.2.1, hm.2.2] at hstory
      refine ⟨waits, pending, none, ?_, by simp [ready, outcome, hnone]⟩
      simp only [outcome, events, hnone, Option.bind_none, hstory.lifetime_eq]
      exact hstory
    | @closed result waits pending spent hv hres hstory hlast =>
      have hresult : e'.result? h = result := hv.result
      refine ⟨waits, pending, spent, by simpa only [outcome, events, hresult] using hstory, ?_⟩
      cases result with
      | none => simp [ready, outcome, hresult]
      | some r => simp [ready, outcome, hresult, hres r rfl]
  exact ⟨e.drained_append_log _, ⟨waits, pending, spent, hstory⟩, hready.trans hstory.closed_iff,
    hstory.outcome_iff⟩

/-- a setup that is cancelled while it waits for its second attempt -/
theorem story_after_cancel :
    let e := Engine.new (⟨⟩ : NoGateway) .sequential {}
    let request : ProcedureRequest NgSetupRequest :=
      ⟨⟨"amf-1"⟩, ⟨⟨"00101", 411, 22⟩, none, [⟨7, ["00101"]⟩], .v128⟩, 1⟩
    let m : PeerMessage := ⟨⟨"amf-1"⟩, .ngSetupFailure ⟨⟨.misc, "unspecified"⟩, some .s1⟩⟩
    let id : ProcedureId := ⟨"proc-1"⟩
    e.loggedDuring [.setup request, .message m, .drainEvents, .cancel id] =
        [.procedureLaunched id "ng_setup" ⟨"amf-1"⟩, .requestSent id 1,
          .backoffStarted id 1 1000, .procedureCancelled id] ∧
      ∃ waits pending spent, Story id .ngSetup ⟨"amf-1"⟩ 1 [.ofSeconds 1] (some .cancelled)
        (e.loggedDuring [.setup request, .message m, .drainEvents, .cancel id])
        waits pending spent := by
  intro e request m id
  have hl : e.Launches (.setup request) ⟨id, 0⟩ (.setup (.new id request)) :=
    .setup (h := ⟨id, 0⟩) (by decide +kernel)
  have hevents : e.loggedDuring [.setup request, .message m, .drainEvents, .cancel id] =
      [.procedureLaunched id "ng_setup" ⟨"amf-1"⟩, .requestSent id 1,
        .backoffStarted id 1 1000, .procedureCancelled id] := by decide +kernel
  have himposed : e.imposedDuring 0 [.setup request, .message m, .drainEvents, .cancel id] =
      [.ofSeconds 1] := by decide +kernel
  have houtcome : ((e.after [.setup request, .message m, .drainEvents, .cancel id]).result?
      ⟨id, 0⟩).bind Result.retryOutcome? = some .cancelled := by decide +kernel
  obtain ⟨-, ⟨waits, pending, spent, hstory⟩, -⟩ := story_after _ _ _ [] hl (by decide)
    [.message m, .drainEvents, .cancel id]
  refine ⟨hevents, waits, pending, spent, ?_⟩
  have hstory : Story id .ngSetup ⟨"amf-1"⟩ 1 (e.imposedDuring 0 _) _
    (lifetime (told id (e.loggedDuring _))) waits pending spent := hstory
  rw [himposed, hevents] at hstory
  rw [hevents]
  exact houtcome ▸ hstory

end Engine

end NgapProcedures
