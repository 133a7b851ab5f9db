import Mathlib.Order.Bounds.Defs
import NgapProcedures.Proofs.Engine.Requests

/-! Exact backoffs. A procedure that is told to wait sends its request again on the tick that its
wait is over at, and not before, whatever else happens in between. Those that are due at the same
tick send in the order in which their waits began. -/

namespace NgapProcedures.Engine

variable {γ : Type}

theorem sentBy_requests_of_not_mem {e : Engine γ} (hc : e.Coherent []) {ids : List ProcedureId}
    {id : ProcedureId} (hid : id ∉ ids) {t : Task} (ht : e.tasks.get? id = some t) :
    sentBy t.slot (e.requests ids) = [] := by
  refine sentBy_eq_nil fun x hx he => hid ?_
  obtain ⟨q, hq, u, hu, hslot, -⟩ := mem_requests_iff.1 hx
  exact hc.apart hu ht (hslot.trans he) ▸ hq

theorem sentBy_requests {e : Engine γ} (hc : e.Coherent []) {ids : List ProcedureId}
    (hd : ids.Nodup) {id : ProcedureId} (hid : id ∈ ids) {t : Task}
    (ht : e.tasks.get? id = some t) {message : PeerMessage}
    (hm : t.machine.request? = some message) : sentBy t.slot (e.requests ids) = [message] := by
  induction ids with
  | nil => simp at hid
  | cons q rest ih =>
    obtain ⟨hnot, hd⟩ := List.nodup_cons.1 hd
    have hcons : e.requests (q :: rest) = e.requests [q] ++ e.requests rest :=
      List.filterMap_append (l := [q])
    rw [hcons, sentBy_append]
    by_cases hq : q = id
    · subst hq
      rw [sentBy_requests_of_not_mem hc hnot ht]
      simp [requests, sentBy, ht, hm]
    · rw [sentBy_requests_of_not_mem hc (by simpa using Ne.symm hq) ht,
        ih hd (List.mem_of_ne_of_mem (Ne.symm hq) hid), List.nil_append]

theorem pair_sublist {α : Type} {R : α → α → Prop} {l : List α} (h : l.Pairwise R) {a b : α}
    (ha : a ∈ l) (hb : b ∈ l) (hne : a ≠ b) (hr : ¬R b a) : [a, b].Sublist l := by
  induction l with
  | nil => simp at ha
  | cons c rest ih =>
    obtain ⟨hc, hrest⟩ := List.pairwise_cons.1 h
    rcases List.mem_cons.1 ha with rfl | ha'
    · have hb' := List.mem_of_ne_of_mem (Ne.symm hne) hb
      exact (List.singleton_sublist.2 hb').cons_cons a
    · rcases List.mem_cons.1 hb with rfl | hb'
      · exact absurd (hc a ha') hr
      · exact (ih hrest ha' hb').cons c

variable [Gateway γ] {e : Engine γ}

/-- the tick that a timer is due at makes its owner send, once -/
theorem Waiting.fires {id : ProcedureId} {t : Task} {k : TimerId} {d : UInt64}
    (h : e.Waiting id t k d) (hs : e.Steady) (ht : e.Timed) (hd : d ≤ e.now + 1) :
    e.advance.tasks.get? id = some { t with machine := t.machine.resent } ∧
      ∃ message, t.machine.request? = some message ∧ sentBy t.slot e.advanceSends = [message] := by
  have hdue := (ht.mem_expiring_iff hs.coherent h.timer).2 hd
  obtain ⟨tasks, armed, he, -, htasks⟩ := hs.coherent.advance_spec hs.quiet
  obtain ⟨message, hm, -⟩ :=
    Machine.resume_timerFired (hs.coherent.suspended h.task) h.backoff e.results
  refine ⟨?_, message, hm, ?_⟩
  · rw [he]
    exact (htasks id).trans (by rw [if_pos hdue, h.task]; rfl)
  · rw [hs.advanceSends_eq]
    exact sentBy_requests hs.coherent (expiring_nodup _ _) hdue h.task hm

theorem Waiting.fires_before {id id' : ProcedureId} {t t' : Task} {k k' : TimerId} {d : UInt64}
    (h : e.Waiting id t k d) (h' : e.Waiting id' t' k' d) (hs : e.Steady) (ht : e.Timed)
    (hd : d ≤ e.now + 1) (hk : k < k') {message message' : PeerMessage}
    (hm : t.machine.request? = some message) (hm' : t'.machine.request? = some message') :
    [(t.slot, message), (t'.slot, message')].Sublist e.advanceSends := by
  have hfired := (ht.sound.mem_fired_iff _).2 ⟨h.timer, hd⟩
  have hfired' := (ht.sound.mem_fired_iff _).2 ⟨h'.timer, hd⟩
  have hne : (⟨k, id, d⟩ : Timer) ≠ ⟨k', id', d⟩ := fun he => by
    obtain rfl := (Timer.mk.inj he).1
    exact UInt64.lt_irrefl k hk
  have hlate : ¬(⟨k', id', d⟩ : Timer).before ⟨k, id, d⟩ = true := by
    rw [Timer.before_iff]
    rintro (hlt | ⟨-, hle⟩)
    · exact UInt64.lt_irrefl d hlt
    · exact UInt64.not_le.2 hk hle
  have hsub := pair_sublist ht.sound.division_advance.sorted hfired hfired' hne hlate
  rw [hs.advanceSends_eq, ht.expiring_eq hs.coherent]
  have hrequests := (hsub.map (·.owner)).filterMap
    fun id => (e.tasks.get? id).bind fun t => t.machine.request?.map (t.slot, ·)
  simpa [requests, h.task, h'.task, hm, hm'] using hrequests

structure Begins (e : Engine γ) (tick : Duration) (m : PeerMessage) (id : ProcedureId) (t : Task)
    (r : Rejection) (n : Nat) : Prop where
  backs : ∃ delay, e.Backs m id t r delay ∧
    IsLeast {n | 1 ≤ n ∧ delay.nanos ≤ n * tick.nanos} n
  fits : e.now.toNat + n < 2 ^ 64

/-- An instance is gone for good: its slot keeps what was left there, and it never sends again. -/
structure Gone (e : Engine γ) (slot : Nat) (result : Option Result) : Prop where
  left : e.results.get? slot = result
  never : ∀ future, sentBy slot (e.sendsDuring future) = [] ∧
    (e.after future).results.get? slot = result

structure Resting (e : Engine γ) (id : ProcedureId) (t : Task) : Prop where
  task : e.tasks.get? id = some t
  unready : e.ready ⟨id, t.slot⟩ = false
  deaf : ∀ m, m.entity = t.machine.entity → t.machine.accepts m.pdu = true →
    e.handleMessage m = (false, e)

theorem Vacant.gone {slot : Nat} {result : Option Result} (h : e.Vacant slot result)
    (hs : e.Steady) : e.Gone slot result :=
  ⟨h.result, fun future => ⟨(h.after hs future).2, (h.after hs future).1.result⟩⟩

theorem Waiting.resting {id : ProcedureId} {t : Task} {k : TimerId} {d : UInt64}
    (h : e.Waiting id t k d) (hs : e.Steady) : e.Resting id t where
  task := h.task
  unready := by simp [ready, result?, (hs.coherent.slot h.task).2]
  deaf m he ha := by
    have hnone : e.recipient? m = none := hs.coherent.recipient?_eq_none ha fun hu heu hk => by
      obtain rfl := hs.coherent.single hu h.task (heu.trans he) hk
      rw [← Option.some.inj (h.task.symm.trans hu), h.backoff]
      simp
    simp [handleMessage, hnone]

theorem Begins.waiting {tick : Duration} {m : PeerMessage} {id : ProcedureId} {t : Task}
    {r : Rejection} {n : Nat} (h : e.Begins tick m id t r n) (hs : e.Steady) (ht : e.Timed)
    (htick : e.timers.tick = tick) (hpos : 0 < tick.nanos) :
    ∃ d : UInt64, d.toNat = e.now.toNat + n ∧
      (e.step (.message m)).2.timers.nextId = e.timers.nextId + 1 ∧
      (e.step (.message m)).2.now = e.now ∧
      (e.step (.message m)).2.Waiting id { t with machine := t.machine.backedOff r }
        e.timers.nextId d := by
  obtain ⟨delay, hb, hleast⟩ := h.backs
  obtain ⟨-, -, -, ha⟩ := hs.coherent.of_backs hb
  have hfit := h.fits
  subst htick
  have hticks : (e.timers.ticksFor delay).toNat = n :=
    TimerService.toNat_ticksFor_of_least hpos hleast.1.1 hleast.1.2
      (fun k hk hc => hleast.2 ⟨hk, hc⟩) (by omega)
  refine ⟨(e.timers.scheduled id (e.timers.ticksFor delay)).deadline, ?_, ?_⟩
  · have hnow : e.timers.now.toNat = e.now.toNat := rfl
    have hge := hleast.1.1
    rw [TimerService.toNat_deadline_scheduled, hticks, hnow]
    omega
  · simp only [Engine.step, hs.coherent.handleMessage_backs hs.quiet hb]
    rw [backedOff, backOff_eq ha]
    refine ⟨rfl, rfl, Table.get?_insert_self .., Machine.waitingFor_backedOff r hb.retries, ?_⟩
    exact (ht.sound.waits_scheduleTicks id (e.timers.ticksFor delay) _).2 (.inl rfl)

section

variable {e' : Engine γ} {tick : Duration} {m : PeerMessage} {id : ProcedureId} {t : Task}
  {r : Rejection} {n : Nat}

/-- Until its timer is due, the procedure waits or its slot is vacant. -/
theorem Begins.until_due (h : e.Begins tick m id t r n) (he : (e.step (.message m)).2 = e')
    (hs : e.Steady) (ht : e.Timed) (htick : e.timers.tick = tick) (hpos : 0 < tick.nanos)
    (future : List Operation) (hn : e.timers.nextId.toNat + 1 + messages future < 2 ^ 64)
    (hlt : ticks future < n) :
    (e'.after future).Steady ∧ (e'.after future).Timed ∧
      e.timers.nextId.toNat < (e'.after future).timers.nextId.toNat ∧
      (e'.after future).timers.nextId.toNat ≤ e.timers.nextId.toNat + 1 + messages future ∧
      (e'.after future).now.toNat = e.now.toNat + ticks future ∧
      sentBy t.slot (e'.sendsDuring future) = [] ∧
      ∃ d : UInt64, d.toNat = e.now.toNat + n ∧
        ((e'.after future).Waiting id { t with machine := t.machine.backedOff r }
            e.timers.nextId d ∨
          (e'.after future).Vacant t.slot (some t.machine.cancellation) ∨
          (e'.after future).Vacant t.slot none ∧ .remove t.machine.entity ∈ future) := by
  obtain ⟨d, hd, hid, hnow, hw⟩ := h.waiting hs ht htick hpos
  have hop (k : UInt64) : Operation.message m ≠ .advanceBy k := by simp
  have hs' := hs.moves (hs.moves_step hop)
  have hcount : messages [.message m] = 1 := rfl
  obtain ⟨ht', -⟩ := ht.step hs hop (by omega)
  rw [he] at hid hnow hw hs' ht'
  have hid : e'.timers.nextId.toNat = e.timers.nextId.toNat + 1 := by
    rw [hid]
    exact toNat_add_one (by omega)
  have hnow : e'.now.toNat = e.now.toNat := congrArg UInt64.toNat hnow
  have hfit := h.fits
  obtain ⟨hta, hle, hge⟩ := Timed.after ht' hs' future (by omega)
  obtain ⟨hfate, hsent⟩ := hw.after hs' ht' future (by omega) (by omega)
  rw [Machine.cancellation_backedOff, (t.machine.static_backedOff r).2.1] at hfate
  exact ⟨hs'.after future, hta, by omega, by omega,
    by rw [hs'.now_after future (by omega), hnow], hsent, d, hd, hfate⟩

/-- One that rests on its last tick has a timer that is due with the next. -/
theorem Begins.due (h : e.Begins tick m id t r n) (he : (e.step (.message m)).2 = e')
    (hs : e.Steady) (ht : e.Timed) (htick : e.timers.tick = tick) (hpos : 0 < tick.nanos)
    {future : List Operation} (hn : e.timers.nextId.toNat + 1 + messages future < 2 ^ 64)
    (hlast : ticks future + 1 = n)
    (hrest : (e'.after future).Resting id { t with machine := t.machine.backedOff r }) :
    ∃ d : UInt64, d.toNat = e.now.toNat + n ∧ d ≤ (e'.after future).now + 1 ∧
      (e'.after future).Waiting id { t with machine := t.machine.backedOff r }
        e.timers.nextId d := by
  obtain ⟨-, -, -, -, hnow, -, d, hd, hfate⟩ := h.until_due he hs ht htick hpos future hn (by omega)
  have hfit := h.fits
  refine ⟨d, hd, ?_, ?_⟩
  · rw [UInt64.le_iff_toNat_le, toNat_add_one (by omega)]
    omega
  · rcases hfate with hw | hv | ⟨hv, -⟩
    · exact hw
    · exact (hv.unoccupied hrest.task rfl).elim
    · exact (hv.unoccupied hrest.task rfl).elim

/-- Of two that rest on the same last tick, the one that began to rest first sends first. -/
theorem Begins.in_order (h : e.Begins tick m id t r n) (he : (e.step (.message m)).2 = e')
    (hs : e.Steady) (ht : e.Timed) (htick : e.timers.tick = tick) (hpos : 0 < tick.nanos)
    {between later : List Operation} {m₂ : PeerMessage} {id₂ : ProcedureId} {t₂ : Task}
    {r₂ : Rejection} {future : List Operation} (hfuture : future = between ++ .message m₂ :: later)
    (hn : e.timers.nextId.toNat + 1 + messages future < 2 ^ 64) (hlast : ticks future + 1 = n)
    (hrest : (e'.after future).Resting id { t with machine := t.machine.backedOff r })
    (h₂ : (e'.after between).Begins tick m₂ id₂ t₂ r₂ (ticks later + 1))
    (hrest₂ : (e'.after future).Resting id₂ { t₂ with machine := t₂.machine.backedOff r₂ })
    {message message₂ : PeerMessage} (hm : t.machine.request? = some message)
    (hm₂ : t₂.machine.request? = some message₂) :
    [(t.slot, message), (t₂.slot, message₂)].Sublist (e'.after future).advanceSends := by
  have hticks : ticks future = ticks between + ticks later := by
    rw [hfuture, ticks_append, ticks_cons]
    simp [Operation.ticks]
  have hcount : messages future = messages between + (1 + messages later) := by
    rw [hfuture, messages_append, ← List.singleton_append, messages_append]
    rfl
  have hafter : e'.after future = ((e'.after between).step (.message m₂)).2.after later := by
    rw [hfuture, after_append]
    rfl
  obtain ⟨hs₂, ht₂, hid₂, hbound, hnow₂, -⟩ :=
    h.until_due he hs ht htick hpos between (by omega) (by omega)
  obtain ⟨hsl, htl, -⟩ := h.until_due he hs ht htick hpos future (by omega) (by omega)
  obtain ⟨d, hd, hdue, hw⟩ := h.due he hs ht htick hpos hn hlast hrest
  have htick₂ : (e'.after between).timers.tick = tick := by
    rw [← htick, ← he]
    exact hs.tick_after (.message m :: between)
  rw [hafter] at hrest₂
  obtain ⟨d₂, hd₂, -, hw₂⟩ := h₂.due rfl hs₂ ht₂ htick₂ hpos (by omega) rfl hrest₂
  rw [← hafter] at hw₂
  obtain rfl : d = d₂ := UInt64.toNat_inj.1 (by omega)
  exact hw.fires_before hw₂ hsl htl hdue (UInt64.lt_iff_toNat_lt.2 hid₂)
    ((Machine.request?_backedOff ..).trans hm) ((Machine.request?_backedOff ..).trans hm₂)

end

/-- A backoff lasts the least number of ticks that covers the wait. In that time, whatever is done to
the engine, the procedure rests or is gone for good; if it still rests then, it sends the request
that it was launched with, once, and awaits the reply. Those whose backoffs end together send in the
order in which these began. A number of ticks at once is as good as one tick after the other, and
timers have 64-bit numbers, of which a message takes one at most. -/
theorem backoff_after (gateway : γ) (ids : IdSource) (config : EngineConfig)
    (history : List Operation) (m : PeerMessage) (id : ProcedureId) (t : Task) (r : Rejection)
    (n : Nat) (hb : ((Engine.new gateway ids config).after history).Begins config.tick.orMilli m id
      t r n) :
    let start := Engine.new gateway ids config
    let e := start.after history
    let e' := (e.step (.message m)).2
    let resting : Task := { t with machine := t.machine.backedOff r }
    ∃ message : PeerMessage, message.entity = t.machine.entity ∧
      (∀ sent, (t.slot, sent) ∈ start.sendsDuring history ↔ sent = message) ∧
      ∀ future, messages history + messages future + 2 < 2 ^ 64 →
        (ticks future < n →
          (e'.after future).now.toNat = e.now.toNat + ticks future ∧
          sentBy t.slot (e'.sendsDuring future) = [] ∧
          ((e'.after future).Resting id resting ∨
            (e'.after future).Gone t.slot (some t.machine.cancellation) ∨
            (e'.after future).Gone t.slot none ∧ .remove t.machine.entity ∈ future)) ∧
        (ticks future + 1 = n → (e'.after future).Resting id resting →
          (e'.after future).advance.now.toNat = e.now.toNat + n ∧
          sentBy t.slot ((e'.after future).sends .advance) = [message] ∧
          (e'.after future).advance.tasks.get? id =
            some { t with machine := resting.machine.resent } ∧
          resting.machine.resent.waitingFor = .response ∧
          ∀ between later m₂ id₂ t₂ r₂, future = between ++ .message m₂ :: later →
            (e'.after between).Begins config.tick.orMilli m₂ id₂ t₂ r₂ (ticks later + 1) →
            (e'.after future).Resting id₂ { t₂ with machine := t₂.machine.backedOff r₂ } →
            ∃ message₂, t₂.machine.request? = some message₂ ∧
              [(t.slot, message), (t₂.slot, message₂)].Sublist
                ((e'.after future).sends .advance)) ∧
        e'.after future = e'.after (future.flatMap Operation.spelled) ∧
        e'.sendsDuring future = e'.sendsDuring (future.flatMap Operation.spelled) := by
  intro start e e' resting
  have hb : e.Begins config.tick.orMilli m id t r n := hb
  have hs : e.Steady := steady_after gateway ids config history
  have htick : e.timers.tick = config.tick.orMilli :=
    (steady_new gateway ids config).tick_after history
  have hpos := Duration.orMilli_pos config.tick
  obtain ⟨delay, hd, -⟩ := hb.backs
  obtain ⟨message, hm, hentity⟩ := Machine.request?_of_retries hd.retries
  refine ⟨message, hentity, fun sent => ?_, fun future hn => ?_⟩
  · rw [(faithful_after gateway ids config history).faithful hd.task, hm, Option.some.injEq, eq_comm]
  have htimed : e.Timed ∧ e.timers.nextId.toNat ≤ messages history + 1 :=
    timed_after gateway ids config history (by omega)
  obtain ⟨ht, hid⟩ := htimed
  refine ⟨fun hlt => ?_, fun hlast hrest => ?_, e'.after_spelled future,
    e'.sendsDuring_spelled future⟩
  · obtain ⟨hsa, -, -, -, hnow, hsent, d, -, hfate⟩ :=
      hb.until_due rfl hs ht htick hpos future (by omega) hlt
    refine ⟨hnow, hsent, ?_⟩
    rcases hfate with hw | hv | ⟨hv, hop⟩
    · exact .inl (hw.resting hsa)
    · exact .inr (.inl (hv.gone hsa))
    · exact .inr (.inr ⟨hv.gone hsa, hop⟩)
  · obtain ⟨hsl, htl, -, -, hnow, -⟩ :=
      hb.until_due rfl hs ht htick hpos future (by omega) (by omega)
    obtain ⟨d, hd, hdue, hw⟩ := hb.due rfl hs ht htick hpos (by omega) hlast hrest
    obtain ⟨hresent, message', hm', hsend⟩ := hw.fires hsl htl hdue
    have hmr : resting.machine.request? = some message :=
      (Machine.request?_backedOff ..).trans hm
    obtain rfl := Option.some.inj (hm'.symm.trans hmr)
    refine ⟨?_, hsend, hresent, ?_, ?_⟩
    · have hfit := hb.fits
      rw [hsl.now_advance, toNat_add_one (by omega)]
      omega
    · exact Machine.waitingFor_resent (hsl.coherent.suspended hw.task) hw.backoff
    · intro between later m₂ id₂ t₂ r₂ hfuture hb₂ hrest₂
      obtain ⟨delay₂, hd₂, -⟩ := hb₂.backs
      obtain ⟨message₂, hm₂, -⟩ := Machine.request?_of_retries hd₂.retries
      exact ⟨message₂, hm₂, hb.in_order rfl hs ht htick hpos hfuture (by omega) hlast hrest hb₂
        hrest₂ hm hm₂⟩

/-- with ticks of 300 ms a wait of one second takes four -/
theorem backoff_after_setup :
    let start := Engine.new (⟨⟩ : NoGateway) (.sequential) { tick := .ofMillis 300 }
    let launch : Operation :=
      .setup ⟨⟨"amf-1"⟩, ⟨⟨"00101", 411, 22⟩, none, [⟨7, ["00101"]⟩], .v128⟩, 1⟩
    let m : PeerMessage := ⟨⟨"amf-1"⟩, .ngSetupFailure ⟨⟨.misc, "unspecified"⟩, some .s1⟩⟩
    let e := start.after [launch]
    (∃ id t r, t.slot = 0 ∧ e.Begins (Duration.ofMillis 300).orMilli m id t r 4) ∧
      sentBy 0 ((e.step (.message m)).2.sendsDuring [.advance, .advanceBy 2]) = [] := by
  intro start launch m e
  let request : ProcedureRequest NgSetupRequest :=
    ⟨⟨"amf-1"⟩, ⟨⟨"00101", 411, 22⟩, none, [⟨7, ["00101"]⟩], .v128⟩, 1⟩
  let r : Rejection := ⟨⟨.misc, "unspecified"⟩, some .s1⟩
  let t : Task := ⟨(Machine.setup (.new start.ids.draw.1 request)).launched, 0⟩
  have hstart : ∃ registry, e = start.enrollSetup request registry :=
    ⟨⟨(∅ : Table EntityId (KeySet ProcedureId)).insert ⟨"amf-1"⟩
      ((∅ : KeySet ProcedureId).insert start.ids.draw.1 ())⟩,
      run_start rfl (Machine.fresh_setup _ _)⟩
  have hnow : e.now = 0 := by
    obtain ⟨registry, he⟩ := hstart
    rw [he]
    rfl
  have ht : e.tasks.get? start.ids.draw.1 = some t := by
    obtain ⟨registry, he⟩ := hstart
    rw [he]
    exact Table.get?_insert_self ..
  have hb : e.Begins (Duration.ofMillis 300).orMilli m start.ids.draw.1 t r 4 := by
    have hs : e.Steady := steady_after _ _ _ [launch]
    refine ⟨⟨.ofSeconds 1, ⟨hs.coherent.recipient?_eq ht rfl rfl, ht, rfl, rfl, rfl⟩, ?_, ?_⟩, ?_⟩
    · exact (by decide : 1 ≤ 4 ∧ (Duration.ofSeconds 1).nanos ≤ 4 * (Duration.ofMillis 300).nanos)
    · rintro k ⟨-, hk⟩
      simp [Duration.ofSeconds, Duration.ofMillis, Duration.orMilli, Duration.isZero,
        Duration.nanosPerSecond, Duration.nanosPerMilli] at hk
      omega
    · rw [hnow]
      decide
  obtain ⟨message, -, -, hall⟩ := backoff_after _ _ _ [launch] m _ t r 4 hb
  exact ⟨⟨_, t, r, rfl, hb⟩, ((hall [.advance, .advanceBy 2] (by decide)).1 (by decide)).2.1⟩

end NgapProcedures.Engine
