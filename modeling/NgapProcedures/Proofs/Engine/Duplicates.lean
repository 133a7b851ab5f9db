import NgapProcedures.Proofs.Engine.Backoff
import NgapProcedures.Proofs.Engine.Becomes

/-! Replies that come again. The procedure that took a reply waits for no other, and under its entity
there is nobody else of its kind, so that a copy of the reply is dropped, whatever has been done in
between, as long as the procedure has not sent its request again and no other of its kind has been
launched. -/

namespace NgapProcedures.Engine

variable {γ : Type}

def Deaf (e : Engine γ) (slot : Nat) (entity : EntityId) (kind : Kind) : Prop :=
  ∀ q u, e.tasks.get? q = some u → u.machine.entity = entity → u.machine.kind = kind →
    u.slot = slot ∧ u.machine.waitingFor ≠ .response

variable [Gateway γ] {e : Engine γ}

theorem Deaf.handleMessage {slot : Nat} {m : PeerMessage} {machine : Machine}
    (h : e.Deaf slot m.entity machine.kind) (hc : e.Coherent [])
    (ha : machine.accepts m.pdu = true) : e.handleMessage m = (false, e) := by
  have hnone : e.recipient? m = none :=
    hc.recipient?_eq_none ha fun hu hentity hkind => (h _ _ hu hentity hkind).2
  simp [Engine.handleMessage, hnone]

/-- whoever takes a reply waits for no other -/
theorem Steady.deaf_message (hs : e.Steady) {m : PeerMessage} {p : ProcedureId} {t : Task}
    (hrec : e.recipient? m = some p) (ht : e.tasks.get? p = some t) :
    (e.handleMessage m).2.Deaf t.slot m.entity t.machine.kind := by
  obtain ⟨u, hu, hentity, -⟩ := hs.coherent.of_recipient hrec
  obtain rfl := Option.some.inj (hu.symm.trans ht)
  -- an instance of the kind under the entity can only be the one that took the reply
  have heq {q : ProcedureId} {v : Task} (hv : e.tasks.get? q = some v)
      (he : v.machine.entity = m.entity) (hk : v.machine.kind = u.machine.kind) : q = p :=
    hs.coherent.single hv ht (he.trans hentity.symm) hk
  cases hv : u.machine.verdict? m.pdu with
  | none =>
    obtain ⟨r, delay, hr, hw, hretries⟩ := verdict?_eq_none_iff.1 hv
    have hb : e.Backs m p u r delay := ⟨hrec, ht, hr, hw, hretries⟩
    obtain ⟨-, -, -, ha⟩ := hs.coherent.of_backs hb
    rw [hs.coherent.handleMessage_backs hs.quiet hb, backedOff, backOff_eq ha]
    intro q v hq he hk
    rcases Table.get?_insert_eq_some_iff.1 hq with ⟨-, rfl⟩ | ⟨hne, hq⟩
    · exact ⟨rfl, by simp [Machine.waitingFor_backedOff r hretries]⟩
    · exact absurd (heq hq he hk) hne
  | some outcome =>
    obtain ⟨r, -, hcl, he⟩ := hs.coherent.handleMessage_verdict hs.quiet hrec ht hv
    obtain ⟨gone, hsettled, hgone, -⟩ := hs.coherent.run_close hs.quiet ht hcl
    rw [he]
    intro q v hq he hk
    obtain ⟨hq, hnot⟩ := hsettled.tasks.1 hq
    exact absurd (heq hq he hk ▸ hgone) hnot

/-- Only a request that is sent again or a launch makes somebody of the kind wait for a reply. -/
theorem Deaf.step {slot : Nat} {entity : EntityId} {kind : Kind} (h : e.Deaf slot entity kind)
    (hs : e.Steady) {op : Operation} (hop : ∀ k, op ≠ .advanceBy k)
    (hsent : sentBy slot (e.sends op) = [])
    (hnew : ∀ id, .procedureLaunched id kind.name entity ∉ e.logged op) :
    (e.step op).2.Deaf slot entity kind := by
  intro q u hu hentity hkind
  have hb := hs.becomes_step hop q
  have hlogged : ∀ event ∈ told q (e.logged op), event ∈ e.logged op :=
    fun _ hm => (List.mem_filter.1 hm).1
  generalize told q (e.logged op) = events at hb hlogged
  generalize hold : e.tasks.get? q = o at hb
  cases hb with
  | launched hu' rest =>
    obtain rfl := Option.some.inj (hu.symm.trans hu')
    subst hentity hkind
    exact absurd (hlogged _ List.mem_cons_self) (hnew q)
  | kept _ hu' =>
    obtain rfl := Option.some.inj (hu.symm.trans hu')
    exact h q u hold hentity hkind
  | @backedOff t m r delay _ hb hu' =>
    obtain rfl := Option.some.inj (hu.symm.trans hu')
    obtain ⟨-, he, hk⟩ := t.machine.static_backedOff r
    have hslot := (h q t hold (he.symm.trans hentity) (hk.symm.trans hkind)).1
    exact ⟨hslot, by simp [Machine.waitingFor_backedOff r hb.retries]⟩
  | @resent t hadvance hdue hwait hu' =>
    obtain rfl := Option.some.inj (hu.symm.trans hu')
    obtain ⟨-, he, hk⟩ := t.machine.static_resent
    have hslot := (h q t hold (he.symm.trans hentity) (hk.symm.trans hkind)).1
    subst hslot hadvance
    obtain ⟨message, hm, -⟩ := Machine.resume_timerFired (hs.coherent.suspended hold) hwait e.results
    have hsends : e.sends .advance = _ := hs.advanceSends_eq
    rw [hsends, sentBy_requests hs.coherent (expiring_nodup _ _) hdue hold hm] at hsent
    simp at hsent
  | absent hn => simp [hu] at hn
  | undone hn => simp [hu] at hn
  | settled _ hn => simp [hu] at hn
  | removed _ hn => simp [hu] at hn

theorem Deaf.after {slot : Nat} {entity : EntityId} {kind : Kind} (h : e.Deaf slot entity kind)
    (hs : e.Steady) (future : List Operation) (hsent : sentBy slot (e.sendsDuring future) = [])
    (hnew : ∀ id, .procedureLaunched id kind.name entity ∉ e.loggedDuring future) :
    (e.after future).Deaf slot entity kind := by
  rw [after_spelled]
  rw [sendsDuring_spelled] at hsent
  rw [loggedDuring_spelled] at hnew
  refine hs.spelled_induction (P := fun e ops => e.Deaf slot entity kind →
    sentBy slot (e.sendsDuring ops) = [] →
    (∀ id, .procedureLaunched id kind.name entity ∉ e.loggedDuring ops) →
    (e.after ops).Deaf slot entity kind) (fun _ h _ _ => h)
    (fun {e op rest} hs hop _ ih h hsent hnew => ?_) future h hsent hnew
  have hsends : e.sendsDuring (op :: rest) = e.sends op ++ (e.step op).2.sendsDuring rest := rfl
  rw [hsends, sentBy_append, List.append_eq_nil_iff] at hsent
  simp only [loggedDuring, List.mem_append, not_or] at hnew
  exact ih (h.step hs hop hsent.1 fun id => (hnew id).1) hsent.2 fun id => (hnew id).2

/-- A reply that was delivered is not delivered again, until its recipient has sent another request or
another procedure of that kind has been launched under the entity. The copy changes nothing. -/
theorem dropped_after (gateway : γ) (ids : IdSource) (config : EngineConfig)
    (history : List Operation) (m : PeerMessage)
    (hm : (((Engine.new gateway ids config).after history).handleMessage m).1 = true) :
    let e := (Engine.new gateway ids config).after history
    let e' := (e.handleMessage m).2
    ∃ p t, e.recipient? m = some p ∧ e.tasks.get? p = some t ∧
      ∀ future, sentBy t.slot (e'.sendsDuring future) = [] →
        (∀ id, .procedureLaunched id t.machine.kind.name m.entity ∉ e'.loggedDuring future) →
        (e'.after future).step (.message m) = (.flag false, e'.after future) := by
  intro e e'
  have hs : e.Steady := steady_after gateway ids config history
  have hs' : e'.Steady := hs.after [.message m]
  obtain ⟨p, hrec⟩ : ∃ p, e.recipient? m = some p := by
    cases hrec : e.recipient? m with
    | some p => exact ⟨p, rfl⟩
    | none =>
      have hm : (e.handleMessage m).1 = true := hm
      simp [Engine.handleMessage, hrec] at hm
  obtain ⟨t, ht, -, hx⟩ := hs.coherent.of_recipient hrec
  simp only [Machine.expects, Bool.and_eq_true] at hx
  refine ⟨p, t, hrec, ht, fun future hsent hnew => ?_⟩
  have hdeaf : (e'.after future).Deaf t.slot m.entity t.machine.kind :=
    (hs.deaf_message hrec ht).after hs' future hsent hnew
  simp [Engine.step, hdeaf.handleMessage (hs'.after future).coherent hx.2]

/-- a rejection that comes three times, the third time after a tick -/
theorem dropped_after_rejection :
    let launch : Operation :=
      .setup ⟨⟨"amf-1"⟩, ⟨⟨"00101", 411, 22⟩, none, [⟨7, ["00101"]⟩], .v128⟩, 1⟩
    let m : PeerMessage := ⟨⟨"amf-1"⟩, .ngSetupFailure ⟨⟨.misc, "unspecified"⟩, some .s10⟩⟩
    let e := ((Engine.new (⟨⟩ : NoGateway) .sequential {}).step launch).2
    let e' := (e.handleMessage m).2.after [.message m, .advance]
    (e.handleMessage m).1 = true ∧ e'.step (.message m) = (.flag false, e') := by
  intro launch m e e'
  have hm : (e.handleMessage m).1 = true := by decide +kernel
  obtain ⟨p, t, hrec, ht, hall⟩ := dropped_after _ _ _ [launch] m hm
  have hslot : (e.recipient? m).bind (fun p => (e.tasks.get? p).map (·.slot)) = some 0 := by
    decide +kernel
  have hslot : t.slot = 0 := by
    rw [show e.recipient? m = some p from hrec, Option.bind_some,
      show e.tasks.get? p = some t from ht] at hslot
    simpa using hslot
  have hsent : sentBy 0 ((e.handleMessage m).2.sendsDuring [.message m, .advance]) = [] := by
    decide +kernel
  have hlogged : (e.handleMessage m).2.loggedDuring [.message m, .advance] = [] := by
    decide +kernel
  refine ⟨hm, hall [.message m, .advance] (hslot ▸ hsent) fun id hin => ?_⟩
  have hin : _ ∈ (e.handleMessage m).2.loggedDuring [.message m, .advance] := hin
  simp [hlogged] at hin

end NgapProcedures.Engine
