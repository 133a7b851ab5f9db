import NgapProcedures.Proofs.Timer.Deadlines

/-! A timer service refines the table of deadlines. What waits in the heap, behind entries that have
been cancelled, is what the table holds, and every call keeps it so. Hence the answers agree, and a
timer fires on its tick or is cancelled before. -/

namespace NgapProcedures

/-- the entry of a timer in a table of deadlines -/
def Timer.entry (t : Timer) : Nat × ProcedureId × Nat := (t.id.toNat, t.owner, t.deadline.toNat)

structure Refines (s : TimerService) (d : DeadlineTable) : Prop where
  sound : s.Sound
  tick : s.tick = d.tick.orMilli
  now : s.now.toNat = d.now
  next : s.nextId.toNat = d.next
  entries : ∀ x, x ∈ d.entries.entries ↔ ∃ t, s.Waits t ∧ t.entry = x

theorem refines_new (tick : Duration) : Refines (.new tick) (.new tick) where
  sound := TimerService.sound_new tick
  tick := rfl
  now := rfl
  next := rfl
  entries x := by simp [DeadlineTable.new, TimerService.new, TimerService.Waits, Heap.toList,
    EmptyCollection.emptyCollection]

namespace Refines

variable {s : TimerService} {d : DeadlineTable}

theorem get?_eq_some_iff (h : Refines s d) {id deadline : Nat} {owner : ProcedureId} :
    d.entries.get? id = some (owner, deadline) ↔ ∃ t, s.Waits t ∧ t.entry = (id, owner, deadline) :=
  (Table.get?_eq_some_iff _).trans (h.entries _)

theorem isPending (h : Refines s d) (id : TimerId) :
    s.isPending id = d.entries.contains id.toNat := by
  rw [Bool.eq_iff_iff, Table.contains_iff]
  constructor
  · intro hp
    obtain ⟨t, ht, rfl⟩ := h.sound.queued id hp
    exact ⟨_, h.get?_eq_some_iff.2 ⟨t, ⟨ht, hp⟩, rfl⟩⟩
  · rintro ⟨⟨owner, deadline⟩, hget⟩
    obtain ⟨t, ht, he⟩ := h.get?_eq_some_iff.1 hget
    obtain rfl := UInt64.toNat_inj.1 (Prod.mk.inj he).1
    exact ht.2

theorem pending (h : Refines s d) : s.pending = d.entries.size := by
  have hperm : (s.live.keys.map UInt64.toNat).Perm d.entries.keys := by
    have hnodup := s.live.keys_nodup.map (f := UInt64.toNat) fun _ _ => UInt64.toNat_inj.1
    refine (List.perm_ext_iff_of_nodup hnodup d.entries.keys_nodup).2 fun id => ?_
    rw [Table.mem_keys_iff, ← Table.contains_iff, List.mem_map]
    constructor
    · rintro ⟨k, hk, rfl⟩
      rw [← h.isPending]
      exact (Table.contains_iff ..).2 ((Table.mem_keys_iff ..).1 hk)
    · intro hc
      obtain ⟨⟨owner, deadline⟩, hget⟩ := (Table.contains_iff ..).1 hc
      obtain ⟨t, ht, he⟩ := h.get?_eq_some_iff.1 hget
      exact ⟨t.id, (Table.mem_keys_iff ..).2 ((Table.contains_iff ..).1 ht.2), (Prod.mk.inj he).1⟩
  rw [TimerService.pending, Table.size_eq_length_keys, Table.size_eq_length_keys]
  simpa using hperm.length_eq

theorem mem_deadlines (h : Refines s d) (deadline : Nat) :
    deadline ∈ d.entries.values.map (·.2) ↔ ∃ t, s.Waits t ∧ t.deadline.toNat = deadline := by
  simp only [Table.values, List.map_map, List.mem_map, Function.comp_apply]
  constructor
  · rintro ⟨x, hx, rfl⟩
    obtain ⟨t, ht, rfl⟩ := (h.entries x).1 hx
    exact ⟨t, ht, rfl⟩
  · rintro ⟨t, ht, rfl⟩
    exact ⟨t.entry, (h.entries _).2 ⟨t, ht, rfl⟩, rfl⟩

theorem nextExpiry? (h : Refines s d) : s.nextExpiry?.map UInt64.toNat = d.nextExpiry? := by
  have hmem (deadline : UInt64) :
      deadline ∈ (s.queue.toList.filter fun t => s.isPending t.id).map (·.deadline) ↔
        ∃ t, s.Waits t ∧ t.deadline = deadline := by
    simp only [List.mem_map, List.mem_filter, TimerService.Waits]
  refine Option.ext fun deadline => ?_
  rw [Option.map_eq_some_iff, TimerService.nextExpiry?, DeadlineTable.nextExpiry?,
    List.min?_eq_some_iff, h.mem_deadlines]
  simp only [List.min?_eq_some_iff, hmem, h.mem_deadlines]
  constructor
  · rintro ⟨least, ⟨⟨t, ht, rfl⟩, hleast⟩, rfl⟩
    refine ⟨⟨t, ht, rfl⟩, ?_⟩
    rintro _ ⟨u, hu, rfl⟩
    exact UInt64.le_iff_toNat_le.1 (hleast _ ⟨u, hu, rfl⟩)
  · rintro ⟨⟨t, ht, rfl⟩, hleast⟩
    refine ⟨t.deadline, ⟨⟨t, ht, rfl⟩, ?_⟩, rfl⟩
    rintro _ ⟨u, hu, rfl⟩
    exact UInt64.le_iff_toNat_le.2 (hleast _ ⟨u, hu, rfl⟩)

theorem lt_next (h : Refines s d) {x : Nat × ProcedureId × Nat} (hx : x ∈ d.entries.entries) :
    x.1 < d.next := by
  obtain ⟨t, ht, rfl⟩ := (h.entries x).1 hx
  exact h.next ▸ h.sound.issued t ht.1

theorem scheduleTicks (h : Refines s d) (owner : ProcedureId) {ticks : UInt64} {n : Nat}
    (hn : max 1 ticks.toNat = n) (htime : d.now + n < 2 ^ 64) (hnext : d.next + 1 < 2 ^ 64) :
    (s.scheduleTicks owner ticks).1.toNat = d.next ∧
      Refines (s.scheduleTicks owner ticks).2 (d.schedule owner n) := by
  have hroom : s.nextId.toNat + 1 < 2 ^ 64 := h.next ▸ hnext
  have hentry : (s.scheduled owner ticks).entry = (d.next, owner, d.now + n) := by
    have hdeadline := s.toNat_deadline_scheduled owner ticks
    rw [h.now] at hdeadline
    have hexact : (s.scheduled owner ticks).deadline.toNat = d.now + n := by omega
    rw [Timer.entry, hexact, ← h.next]
    rfl
  refine ⟨h.next, h.sound.scheduleTicks owner ticks hroom, h.tick, h.now, ?_, fun x => ?_⟩
  · exact (toNat_add_one hroom).trans (congrArg (· + 1) h.next)
  · have hget := Table.get?_insert d.entries d.next x.1 (owner, d.now + n)
    have hmem : x ∈ (d.schedule owner n).entries.entries ↔
        x = (d.next, owner, d.now + n) ∨ x ∈ d.entries.entries := by
      refine (Table.get?_eq_some_iff _).symm.trans ?_
      rw [show (d.schedule owner n).entries.get? x.1 = _ from hget]
      split
      · next he =>
        have hnot : x ∉ d.entries.entries := fun hx => Nat.ne_of_lt (h.lt_next hx) he
        rw [or_iff_left hnot]
        exact ⟨fun hx => Prod.ext he (Option.some.inj hx).symm, fun hx => by rw [hx]⟩
      · next he =>
        have hne : x ≠ (d.next, owner, d.now + n) := fun hx => he (congrArg Prod.fst hx)
        rw [or_iff_right hne]
        exact Table.get?_eq_some_iff _
    rw [hmem, h.entries]
    simp only [h.sound.waits_scheduleTicks, or_and_right, exists_or, exists_eq_left, hentry]
    exact or_congr_left eq_comm

theorem ticksFor (h : Refines s d) {delay : Duration} (hfit : d.tick.covering delay < 2 ^ 64) :
    (s.ticksFor delay).toNat = d.tick.covering delay := by
  obtain ⟨hone, hcover⟩ := d.tick.covering_spec delay
  rw [← h.tick] at hcover
  refine TimerService.toNat_ticksFor_of_least (h.tick ▸ d.tick.orMilli_pos) hone hcover
    (fun k hk hd => Duration.covering_le hk ?_) hfit
  rwa [← h.tick]

theorem cancel (h : Refines s d) (id : TimerId) :
    Refines (s.cancel id).2 { d with entries := d.entries.erase id.toNat } where
  sound := h.sound.cancel id
  tick := h.tick
  now := h.now
  next := h.next
  entries x := by
    have hget := Table.get?_erase d.entries id.toNat x.1
    refine (Table.get?_eq_some_iff _).symm.trans ?_
    rw [hget]
    simp only [TimerService.waits_cancel]
    split
    · next he =>
      refine iff_of_false (by simp) ?_
      rintro ⟨t, ⟨-, hne⟩, rfl⟩
      exact hne (UInt64.toNat_inj.1 he)
    · next he =>
      refine (Table.get?_eq_some_iff _).trans ((h.entries x).trans ?_)
      refine exists_congr fun t => ⟨fun ⟨ht, hx⟩ => ⟨⟨ht, ?_⟩, hx⟩, fun ⟨ht, hx⟩ => ⟨ht.1, hx⟩⟩
      rintro rfl
      exact he (congrArg Prod.fst hx.symm)

/-- what waits has its deadline ahead -/
theorem waits_iff_due (h : Refines s d) (hfit : d.now + 1 < 2 ^ 64) {t : Timer} (ht : s.Waits t) :
    t.deadline ≤ s.now + 1 ↔ t.deadline.toNat = d.now + 1 := by
  have hnow : (s.now + 1).toNat = d.now + 1 := (toNat_add_one (h.now ▸ hfit)).trans
    (congrArg (· + 1) h.now)
  have hahead : d.now < t.deadline.toNat := by
    rcases h.sound.ahead t ht with hlt | hlast
    · exact h.now ▸ UInt64.lt_iff_toNat_lt.1 hlt
    · have := h.now
      rw [hlast, toNat_lastTick] at this
      omega
  rw [UInt64.le_iff_toNat_le, hnow]
  omega

theorem mem_fired_iff (h : Refines s d) (hfit : d.now + 1 < 2 ^ 64) (t : Timer) :
    t ∈ s.advance.1 ↔ s.Waits t ∧ t.deadline.toNat = d.now + 1 := by
  rw [h.sound.mem_fired_iff]
  exact and_congr_right fun ht => h.waits_iff_due hfit ht

/-- what fires has one deadline, and is told in the order of numbers -/
theorem fired_ascending (h : Refines s d) (hfit : d.now + 1 < 2 ^ 64) :
    (s.advance.1.map Timer.entry).Pairwise fun a b => a.1 < b.1 := by
  have hdivision := h.sound.division_advance
  refine List.pairwise_map.2 ?_
  refine (hdivision.sorted.and (List.pairwise_map.1 hdivision.distinct_fired)).imp_of_mem ?_
  rintro a b ha hb ⟨hab, hne⟩
  have ha := ((h.mem_fired_iff hfit a).1 ha).2
  have hb := ((h.mem_fired_iff hfit b).1 hb).2
  rw [Timer.before_iff] at hab
  simp only [UInt64.lt_iff_toNat_lt, UInt64.le_iff_toNat_le, ← UInt64.toNat_inj, ne_eq]
    at hab hne
  simp only [Timer.entry]
  omega

/-- what fires are the entries that fall due -/
theorem fired_eq (h : Refines s d) (hfit : d.now + 1 < 2 ^ 64) :
    s.advance.1.map Timer.entry = (d.entries.filter fun e => e.2.2 = d.now + 1).entries := by
  have hsorted := h.fired_ascending hfit
  have hascending : (d.entries.filter fun e => e.2.2 = d.now + 1).entries.Pairwise
      fun a b => a.1 < b.1 :=
    (Table.ascending _).imp fun {a b} hab => Nat.compare_eq_lt.1 hab
  -- two lists in strict order are one as soon as they have the same members
  refine List.Perm.eq_of_pairwise (fun a b _ _ hab hba => absurd hab (Nat.lt_asymm hba))
    hsorted hascending ?_
  refine (List.perm_ext_iff_of_nodup (hsorted.imp fun hab he => ?_)
    (hascending.imp fun hab he => ?_)).2 fun x => ?_
  · exact Nat.lt_irrefl _ (he ▸ hab)
  · exact Nat.lt_irrefl _ (he ▸ hab)
  · simp only [List.mem_map, h.mem_fired_iff hfit, Table.filter, List.mem_filter, h.entries,
      decide_eq_true_eq]
    constructor
    · rintro ⟨t, ⟨ht, hd⟩, rfl⟩
      exact ⟨⟨t, ht, rfl⟩, hd⟩
    · rintro ⟨⟨t, ht, rfl⟩, hd⟩
      exact ⟨t, ⟨ht, hd⟩, rfl⟩

theorem advance (h : Refines s d) (hfit : d.now + 1 < 2 ^ 64) :
    (s.advance.1.map fun t => (t.id.toNat, t.owner)) = d.dueAt (d.now + 1) ∧
      Refines s.advance.2 (d.call .advance).2 := by
  have hroom : s.now.toNat + 1 < 2 ^ 64 := h.now ▸ hfit
  constructor
  · rw [DeadlineTable.dueAt, ← h.fired_eq hfit, List.map_map]
    rfl
  · refine ⟨h.sound.advance, h.tick, ?_, h.next, fun x => ?_⟩
    · exact (toNat_add_one hroom).trans (congrArg (· + 1) h.now)
    · simp only [DeadlineTable.call, Table.filter, List.mem_filter, h.entries,
        h.sound.waits_advance, ← UInt64.not_le, decide_eq_true_eq]
      constructor
      · rintro ⟨⟨t, ht, rfl⟩, hd⟩
        exact ⟨t, ⟨ht, fun hle => hd ((h.waits_iff_due hfit ht).1 hle)⟩, rfl⟩
      · rintro ⟨t, ⟨ht, hd⟩, rfl⟩
        exact ⟨⟨t, ht, rfl⟩, fun he => hd ((h.waits_iff_due hfit ht).2 he)⟩

theorem call (h : Refines s d) {c : TimerCall} (hfit : ∀ n ∈ d.sumsOf c, n < 2 ^ 64) :
    (s.call c).1 = (d.call c).1 ∧ Refines (s.call c).2 (d.call c).2 := by
  cases c with
  | schedule owner delay =>
    obtain ⟨htime, hnext⟩ : d.now + d.tick.covering delay < 2 ^ 64 ∧ d.next + 1 < 2 ^ 64 := by
      simpa [DeadlineTable.sumsOf, TimerCall.scheduling?] using hfit
    have hone := (d.tick.covering_spec delay).1
    have hcovering : d.tick.covering delay < 2 ^ 64 := by omega
    have hticks := h.ticksFor hcovering
    have hmax : max 1 (s.ticksFor delay).toNat = d.tick.covering delay := by omega
    obtain ⟨hid, hrefines⟩ := h.scheduleTicks owner hmax htime hnext
    exact ⟨congrArg TimerAnswer.scheduled hid, hrefines⟩
  | scheduleTicks owner ticks =>
    obtain ⟨htime, hnext⟩ : d.now + max 1 ticks.toNat < 2 ^ 64 ∧ d.next + 1 < 2 ^ 64 := by
      simpa [DeadlineTable.sumsOf, TimerCall.scheduling?] using hfit
    obtain ⟨hid, hrefines⟩ := h.scheduleTicks owner rfl htime hnext
    exact ⟨congrArg TimerAnswer.scheduled hid, hrefines⟩
  | cancel id => exact ⟨congrArg TimerAnswer.cancelled (h.isPending id), h.cancel id⟩
  | advance =>
    obtain ⟨hfired, hrefines⟩ := h.advance (hfit _ (by simp [DeadlineTable.sumsOf,
      TimerCall.scheduling?]))
    exact ⟨congrArg TimerAnswer.fired hfired, hrefines⟩

/-- As long as no sum passes 64 bits, all answers agree. -/
theorem after (h : Refines s d) {calls : List TimerCall} (hfit : ∀ n ∈ d.sums calls, n < 2 ^ 64) :
    s.answers calls = d.answers calls ∧ Refines (s.after calls) (d.after calls) := by
  induction calls generalizing s d with
  | nil => exact ⟨rfl, h⟩
  | cons c rest ih =>
    obtain ⟨hfirst, hrest⟩ := List.forall_mem_append.1 hfit
    obtain ⟨hanswer, hstep⟩ := h.call hfirst
    obtain ⟨hanswers, hafter⟩ := ih hstep hrest
    exact ⟨congrArg₂ List.cons hanswer hanswers, hafter⟩

/-- A timer fires on its tick, unless it has been cancelled before, and never else. -/
theorem fires (h : Refines s d) {c : TimerCall} {owner : ProcedureId} {n : Nat}
    (hc : c.scheduling? d.tick = some (owner, n)) {during late : List TimerCall}
    (hfit : ∀ n ∈ d.sums (c :: during ++ .advance :: late), n < 2 ^ 64) :
    ((s.after (c :: during)).advance.1.filter (·.id = s.nextId)).map (·.owner) =
      if during.count .advance + 1 = n ∧ .cancel s.nextId ∉ during then [owner] else [] := by
  rw [DeadlineTable.sums_append, List.forall_mem_append] at hfit
  obtain ⟨-, hrefines⟩ := h.after hfit.1
  obtain ⟨hfired, -⟩ := hrefines.advance (List.forall_mem_append.1 hfit.2 |>.1 _ (by
    simp [DeadlineTable.sumsOf, TimerCall.scheduling?]))
  have hlaw := DeadlineTable.filter_dueAt_after hc during
  have hcancel : during.any (·.cancels d.next) = false ↔ .cancel s.nextId ∉ during := by
    rw [← h.next, ← Bool.not_eq_true, TimerCall.any_cancels_iff]
  dsimp only at hlaw
  rw [← hfired, List.filter_map] at hlaw
  have howner := congrArg (List.map Prod.snd) hlaw
  rw [List.map_map, apply_ite (List.map Prod.snd)] at howner
  simp only [hcancel] at howner
  refine Eq.trans ?_ howner
  refine congrArg (List.map _) (List.filter_congr fun t _ => ?_)
  simp [← h.next, UInt64.toNat_inj]

end Refines

/-- A service answers every call as the table does, in which timers are deleted once they are
cancelled or fire. Hence a timer fires once, on the tick that it was scheduled for, unless it has been
cancelled before. -/
theorem refines_deadlines (tick : Duration) (calls : List TimerCall)
    (hfit : ∀ n ∈ (DeadlineTable.new tick).sums calls, n < 2 ^ 64) :
    let s := TimerService.new tick
    let d := DeadlineTable.new tick
    s.answers calls = d.answers calls ∧
    (s.after calls).now.toNat = (d.after calls).now ∧
    (∀ id, (s.after calls).isPending id = (d.after calls).entries.contains id.toNat) ∧
    (s.after calls).pending = (d.after calls).entries.size ∧
    (s.after calls).nextExpiry?.map UInt64.toNat = (d.after calls).nextExpiry? ∧
    ∀ before c rest owner n, calls = before ++ c :: rest → c.scheduling? tick = some (owner, n) →
      let id := (s.after before).nextId
      ((s.after before).call c).1 = .scheduled id.toNat ∧
      (∀ during late, rest = during ++ .advance :: late →
        ((s.after (before ++ c :: during)).advance.1.filter (·.id = id)).map (·.owner) =
          if during.count .advance + 1 = n ∧ .cancel id ∉ during then [owner] else []) ∧
      ∀ early late, before = early ++ .advance :: late →
        ∀ t ∈ (s.after early).advance.1, t.id ≠ id := by
  intro s d
  have hnew : Refines s d := refines_new tick
  obtain ⟨hanswers, hrefines⟩ := hnew.after hfit
  refine ⟨hanswers, hrefines.now, hrefines.isPending, hrefines.pending, hrefines.nextExpiry?, ?_⟩
  rintro before c rest owner n rfl hc id
  rw [DeadlineTable.sums_append, List.forall_mem_append] at hfit
  obtain ⟨hfirst, hrest⟩ := hfit
  obtain ⟨-, hbefore⟩ := hnew.after hfirst
  have hc : c.scheduling? (d.after before).tick = some (owner, n) := d.tick_after before ▸ hc
  refine ⟨?_, ?_, ?_⟩
  · rw [(hbefore.call (List.forall_mem_append.1 hrest).1).1, DeadlineTable.call_of_scheduling hc]
    exact congrArg TimerAnswer.scheduled hbefore.next.symm
  · rintro during late rfl
    rw [TimerService.after_append]
    exact hbefore.fires hc hrest
  · rintro early late rfl t ht
    rw [DeadlineTable.sums_append, List.forall_mem_append] at hfirst
    obtain ⟨-, hearly⟩ := hnew.after hfirst.1
    have hissued := hearly.sound.issued t ((hearly.sound.mem_fired_iff t).1 ht).1.1
    have hle := (d.after early).next_le_after (.advance :: late)
    rw [← DeadlineTable.after_append, ← hbefore.next, ← hearly.next] at hle
    intro he
    rw [he] at hissued
    exact Nat.not_lt.2 hle hissued

/-- one timer that is cancelled, and one that fires on the second tick; a tick of no length lasts a
millisecond -/
theorem refines_deadlines_cancelled :
    let calls : List TimerCall := [.scheduleTicks ⟨"proc-1"⟩ 2,
      .schedule ⟨"proc-2"⟩ (.ofMillis 2), .cancel 1, .advance, .advance]
    (∀ n ∈ (DeadlineTable.new .zero).sums calls, n < 2 ^ 64) ∧
      (TimerService.new .zero).answers calls = [.scheduled 1, .scheduled 2, .cancelled true,
        .fired [], .fired [(2, ⟨"proc-2"⟩)]] := by
  intro calls
  have hfit : ∀ n ∈ (DeadlineTable.new .zero).sums calls, n < 2 ^ 64 := by decide +kernel
  refine ⟨hfit, (refines_deadlines .zero calls hfit).1.trans ?_⟩
  decide +kernel

end NgapProcedures
