import Mathlib.Data.List.Nodup
import NgapProcedures.Proofs.Table
import NgapProcedures.Proofs.Timer.Heap
import NgapProcedures.Proofs.Timer.Ticks

/-! The timers that a service waits for. As long as numbers are not used twice, scheduling adds one,
cancelling removes the one named, and an advance fires exactly those whose tick has come, the
earliest deadline first and the first scheduled first among equals. -/

namespace NgapProcedures

namespace Timer

theorem before_iff {a b : Timer} :
    a.before b = true ↔ a.deadline < b.deadline ∨ a.deadline = b.deadline ∧ a.id ≤ b.id := by
  simp [before]

theorem before_total (a b : Timer) (h : a.before b = false) : b.before a = true := by
  rw [← Bool.not_eq_true, before_iff] at h
  rw [before_iff]
  simp only [UInt64.lt_iff_toNat_lt, UInt64.le_iff_toNat_le, ← UInt64.toNat_inj] at h ⊢
  omega

theorem before_trans (a b c : Timer) (h1 : a.before b = true) (h2 : b.before c = true) :
    a.before c = true := by
  rw [before_iff] at h1 h2 ⊢
  simp only [UInt64.lt_iff_toNat_lt, UInt64.le_iff_toNat_le, ← UInt64.toNat_inj] at h1 h2 ⊢
  omega

theorem deadline_le_of_before {a b : Timer} (h : a.before b = true) : a.deadline ≤ b.deadline := by
  rw [before_iff] at h
  simp only [UInt64.lt_iff_toNat_lt, UInt64.le_iff_toNat_le, ← UInt64.toNat_inj] at h ⊢
  omega

end Timer

namespace TimerService

/-- the timer is queued and has neither fired nor been cancelled -/
def Waits (s : TimerService) (t : Timer) : Prop :=
  t ∈ s.queue.toList ∧ s.isPending t.id = true

/-- Numbers in the queue are distinct and were all given out, what is live is queued, and what is
live lies ahead unless time stands at the last tick. -/
structure Sound (s : TimerService) : Prop where
  ordered : s.queue.Ordered Timer.before
  distinct : (s.queue.toList.map (·.id)).Nodup
  issued : ∀ t ∈ s.queue.toList, t.id.toNat < s.nextId.toNat
  queued : ∀ k, s.isPending k = true → ∃ t ∈ s.queue.toList, t.id = k
  ahead : ∀ t, s.Waits t → s.now < t.deadline ∨ s.now = lastTick

theorem Sound.eq_of_id {s : TimerService} (hs : s.Sound) {a b : Timer} (ha : a ∈ s.queue.toList)
    (hb : b ∈ s.queue.toList) (h : a.id = b.id) : a = b :=
  List.inj_on_of_nodup_map hs.distinct ha hb h

theorem sound_new (tick : Duration) : (TimerService.new tick).Sound where
  ordered := trivial
  distinct := List.nodup_nil
  issued := by simp [new, Heap.toList]
  queued := by simp [new, isPending, Table.contains]
  ahead := by simp [new, Waits, Heap.toList]

theorem takeDue_none {now : UInt64} {queue : Heap Timer} {live : KeySet TimerId}
    (h : queue.pop? Timer.before = none) : takeDue now queue live = ([], queue, live) := by
  rw [takeDue]
  split
  · rfl
  · simp_all

theorem takeDue_some {now : UInt64} {queue rest : Heap Timer} {live : KeySet TimerId} {t : Timer}
    (h : queue.pop? Timer.before = some (t, rest)) :
    takeDue now queue live = if now < t.deadline then ([], queue, live)
      else (if live.contains t.id then t :: (takeDue now rest (live.erase t.id)).1
          else (takeDue now rest (live.erase t.id)).1,
        (takeDue now rest (live.erase t.id)).2) := by
  rw [takeDue]
  split
  · simp_all
  · next t' rest' h' =>
    rw [h] at h'
    obtain ⟨rfl, rfl⟩ := Prod.mk.inj (Option.some.inj h')
    rfl

/-- what fires was live and is live no more; nothing comes to life -/
theorem takeDue_live (now : UInt64) (queue : Heap Timer) (live : KeySet TimerId) :
    (∀ k, (takeDue now queue live).2.2.contains k = true → live.contains k = true) ∧
    ∀ t ∈ (takeDue now queue live).1, live.contains t.id = true ∧
      (takeDue now queue live).2.2.contains t.id = false := by
  induction queue, live using takeDue.induct now with
  | case1 queue live hp => simp [takeDue_none hp]
  | case2 queue live t rest hp hlt => simp [takeDue_some hp, hlt]
  | case3 queue live t rest hp hlt _ _ _ _ ih =>
    obtain ⟨ih1, ih2⟩ := ih
    rw [takeDue_some hp, if_neg hlt]
    dsimp only
    have hkeep : ∀ k, (takeDue now rest (live.erase t.id)).2.2.contains k = true →
        k ≠ t.id ∧ live.contains k = true := fun k hk => by
      simpa [Table.contains_erase] using ih1 k hk
    refine ⟨fun k hk => (hkeep k hk).2, fun u hu => ?_⟩
    have hrest : u ∈ (takeDue now rest (live.erase t.id)).1 → live.contains u.id = true ∧
        (takeDue now rest (live.erase t.id)).2.2.contains u.id = false := fun hu => by
      have := ih2 u hu
      simp only [Table.contains_erase, Bool.and_eq_true] at this
      exact ⟨this.1.2, this.2⟩
    by_cases hl : live.contains t.id = true
    · simp only [hl, ↓reduceIte, List.mem_cons] at hu
      rcases hu with rfl | hu
      · refine ⟨hl, Bool.eq_false_iff.2 fun hc => ?_⟩
        exact (hkeep u.id hc).1 rfl
      · exact hrest hu
    · simp only [hl, Bool.false_eq_true, ↓reduceIte] at hu
      exact hrest hu

structure Division (now : UInt64) (queue : Heap Timer) (live : KeySet TimerId)
    (fired : List Timer) (queue' : Heap Timer) (live' : KeySet TimerId) : Prop where
  sorted : fired.Pairwise (fun a b => a.before b = true)
  distinct_fired : (fired.map (·.id)).Nodup
  mem_fired : ∀ t, t ∈ fired ↔ t ∈ queue.toList ∧ live.contains t.id = true ∧ t.deadline ≤ now
  ordered : queue'.Ordered Timer.before
  sublist : ∀ t, t ∈ queue'.toList ↔ t ∈ queue.toList ∧ now < t.deadline
  distinct : (queue'.toList.map (·.id)).Nodup
  live_iff : ∀ k, live'.contains k = true ↔
    live.contains k = true ∧ ∀ t ∈ queue.toList, t.id = k → now < t.deadline

theorem division_nothing_due {now : UInt64} {queue : Heap Timer} (live : KeySet TimerId)
    (ho : queue.Ordered Timer.before) (hd : (queue.toList.map (·.id)).Nodup)
    (h : ∀ t ∈ queue.toList, now < t.deadline) : Division now queue live [] queue live where
  sorted := .nil
  distinct_fired := List.nodup_nil
  mem_fired t := by
    simp only [List.not_mem_nil, false_iff, not_and, UInt64.not_le]
    exact fun ht _ => h t ht
  ordered := ho
  sublist t := ⟨fun ht => ⟨ht, h t ht⟩, fun ht => ht.1⟩
  distinct := hd
  live_iff k := ⟨fun hk => ⟨hk, fun t ht _ => h t ht⟩, fun hk => hk.1⟩

/-- A due timer ahead of the others is taken first, and fires if it is live. -/
theorem Division.cons {now : UInt64} {queue rest queue' : Heap Timer} {live live' : KeySet TimerId}
    {t : Timer} {fired : List Timer} (hmem : ∀ u, u ∈ queue.toList ↔ u = t ∨ u ∈ rest.toList)
    (hne : ∀ u ∈ rest.toList, u.id ≠ t.id) (hfirst : ∀ u ∈ rest.toList, t.before u = true)
    (hdue : t.deadline ≤ now) (d : Division now rest (live.erase t.id) fired queue' live') :
    Division now queue live (if live.contains t.id then t :: fired else fired) queue' live' where
  sorted := by
    split
    · exact List.pairwise_cons.2 ⟨fun u hu => hfirst u ((d.mem_fired u).1 hu).1, d.sorted⟩
    · exact d.sorted
  distinct_fired := by
    split
    · refine List.nodup_cons.2 ⟨fun hm => ?_, d.distinct_fired⟩
      obtain ⟨u, hu, he⟩ := List.mem_map.1 hm
      exact hne u ((d.mem_fired u).1 hu).1 he
    · exact d.distinct_fired
  mem_fired u := by
    have hrest : u ∈ fired ↔ u ∈ rest.toList ∧ live.contains u.id = true ∧ u.deadline ≤ now := by
      refine (d.mem_fired u).trans (and_congr_right fun hu => ?_)
      simp [Table.contains_erase, hne u hu]
    rw [hmem]
    by_cases hl : live.contains t.id = true
    · rw [if_pos hl, List.mem_cons, hrest]
      constructor
      · rintro (rfl | ⟨hu, h⟩)
        · exact ⟨.inl rfl, hl, hdue⟩
        · exact ⟨.inr hu, h⟩
      · rintro ⟨rfl | hu, h⟩
        · exact .inl rfl
        · exact .inr ⟨hu, h⟩
    · rw [if_neg hl, hrest]
      constructor
      · rintro ⟨hu, h⟩
        exact ⟨.inr hu, h⟩
      · rintro ⟨rfl | hu, h⟩
        · exact absurd h.1 hl
        · exact ⟨hu, h⟩
  ordered := d.ordered
  sublist u := by
    rw [d.sublist, hmem]
    constructor
    · rintro ⟨hu, h⟩
      exact ⟨.inr hu, h⟩
    · rintro ⟨rfl | hu, h⟩
      · exact absurd h (UInt64.not_lt.2 hdue)
      · exact ⟨hu, h⟩
  distinct := d.distinct
  live_iff k := by
    rw [d.live_iff, Table.contains_erase]
    simp only [Bool.and_eq_true, Bool.not_eq_true', decide_eq_false_iff_not, hmem]
    constructor
    · rintro ⟨⟨hk, hl⟩, h⟩
      refine ⟨hl, fun u hu he => ?_⟩
      rcases hu with rfl | hu
      · exact absurd he.symm hk
      · exact h u hu he
    · rintro ⟨hl, h⟩
      refine ⟨⟨fun hk => ?_, hl⟩, fun u hu => h u (.inr hu)⟩
      exact UInt64.not_lt.2 hdue (h t (.inl rfl) hk.symm)

theorem takeDue_division (now : UInt64) (queue : Heap Timer) (live : KeySet TimerId)
    (ho : queue.Ordered Timer.before) (hd : (queue.toList.map (·.id)).Nodup) :
    Division now queue live (takeDue now queue live).1 (takeDue now queue live).2.1
      (takeDue now queue live).2.2 := by
  induction queue, live using takeDue.induct now with
  | case1 queue live hp =>
    rw [takeDue_none hp]
    obtain rfl := Heap.eq_leaf_of_pop?_eq_none _ hp
    exact division_nothing_due live ho hd (by simp [Heap.toList])
  | case2 queue live t rest hp hlt =>
    rw [takeDue_some hp, if_pos hlt]
    refine division_nothing_due live ho hd fun u hu => ?_
    rcases List.mem_cons.1 ((Heap.toList_pop?_perm _ hp).subset hu) with rfl | hu
    · exact hlt
    · have hbefore := (Heap.ordered_of_pop? Timer.before_total Timer.before_trans hp ho).2 u hu
      have := Timer.deadline_le_of_before hbefore
      exact UInt64.lt_of_lt_of_le hlt this
  | case3 queue live t rest hp hlt _ _ _ _ ih =>
    obtain ⟨horest, hfirst⟩ := Heap.ordered_of_pop? Timer.before_total Timer.before_trans hp ho
    have hperm := Heap.toList_pop?_perm _ hp
    have hnd : t.id ∉ rest.toList.map (·.id) ∧ (rest.toList.map (·.id)).Nodup := by
      simpa using (hperm.map (·.id)).nodup_iff.1 hd
    rw [takeDue_some hp, if_neg hlt]
    exact .cons (fun u => by rw [hperm.mem_iff, List.mem_cons])
      (fun u hu he => hnd.1 (List.mem_map.2 ⟨u, hu, he⟩)) hfirst (UInt64.not_lt.1 hlt)
      (ih horest hnd.2)

def scheduled (s : TimerService) (owner : ProcedureId) (ticks : UInt64) : Timer :=
  ⟨s.nextId, owner, laterBy s.now (max ticks 1)⟩

theorem toNat_deadline_scheduled (s : TimerService) (owner : ProcedureId) (ticks : UInt64) :
    (s.scheduled owner ticks).deadline.toNat =
      min (s.now.toNat + max ticks.toNat 1) (2 ^ 64 - 1) := by
  rw [scheduled, toNat_laterBy, toNat_max]
  rfl

/-- a delay ends once it is covered, and not on the tick it begins at -/
theorem toNat_deadline_ticksFor (s : TimerService) (owner : ProcedureId) (delay : Duration) :
    (s.scheduled owner (s.ticksFor delay)).deadline.toNat =
      min (s.now.toNat + max 1 (delay.ticksToCover s.tick)) (2 ^ 64 - 1) := by
  rw [toNat_deadline_scheduled, toNat_ticksFor]
  omega

theorem isPending_scheduleTicks (s : TimerService) (owner : ProcedureId) (ticks : UInt64)
    (k : TimerId) : (s.scheduleTicks owner ticks).2.isPending k = true ↔
      k = s.nextId ∨ s.isPending k = true := by
  simp [scheduleTicks, isPending, Table.contains_insert]

theorem mem_queue_scheduleTicks (s : TimerService) (owner : ProcedureId) (ticks : UInt64)
    (t : Timer) : t ∈ (s.scheduleTicks owner ticks).2.queue.toList ↔
      t = s.scheduled owner ticks ∨ t ∈ s.queue.toList := by
  rw [← List.mem_cons]
  exact (Heap.toList_insert_perm Timer.before (s.scheduled owner ticks) s.queue).mem_iff

theorem Sound.waits_scheduleTicks {s : TimerService} (hs : s.Sound) (owner : ProcedureId)
    (ticks : UInt64) (t : Timer) : (s.scheduleTicks owner ticks).2.Waits t ↔
      t = s.scheduled owner ticks ∨ s.Waits t := by
  unfold Waits
  rw [isPending_scheduleTicks, mem_queue_scheduleTicks]
  constructor
  · rintro ⟨rfl | ht, hp⟩
    · exact .inl rfl
    · refine .inr ⟨ht, hp.resolve_left fun he => ?_⟩
      have := hs.issued t ht
      rw [he] at this
      omega
  · rintro (rfl | ⟨ht, hp⟩)
    · exact ⟨.inl rfl, .inl rfl⟩
    · exact ⟨.inr ht, .inr hp⟩

theorem ahead_scheduled (s : TimerService) (owner : ProcedureId) (ticks : UInt64) :
    s.now < (s.scheduled owner ticks).deadline ∨ s.now = lastTick := by
  refine lt_laterBy ?_
  rw [toNat_max, UInt64.toNat_one]
  omega

theorem Sound.scheduleTicks {s : TimerService} (hs : s.Sound) (owner : ProcedureId)
    (ticks : UInt64) (h : s.nextId.toNat + 1 < 2 ^ 64) :
    (s.scheduleTicks owner ticks).2.Sound where
  ordered := Heap.ordered_insert Timer.before_total Timer.before_trans _ hs.ordered
  distinct := by
    have hperm := Heap.toList_insert_perm Timer.before (s.scheduled owner ticks) s.queue
    refine (hperm.map (·.id)).nodup_iff.2 (List.nodup_cons.2 ⟨fun hm => ?_, hs.distinct⟩)
    obtain ⟨t, ht, he⟩ := List.mem_map.1 hm
    have hlt := hs.issued t ht
    have hid : t.id = s.nextId := he
    rw [hid] at hlt
    omega
  issued t ht := by
    show t.id.toNat < (s.nextId + 1).toNat
    rw [toNat_add_one h]
    rcases (mem_queue_scheduleTicks s owner ticks t).1 ht with rfl | ht
    · exact Nat.lt_succ_self _
    · exact Nat.lt_succ_of_lt (hs.issued t ht)
  queued k hk := by
    rcases (isPending_scheduleTicks s owner ticks k).1 hk with rfl | hk
    · exact ⟨_, (mem_queue_scheduleTicks s owner ticks _).2 (.inl rfl), rfl⟩
    · obtain ⟨t, ht, he⟩ := hs.queued k hk
      exact ⟨t, (mem_queue_scheduleTicks s owner ticks t).2 (.inr ht), he⟩
  ahead t ht := by
    rcases (hs.waits_scheduleTicks owner ticks t).1 ht with rfl | ht
    · exact s.ahead_scheduled owner ticks
    · exact hs.ahead t ht

theorem isPending_cancel (s : TimerService) (k q : TimerId) :
    (s.cancel k).2.isPending q = true ↔ s.isPending q = true ∧ q ≠ k := by
  simp [cancel, isPending, Table.contains_erase, and_comm]

theorem Sound.restrict {s : TimerService} (hs : s.Sound) {live : KeySet TimerId}
    (h : ∀ k, live.contains k = true → s.isPending k = true) :
    ({ s with live } : TimerService).Sound where
  ordered := hs.ordered
  distinct := hs.distinct
  issued := hs.issued
  queued k hk := hs.queued k (h k hk)
  ahead t ht := hs.ahead t ⟨ht.1, h t.id ht.2⟩

theorem Sound.division_advance {s : TimerService} (hs : s.Sound) :
    Division (s.now + 1) s.queue s.live s.advance.1 s.advance.2.queue s.advance.2.live :=
  takeDue_division (s.now + 1) s.queue s.live hs.ordered hs.distinct

/-- an advance fires what is due, in the order of deadlines and then of numbers -/
theorem Sound.mem_fired_iff {s : TimerService} (hs : s.Sound) (t : Timer) :
    t ∈ s.advance.1 ↔ s.Waits t ∧ t.deadline ≤ s.now + 1 := by
  rw [hs.division_advance.mem_fired, Waits, and_assoc]
  rfl

theorem Sound.waits_advance {s : TimerService} (hs : s.Sound) (t : Timer) :
    s.advance.2.Waits t ↔ s.Waits t ∧ s.now + 1 < t.deadline := by
  have d := hs.division_advance
  have hpending : s.advance.2.isPending t.id = true ↔ s.isPending t.id = true ∧
      ∀ u ∈ s.queue.toList, u.id = t.id → s.now + 1 < u.deadline := d.live_iff t.id
  unfold Waits
  rw [hpending, d.sublist]
  constructor
  · rintro ⟨⟨ht, hlt⟩, hp, -⟩
    exact ⟨⟨ht, hp⟩, hlt⟩
  · rintro ⟨⟨ht, hp⟩, hlt⟩
    refine ⟨⟨ht, hlt⟩, hp, fun u hu he => ?_⟩
    rw [hs.eq_of_id hu ht he]
    exact hlt

theorem Sound.advance {s : TimerService} (hs : s.Sound) : s.advance.2.Sound where
  ordered := hs.division_advance.ordered
  distinct := hs.division_advance.distinct
  issued t ht := hs.issued t ((hs.division_advance.sublist t).1 ht).1
  queued k hk := by
    obtain ⟨hl, hlater⟩ := (hs.division_advance.live_iff k).1 hk
    obtain ⟨t, ht, he⟩ := hs.queued k hl
    exact ⟨t, (hs.division_advance.sublist t).2 ⟨ht, hlater t ht he⟩, he⟩
  ahead t ht := .inl ((hs.waits_advance t).1 ht).2

end TimerService

end NgapProcedures
