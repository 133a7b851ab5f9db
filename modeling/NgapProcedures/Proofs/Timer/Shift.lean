import NgapProcedures.Proofs.Timer.Service

/-! Two timer services of which one started earlier. Its time and its numbers are further on by
constants, and what waits in it is what waits in the other, further on by the same; what has been
cancelled or has fired leaves no trace. Deadlines stop at the last tick, so that two ticks of the
same kind come to the same only before that tick, or if nothing is due beyond it. -/

namespace NgapProcedures

def Timer.shift (number time : UInt64) (t : Timer) : Timer :=
  ⟨t.id + number, t.owner, laterBy t.deadline time⟩

namespace TimerService

variable {s s' : TimerService} {number time : UInt64}

structure Shifted (number time : UInt64) (s s' : TimerService) : Prop where
  sound : s.Sound
  sound' : s'.Sound
  tick : s.tick = s'.tick
  now : s.now.toNat = s'.now.toNat + time.toNat
  nextId : s.nextId.toNat = s'.nextId.toNat + number.toNat
  waits : ∀ t, s.Waits t ↔ ∃ u, s'.Waits u ∧ t = u.shift number time

theorem waits_cancel (s : TimerService) (k : TimerId) (t : Timer) :
    (s.cancel k).2.Waits t ↔ s.Waits t ∧ t.id ≠ k := by
  unfold Waits
  rw [isPending_cancel, and_assoc]
  rfl

theorem Sound.cancel (hs : s.Sound) (k : TimerId) : (s.cancel k).2.Sound :=
  hs.restrict fun q hq => ((isPending_cancel s k q).1 hq).1

namespace Shifted

theorem nextId_eq (h : Shifted number time s s') : s.nextId = s'.nextId + number := by
  have := h.nextId
  have := s.nextId.toNat_lt
  rw [← UInt64.toNat_inj, UInt64.toNat_add, Nat.mod_eq_of_lt (by omega)]
  exact h.nextId

/-- numbers that were given out do not wrap around when they are shifted -/
theorem toNat_id (h : Shifted number time s s') {u : Timer} (hu : s'.Waits u) :
    (u.id + number).toNat = u.id.toNat + number.toNat := by
  have hissued := h.sound'.issued u hu.1
  have hnext := h.nextId
  have hlt := s.nextId.toNat_lt
  rw [UInt64.toNat_add, Nat.mod_eq_of_lt (by omega)]

theorem cancel (h : Shifted number time s s') (k : TimerId) :
    Shifted number time (s.cancel (k + number)).2 (s'.cancel k).2 where
  sound := h.sound.cancel _
  sound' := h.sound'.cancel _
  tick := h.tick
  now := h.now
  nextId := h.nextId
  waits t := by
    rw [waits_cancel, h.waits]
    constructor
    · rintro ⟨⟨u, hu, rfl⟩, hk⟩
      exact ⟨u, (waits_cancel s' k u).2 ⟨hu, fun hc => hk (congrArg (· + number) hc)⟩, rfl⟩
    · rintro ⟨u, hu, rfl⟩
      obtain ⟨hu, hk⟩ := (waits_cancel s' k u).1 hu
      exact ⟨⟨u, hu, rfl⟩, fun hc => hk ((UInt64.add_left_inj number).1 hc)⟩

theorem scheduled (h : Shifted number time s s') (owner : ProcedureId) (ticks : UInt64) :
    s.scheduled owner ticks = (s'.scheduled owner ticks).shift number time := by
  have hdeadline : laterBy s.now (max ticks 1) = laterBy (laterBy s'.now (max ticks 1)) time := by
    rw [← UInt64.toNat_inj, toNat_laterBy, toNat_laterBy, toNat_laterBy, h.now]
    have := toNat_le_last time
    omega
  rw [TimerService.scheduled, TimerService.scheduled, Timer.shift, h.nextId_eq, hdeadline]

theorem schedule (h : Shifted number time s s') (owner : ProcedureId) (delay : Duration)
    (hroom : s.nextId.toNat + 1 < 2 ^ 64) :
    Shifted number time (s.schedule owner delay).2 (s'.schedule owner delay).2 := by
  have hnext := h.nextId
  have hroom' : s'.nextId.toNat + 1 < 2 ^ 64 := by omega
  have hticks : s.ticksFor delay = s'.ticksFor delay := by rw [ticksFor, ticksFor, h.tick]
  have hwaits := h.sound.waits_scheduleTicks owner (s.ticksFor delay)
  have hwaits' := h.sound'.waits_scheduleTicks owner (s'.ticksFor delay)
  exact {
    sound := h.sound.scheduleTicks owner _ hroom
    sound' := h.sound'.scheduleTicks owner _ hroom'
    tick := h.tick
    now := h.now
    nextId := by
      show (s.nextId + 1).toNat = (s'.nextId + 1).toNat + number.toNat
      rw [toNat_add_one hroom, toNat_add_one hroom']
      omega
    waits := fun t => by
      refine (hwaits t).trans ?_
      rw [h.waits, hticks, h.scheduled]
      constructor
      · rintro (rfl | ⟨u, hu, rfl⟩)
        · exact ⟨_, (hwaits' _).2 (.inl rfl), rfl⟩
        · exact ⟨u, (hwaits' u).2 (.inr hu), rfl⟩
      · rintro ⟨u, hu, rfl⟩
        rcases (hwaits' u).1 hu with rfl | hu
        · exact .inl rfl
        · exact .inr ⟨u, hu, rfl⟩ }

/-- The next tick is not past the last, and if it is the last, nothing is due beyond it. -/
def Ripe (time : UInt64) (s s' : TimerService) : Prop :=
  s.now.toNat + 1 < 2 ^ 64 ∧
    (s.now.toNat + 2 < 2 ^ 64 ∨ ∀ u, s'.Waits u → u.deadline.toNat + time.toNat < 2 ^ 64)

/-- what is due on one side is due on the other -/
theorem due_iff (h : Shifted number time s s') (hr : Ripe time s s') {u : Timer}
    (hu : s'.Waits u) : (u.shift number time).deadline ≤ s.now + 1 ↔ u.deadline ≤ s'.now + 1 := by
  obtain ⟨hfit, hlate⟩ := hr
  have hnow := h.now
  have hbeyond : s.now.toNat + 2 < 2 ^ 64 ∨ u.deadline.toNat + time.toNat < 2 ^ 64 :=
    hlate.imp_right fun hl => hl u hu
  rw [UInt64.le_iff_toNat_le, UInt64.le_iff_toNat_le, Timer.shift, toNat_laterBy,
    toNat_add_one hfit, toNat_add_one (by omega)]
  omega

theorem fired (h : Shifted number time s s') (hr : Ripe time s s') :
    s.advance.1 = s'.advance.1.map (Timer.shift number time) := by
  have hfired' {u : Timer} := h.sound'.mem_fired_iff u
  have hmem (t : Timer) : t ∈ s.advance.1 ↔ t ∈ s'.advance.1.map (Timer.shift number time) := by
    rw [h.sound.mem_fired_iff, h.waits, List.mem_map]
    constructor
    · rintro ⟨⟨u, hu, rfl⟩, hd⟩
      exact ⟨u, hfired'.2 ⟨hu, (h.due_iff hr hu).1 hd⟩, rfl⟩
    · rintro ⟨u, hu, rfl⟩
      obtain ⟨hu, hd⟩ := hfired'.1 hu
      exact ⟨⟨u, hu, rfl⟩, (h.due_iff hr hu).2 hd⟩
  have hids : ((s'.advance.1.map (Timer.shift number time)).map (·.id)).Nodup := by
    have hmap : (s'.advance.1.map (Timer.shift number time)).map (·.id) =
        (s'.advance.1.map (·.id)).map (· + number) := by simp [Timer.shift]
    rw [hmap]
    exact .map (fun _ _ => (UInt64.add_left_inj number).1) h.sound'.division_advance.distinct_fired
  -- what fires is due by now, so that no deadline has been cut off at the last tick
  have hsorted : (s'.advance.1.map (Timer.shift number time)).Pairwise
      (fun a b => a.before b = true) := by
    refine List.pairwise_map.2 (h.sound'.division_advance.sorted.imp_of_mem fun {a b} ha hb hab => ?_)
    obtain ⟨ha, hda⟩ := hfired'.1 ha
    obtain ⟨hb, hdb⟩ := hfired'.1 hb
    have hnow := h.now
    have hfit := hr.1
    have hida := h.toNat_id ha
    have hidb := h.toNat_id hb
    have hnow' : (s'.now + 1).toNat = s'.now.toNat + 1 := toNat_add_one (by omega)
    rw [Timer.before_iff] at hab ⊢
    simp only [Timer.shift, UInt64.lt_iff_toNat_lt, UInt64.le_iff_toNat_le, ← UInt64.toNat_inj,
      toNat_laterBy, hida, hidb, hnow'] at hab hda hdb ⊢
    omega
  refine List.Perm.eq_of_pairwise (fun a b ha hb hab hba => ?_) h.sound.division_advance.sorted
    hsorted ?_
  · have ha := ((h.sound.mem_fired_iff a).1 ha).1
    have hb := ((h.sound.mem_fired_iff b).1 ((hmem b).2 hb)).1
    refine h.sound.eq_of_id ha.1 hb.1 ?_
    rw [Timer.before_iff] at hab hba
    simp only [UInt64.lt_iff_toNat_lt, UInt64.le_iff_toNat_le, ← UInt64.toNat_inj] at hab hba ⊢
    omega
  · exact (List.perm_ext_iff_of_nodup (.of_map _ h.sound.division_advance.distinct_fired)
      (.of_map _ hids)).2 hmem

/-- What is not ripe may come apart. Of two services one tick apart the elder takes its last tick,
where its deadline was cut off, and its timer fires; that of the younger still waits. -/
example :
    let elder : TimerService := { tick := .ofMillis 1, now := 2 ^ 64 - 2 }
    let younger : TimerService := { tick := .ofMillis 1, now := 2 ^ 64 - 3 }
    (elder.schedule ⟨"proc-1"⟩ (.ofSeconds 1)).2.advance.1 = [⟨1, ⟨"proc-1"⟩, 2 ^ 64 - 1⟩] ∧
      (younger.schedule ⟨"proc-1"⟩ (.ofSeconds 1)).2.advance.1 = [] := by decide +kernel

theorem advance (h : Shifted number time s s') (hr : Ripe time s s') :
    Shifted number time s.advance.2 s'.advance.2 where
  sound := h.sound.advance
  sound' := h.sound'.advance
  tick := h.tick
  now := by
    have hnow := h.now
    have hfit := hr.1
    show (s.now + 1).toNat = (s'.now + 1).toNat + time.toNat
    rw [toNat_add_one hfit, toNat_add_one (by omega)]
    omega
  nextId := h.nextId
  waits t := by
    rw [h.sound.waits_advance, h.waits]
    have hdue {u : Timer} (hu : s'.Waits u) :
        s.now + 1 < (u.shift number time).deadline ↔ s'.now + 1 < u.deadline := by
      rw [← UInt64.not_le, ← UInt64.not_le, h.due_iff hr hu]
    constructor
    · rintro ⟨⟨u, hu, rfl⟩, hd⟩
      exact ⟨u, (h.sound'.waits_advance u).2 ⟨hu, (hdue hu).1 hd⟩, rfl⟩
    · rintro ⟨u, hu, rfl⟩
      obtain ⟨hu, hd⟩ := (h.sound'.waits_advance u).1 hu
      exact ⟨⟨u, hu, rfl⟩, (hdue hu).2 hd⟩

end Shifted

end TimerService

end NgapProcedures
