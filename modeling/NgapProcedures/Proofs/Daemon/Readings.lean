import NgapProcedures.Proofs.Daemon.Turns

/-! What a pacer makes of the readings of its clock, one after another, which may go back. It counts
from its last reading, so the ticks that the clock goes back by are taken off the count, and they are
handed out again when the clock has made up for them. -/

namespace NgapProcedures.TickPacer

def poll (p : TickPacer) : List Duration → List UInt64 × TickPacer
  | [] => ([], p)
  | reading :: rest =>
    let (due, p) := p.due reading
    let (dues, p) := p.poll rest
    (due :: dues, p)

def handedOut (dues : List UInt64) : Nat := (dues.map UInt64.toNat).sum

/-- by how much counts fall in all, one after another -/
def setbacks (last : Nat) : List Nat → Nat
  | [] => 0
  | count :: rest => last - count + setbacks count rest

/-- how often counts pass a number on their way up -/
def crossings (k last : Nat) : List Nat → Nat
  | [] => 0
  | count :: rest => (if last ≤ k ∧ k < count then 1 else 0) + crossings k count rest

/-- the ticks handed out at readings in turn, by their numbers since the origin -/
def slots (p : TickPacer) : List Duration → List Nat
  | [] => []
  | reading :: rest =>
    List.range' p.issued.toNat (p.due reading).1.toNat ++ (p.due reading).2.slots rest

/-- the whole ticks up to each of the readings -/
def counts (p : TickPacer) (readings : List Duration) : List Nat :=
  readings.map fun reading => (p.total reading).toNat

theorem setbacks_eq_zero {last : Nat} {counts : List Nat} :
    setbacks last counts = 0 ↔ (last :: counts).Pairwise (· ≤ ·) := by
  rw [← List.isChain_iff_pairwise]
  induction counts generalizing last with
  | nil => simp [setbacks]
  | cons count rest ih => rw [setbacks, Nat.add_eq_zero_iff, ih, Nat.sub_eq_zero_iff_le,
      List.isChain_cons_cons]

section

variable (p : TickPacer)

theorem toNat_total_new (origin tick reading : Duration) : ((new origin tick).total reading).toNat =
    min ((reading.nanos - origin.nanos) / tick.orMilli.nanos) (2 ^ 64 - 1) :=
  toNat_ofNatClamp _

/-- the ticks owed are those beyond the last reading, and none where the clock has gone back -/
theorem toNat_due_eq (reading : Duration) :
    (p.due reading).1.toNat = (p.total reading).toNat - p.issued.toNat := by
  by_cases h : p.issued ≤ p.total reading
  · have hdue := toNat_due h
    omega
  · have hle : p.total reading ≤ p.issued := UInt64.le_of_lt (UInt64.not_le.1 h)
    have hzero : (p.due reading).1 = 0 := if_pos hle
    have hle' := UInt64.le_iff_toNat_le.1 hle
    rw [hzero, Nat.sub_eq_zero_of_le hle']
    rfl

theorem handedOut_poll_cons (reading : Duration) (rest : List Duration) :
    handedOut (p.poll (reading :: rest)).1 =
      (p.due reading).1.toNat + handedOut ((p.due reading).2.poll rest).1 :=
  List.sum_cons

theorem counts_cons (reading : Duration) (rest : List Duration) :
    p.counts (reading :: rest) = (p.total reading).toNat :: (p.due reading).2.counts rest :=
  rfl

theorem toNat_issued_poll (readings : List Duration) :
    (p.poll readings).2.issued.toNat = (p.counts readings).getLastD p.issued.toNat := by
  induction readings generalizing p with
  | nil => rfl
  | cons reading rest ih =>
    rw [counts_cons, List.getLastD_cons]
    exact ih (p.due reading).2

/-- What was handed out is the count at the end, and all that the clock went back by on the way. -/
theorem handedOut_poll (readings : List Duration) :
    p.issued.toNat + handedOut (p.poll readings).1 =
      (p.poll readings).2.issued.toNat + setbacks p.issued.toNat (p.counts readings) := by
  induction readings generalizing p with
  | nil => rfl
  | cons reading rest ih =>
    have hrest := ih (p.due reading).2
    have hissued : (p.due reading).2.issued = p.total reading := rfl
    have hafter : (p.poll (reading :: rest)).2 = ((p.due reading).2.poll rest).2 := rfl
    rw [hissued] at hrest
    rw [handedOut_poll_cons, toNat_due_eq, counts_cons, setbacks, hafter]
    omega

/-- What a pacer counts is what it has handed out just when no reading counts less than the one
before. -/
theorem issued_eq_handedOut_iff (hzero : p.issued.toNat = 0) (readings : List Duration) :
    (p.poll readings).2.issued.toNat = handedOut (p.poll readings).1 ↔
      (p.counts readings).Pairwise (· ≤ ·) := by
  have hsum := p.handedOut_poll readings
  have hsorted : (p.issued.toNat :: p.counts readings).Pairwise (· ≤ ·) ↔
      (p.counts readings).Pairwise (· ≤ ·) := by
    simp [List.pairwise_cons, hzero]
  rw [← hsorted, ← setbacks_eq_zero]
  omega

theorem length_slots (readings : List Duration) :
    (p.slots readings).length = handedOut (p.poll readings).1 := by
  induction readings generalizing p with
  | nil => rfl
  | cons reading rest ih =>
    rw [slots, List.length_append, List.length_range', ih, handedOut_poll_cons]

/-- A tick is handed out as often as the clock goes past it. -/
theorem count_slots (k : Nat) (readings : List Duration) :
    (p.slots readings).count k = crossings k p.issued.toNat (p.counts readings) := by
  induction readings generalizing p with
  | nil => rfl
  | cons reading rest ih =>
    have hpassed : p.issued.toNat ≤ k ∧ k < p.issued.toNat + (p.due reading).1.toNat ↔
        p.issued.toNat ≤ k ∧ k < (p.total reading).toNat := by
      rw [toNat_due_eq]
      omega
    rw [slots, List.count_append, ih, counts_cons, crossings, List.count_range_1']
    simp only [hpassed]
    rfl

/-- Where no count falls, the ticks are handed out in order and each of them once. -/
theorem slots_of_sorted {readings : List Duration}
    (h : (p.issued.toNat :: p.counts readings).Pairwise (· ≤ ·)) :
    p.slots readings = List.range' p.issued.toNat (handedOut (p.poll readings).1) := by
  induction readings generalizing p with
  | nil => rfl
  | cons reading rest ih =>
    rw [counts_cons] at h
    obtain ⟨hup, hrest⟩ := List.pairwise_cons.1 h
    have hle := hup _ List.mem_cons_self
    have hissued : (p.due reading).2.issued = p.total reading := rfl
    have hnext : (p.total reading).toNat = p.issued.toNat + (p.due reading).1.toNat := by
      rw [toNat_due_eq]
      omega
    rw [slots, ih (p.due reading).2 hrest, hissued, hnext, handedOut_poll_cons,
      List.range'_append_1]

theorem toNat_issued_le (readings : List Duration) {bound : Nat} (hissued : p.issued.toNat ≤ bound)
    (h : ∀ count ∈ p.counts readings, count ≤ bound) :
    (p.poll readings).2.issued.toNat ≤ bound := by
  rw [toNat_issued_poll]
  rcases List.mem_cons.1 List.getLastD_mem_cons with he | hmem
  · exact he ▸ hissued
  · exact h _ hmem

end

/-- The count of a pacer is the whole ticks up to the last reading, so it falls when the clock goes
back. What was handed out is the count and, on top of it, all that it fell by: a tick is handed out as
often as the clock goes past it. The two agree just when no reading counts less than the one before,
and then the ticks are handed out in order and each of them once. The count never exceeds the whole
ticks up to the largest reading. -/
theorem handedOut_with_setbacks (origin tick : Duration) (readings : List Duration) :
    let pacer := new origin tick
    let counts := readings.map fun reading =>
      min ((reading.nanos - origin.nanos) / tick.orMilli.nanos) (2 ^ 64 - 1)
    let (dues, p) := pacer.poll readings
    p.issued.toNat = counts.getLastD 0 ∧
      handedOut dues = p.issued.toNat + setbacks 0 counts ∧
      (pacer.slots readings).length = handedOut dues ∧
      (∀ k, (pacer.slots readings).count k = crossings k 0 counts) ∧
      (p.issued.toNat = handedOut dues ↔ counts.Pairwise (· ≤ ·)) ∧
      (counts.Pairwise (· ≤ ·) → pacer.slots readings = List.range p.issued.toNat) ∧
      ∀ largest, (∀ reading ∈ readings, reading.nanos ≤ largest) →
        p.issued.toNat ≤ (largest - origin.nanos) / tick.orMilli.nanos := by
  intro pacer counts
  have hcounts : pacer.counts readings = counts :=
    List.map_congr_left fun reading _ => toNat_total_new origin tick reading
  have hzero : pacer.issued.toNat = 0 := rfl
  have hlast := pacer.toNat_issued_poll readings
  have hsum := pacer.handedOut_poll readings
  have hagree := pacer.issued_eq_handedOut_iff hzero readings
  have hslots := pacer.count_slots
  rw [hzero, hcounts] at hlast hsum
  rw [hcounts] at hagree
  refine ⟨hlast, by omega, pacer.length_slots readings, fun k => ?_, hagree, fun h => ?_,
    fun largest hlargest => ?_⟩
  · rw [hslots, hcounts, hzero]
  · have hup : (pacer.issued.toNat :: pacer.counts readings).Pairwise (· ≤ ·) := by
      rw [hcounts, hzero]
      exact List.pairwise_cons.2 ⟨fun _ _ => Nat.zero_le _, h⟩
    rw [pacer.slots_of_sorted hup, hzero, ← hagree.2 h, List.range_eq_range']
  · refine pacer.toNat_issued_le readings (Nat.zero_le _) fun count hmem => ?_
    rw [hcounts] at hmem
    obtain ⟨reading, hr, rfl⟩ := List.mem_map.1 hmem
    have hdiv : (reading.nanos - origin.nanos) / tick.orMilli.nanos ≤
        (largest - origin.nanos) / tick.orMilli.nanos :=
      Nat.div_le_div_right (Nat.sub_le_sub_right (hlargest reading hr) _)
    exact Nat.le_trans (Nat.min_le_left _ _) hdiv

/-- Readings that go on, stay, and go on again: every tick once, and no more than were. -/
theorem handedOut_with_setbacks_none :
    (new .zero (.ofMillis 5)).slots [.ofMillis 7, .ofMillis 9, .ofMillis 15] = List.range 3 ∧
      ((new .zero (.ofMillis 5)).poll [.ofMillis 7, .ofMillis 9, .ofMillis 15]).2.issued.toNat ≤
        15000000 / 5000000 := by
  obtain ⟨-, -, -, -, -, hslots, hlargest⟩ :=
    handedOut_with_setbacks .zero (.ofMillis 5) [.ofMillis 7, .ofMillis 9, .ofMillis 15]
  exact ⟨hslots (by decide), hlargest 15000000 (by decide)⟩

/-- A clock that goes from five ticks back to two and makes up for it: the count falls, and three
ticks are handed out twice. -/
theorem three_ticks_handed_out_twice :
    let pacer := new .zero (.ofMillis 1)
    (pacer.poll [.ofMillis 5]).2.issued = 5 ∧
      (pacer.poll [.ofMillis 5, .ofMillis 2]).2.issued = 2 ∧
      pacer.poll [.ofMillis 5, .ofMillis 2, .ofMillis 5] =
        ([5, 0, 3], { pacer with issued := 5 }) ∧
      handedOut [5, 0, 3] = 8 ∧
      pacer.slots [.ofMillis 5, .ofMillis 2, .ofMillis 5] = [0, 1, 2, 3, 4, 2, 3, 4] := by
  decide

end NgapProcedures.TickPacer
