import Mathlib.Algebra.GroupWithZero.Nat
import NgapProcedures.Timer

/-! Ticks as numbers. Counts of ticks stop at the last one that 64 bits can hold, and a delay takes
the least number of ticks, at least one, that covers it. -/

namespace NgapProcedures

def lastTick : UInt64 := 0xFFFFFFFFFFFFFFFF

theorem toNat_lastTick : lastTick.toNat = 2 ^ 64 - 1 := rfl

theorem toNat_le_last (n : UInt64) : n.toNat ≤ 2 ^ 64 - 1 := by
  have := n.toNat_lt
  omega

theorem toNat_ofNatClamp (n : Nat) : (UInt64.ofNatClamp n).toNat = min n (2 ^ 64 - 1) := by
  unfold UInt64.ofNatClamp
  have hsize : UInt64.size = 2 ^ 64 := rfl
  split
  · rw [UInt64.toNat_ofNatLT]
    omega
  · rw [UInt64.toNat_ofNatLT]
    omega

theorem toNat_add_one {n : UInt64} (h : n.toNat + 1 < 2 ^ 64) : (n + 1).toNat = n.toNat + 1 := by
  rw [UInt64.toNat_add, UInt64.toNat_one, Nat.mod_eq_of_lt h]

theorem toNat_max (a b : UInt64) : (max a b).toNat = max a.toNat b.toNat := by
  show (if a ≤ b then b else a).toNat = _
  split
  · next h =>
    have := UInt64.le_iff_toNat_le.1 h
    omega
  · next h =>
    have := mt UInt64.le_iff_toNat_le.2 h
    omega

theorem toNat_laterBy (now ticks : UInt64) :
    (laterBy now ticks).toNat = min (now.toNat + ticks.toNat) (2 ^ 64 - 1) :=
  toNat_ofNatClamp _

/-- a deadline lies ahead, unless time stands at the last tick -/
theorem lt_laterBy {now ticks : UInt64} (h : 0 < ticks.toNat) :
    now < laterBy now ticks ∨ now = lastTick := by
  have hl := toNat_laterBy now ticks
  have hn := toNat_le_last now
  by_cases he : now.toNat = 2 ^ 64 - 1
  · exact .inr (UInt64.toNat_inj.1 (by rw [he, toNat_lastTick]))
  · exact .inl (UInt64.lt_iff_toNat_lt.2 (by omega))

theorem Duration.ticksToCover_le_iff {d tick : Duration} (h : 0 < tick.nanos) (n : Nat) :
    d.ticksToCover tick ≤ n ↔ d.nanos ≤ n * tick.nanos := by
  unfold ticksToCover
  rw [← Nat.lt_add_one_iff, Nat.div_lt_iff_lt_mul h, Nat.add_mul, Nat.one_mul]
  omega

namespace TimerService

theorem toNat_ticksFor (s : TimerService) (delay : Duration) :
    (s.ticksFor delay).toNat = min (max 1 (delay.ticksToCover s.tick)) (2 ^ 64 - 1) :=
  toNat_ofNatClamp _

/-- a timer takes the least number of ticks that covers its delay, and never none -/
theorem toNat_ticksFor_of_least {s : TimerService} {delay : Duration} {n : Nat}
    (ht : 0 < s.tick.nanos) (hpos : 1 ≤ n) (hcover : delay.nanos ≤ n * s.tick.nanos)
    (hleast : ∀ k, 1 ≤ k → delay.nanos ≤ k * s.tick.nanos → n ≤ k) (hfit : n < 2 ^ 64) :
    (s.ticksFor delay).toNat = n := by
  have hle := (Duration.ticksToCover_le_iff ht n).2 hcover
  have hge := hleast (max 1 (delay.ticksToCover s.tick)) (by omega)
    ((Duration.ticksToCover_le_iff ht _).1 (by omega))
  rw [toNat_ticksFor]
  omega

end TimerService

end NgapProcedures
