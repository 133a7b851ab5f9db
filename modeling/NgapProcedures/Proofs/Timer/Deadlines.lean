import Mathlib.Data.List.Induction
import Mathlib.Data.Nat.Find
import NgapProcedures.Proofs.Timer.Shift

/-! The plain table of deadlines that a timer service stands for: who waits for which tick, under
the timer's number. What is cancelled or fires is deleted at once, and nothing wraps around. Every
call to the service has the answer that the table gives, as long as no sum that the table has to form
passes 64 bits. -/

namespace NgapProcedures

theorem Duration.exists_covering (tick delay : Duration) :
    ∃ k, 1 ≤ k ∧ delay.nanos ≤ k * tick.orMilli.nanos := by
  refine ⟨delay.nanos + 1, Nat.le_add_left .., ?_⟩
  have hpos := tick.orMilli_pos
  calc delay.nanos ≤ delay.nanos + 1 := Nat.le_succ _
    _ ≤ (delay.nanos + 1) * tick.orMilli.nanos := Nat.le_mul_of_pos_right _ hpos

/-- the least number of ticks, at least one, that together are as long as the delay -/
def Duration.covering (tick delay : Duration) : Nat := Nat.find (tick.exists_covering delay)

theorem Duration.covering_spec (tick delay : Duration) : 1 ≤ tick.covering delay ∧
    delay.nanos ≤ tick.covering delay * tick.orMilli.nanos :=
  Nat.find_spec (tick.exists_covering delay)

theorem Duration.covering_le {tick delay : Duration} {k : Nat} (hk : 1 ≤ k)
    (hd : delay.nanos ≤ k * tick.orMilli.nanos) : tick.covering delay ≤ k :=
  Nat.find_min' _ ⟨hk, hd⟩

inductive TimerCall where
  | schedule (owner : ProcedureId) (delay : Duration)
  | scheduleTicks (owner : ProcedureId) (ticks : UInt64)
  | cancel (id : TimerId)
  | advance
  deriving DecidableEq

inductive TimerAnswer where
  | scheduled (id : Nat)
  | cancelled (waited : Bool)
  | fired (timers : List (Nat × ProcedureId))
  deriving DecidableEq

namespace TimerCall

/-- for whom a call schedules a timer, and after how many advances it is to fire -/
def scheduling? (tick : Duration) : TimerCall → Option (ProcedureId × Nat)
  | schedule owner delay => some (owner, tick.covering delay)
  | scheduleTicks owner ticks => some (owner, max 1 ticks.toNat)
  | cancel _ | advance => none

def cancels (id : Nat) : TimerCall → Bool
  | cancel k => k.toNat == id
  | _ => false

@[simp] theorem cancels_advance (id : Nat) : advance.cancels id = false := rfl

theorem any_cancels_iff {calls : List TimerCall} {id : TimerId} :
    calls.any (·.cancels id.toNat) = true ↔ .cancel id ∈ calls := by
  rw [List.any_eq_true]
  constructor
  · rintro ⟨c, hc, hcancels⟩
    cases c with
    | cancel k =>
      obtain rfl := UInt64.toNat_inj.1 (of_decide_eq_true hcancels)
      exact hc
    | _ => simp [cancels] at hcancels
  · exact fun hc => ⟨_, hc, by simp [cancels]⟩

def play {σ : Type} (call : σ → TimerCall → TimerAnswer × σ) (s : σ) :
    List TimerCall → List TimerAnswer × σ
  | [] => ([], s)
  | c :: rest =>
    let (answer, s) := call s c
    let (answers, s) := play call s rest
    (answer :: answers, s)

theorem play_append {σ : Type} (call : σ → TimerCall → TimerAnswer × σ) (s : σ)
    (a b : List TimerCall) :
    play call s (a ++ b) =
      ((play call s a).1 ++ (play call (play call s a).2 b).1, (play call (play call s a).2 b).2) := by
  induction a generalizing s with
  | nil => rfl
  | cons c rest ih => simp [play, ih]

end TimerCall

namespace TimerService

def call (s : TimerService) : TimerCall → TimerAnswer × TimerService
  | .schedule owner delay => (.scheduled (s.schedule owner delay).1.toNat, (s.schedule owner delay).2)
  | .scheduleTicks owner ticks =>
    (.scheduled (s.scheduleTicks owner ticks).1.toNat, (s.scheduleTicks owner ticks).2)
  | .cancel id => (.cancelled (s.cancel id).1, (s.cancel id).2)
  | .advance => (.fired (s.advance.1.map fun t => (t.id.toNat, t.owner)), s.advance.2)

def answers (s : TimerService) (calls : List TimerCall) : List TimerAnswer :=
  (TimerCall.play call s calls).1

def after (s : TimerService) (calls : List TimerCall) : TimerService :=
  (TimerCall.play call s calls).2

theorem after_append (s : TimerService) (a b : List TimerCall) :
    s.after (a ++ b) = (s.after a).after b := by
  rw [after, TimerCall.play_append]
  rfl

end TimerService

structure DeadlineTable where
  tick : Duration
  now : Nat := 0
  next : Nat := 1
  entries : Table Nat (ProcedureId × Nat) := ∅

namespace DeadlineTable

def new (tick : Duration) : DeadlineTable := { tick }

def schedule (d : DeadlineTable) (owner : ProcedureId) (ticks : Nat) : DeadlineTable :=
  { d with next := d.next + 1, entries := d.entries.insert d.next (owner, d.now + ticks) }

/-- the timers with that deadline, in the order in which they were scheduled -/
def dueAt (d : DeadlineTable) (tick : Nat) : List (Nat × ProcedureId) :=
  (d.entries.filter fun e => e.2.2 = tick).entries.map fun e => (e.1, e.2.1)

def call (d : DeadlineTable) : TimerCall → TimerAnswer × DeadlineTable
  | .schedule owner delay => (.scheduled d.next, d.schedule owner (d.tick.covering delay))
  | .scheduleTicks owner ticks => (.scheduled d.next, d.schedule owner (max 1 ticks.toNat))
  | .cancel id =>
    (.cancelled (d.entries.contains id.toNat), { d with entries := d.entries.erase id.toNat })
  | .advance =>
    (.fired (d.dueAt (d.now + 1)),
      { d with now := d.now + 1, entries := d.entries.filter fun e => e.2.2 ≠ d.now + 1 })

def answers (d : DeadlineTable) (calls : List TimerCall) : List TimerAnswer :=
  (TimerCall.play call d calls).1

def after (d : DeadlineTable) (calls : List TimerCall) : DeadlineTable :=
  (TimerCall.play call d calls).2

def nextExpiry? (d : DeadlineTable) : Option Nat := (d.entries.values.map (·.2)).min?

/-- the sums that a call has to form: a deadline and the next number, or the time -/
def sumsOf (d : DeadlineTable) (call : TimerCall) : List Nat :=
  match call.scheduling? d.tick with
  | some (_, ticks) => [d.now + ticks, d.next + 1]
  | none => if call = .advance then [d.now + 1] else []

def sums (d : DeadlineTable) : List TimerCall → List Nat
  | [] => []
  | c :: rest => d.sumsOf c ++ (d.call c).2.sums rest

variable {d : DeadlineTable}

theorem after_append (d : DeadlineTable) (a b : List TimerCall) :
    d.after (a ++ b) = (d.after a).after b := by
  rw [after, TimerCall.play_append]
  rfl

theorem sums_append (d : DeadlineTable) (a b : List TimerCall) :
    d.sums (a ++ b) = d.sums a ++ (d.after a).sums b := by
  induction a generalizing d with
  | nil => rfl
  | cons c rest ih => exact (congrArg (d.sumsOf c ++ ·) (ih _)).trans (List.append_assoc ..).symm

theorem call_of_scheduling {c : TimerCall} {owner : ProcedureId} {n : Nat}
    (h : c.scheduling? d.tick = some (owner, n)) :
    d.call c = (.scheduled d.next, d.schedule owner n) := by
  cases c with
  | schedule o delay =>
    obtain ⟨rfl, rfl⟩ := Prod.mk.inj (Option.some.inj h)
    rfl
  | scheduleTicks o ticks =>
    obtain ⟨rfl, rfl⟩ := Prod.mk.inj (Option.some.inj h)
    rfl
  | cancel id => simp [TimerCall.scheduling?] at h
  | advance => simp [TimerCall.scheduling?] at h

theorem one_le_of_scheduling {tick : Duration} {c : TimerCall} {owner : ProcedureId} {n : Nat}
    (h : c.scheduling? tick = some (owner, n)) : 1 ≤ n := by
  cases c with
  | schedule o delay =>
    obtain ⟨rfl, rfl⟩ := Prod.mk.inj (Option.some.inj h)
    exact (tick.covering_spec delay).1
  | scheduleTicks o ticks =>
    obtain ⟨rfl, rfl⟩ := Prod.mk.inj (Option.some.inj h)
    exact Nat.le_max_left ..
  | cancel id => simp [TimerCall.scheduling?] at h
  | advance => simp [TimerCall.scheduling?] at h

theorem tick_call (d : DeadlineTable) (c : TimerCall) : (d.call c).2.tick = d.tick := by
  cases c <;> rfl

theorem now_call (d : DeadlineTable) (c : TimerCall) :
    (d.call c).2.now = d.now + [c].count .advance := by
  cases c <;> rfl

theorem next_le_call (d : DeadlineTable) (c : TimerCall) : d.next ≤ (d.call c).2.next := by
  cases c
  case schedule => exact Nat.le_succ _
  case scheduleTicks => exact Nat.le_succ _
  case cancel => exact Nat.le_refl _
  case advance => exact Nat.le_refl _

theorem next_le_after (d : DeadlineTable) (calls : List TimerCall) :
    d.next ≤ (d.after calls).next := by
  induction calls generalizing d with
  | nil => exact Nat.le_refl _
  | cons c rest ih => exact Nat.le_trans (d.next_le_call c) (ih _)

theorem tick_after (d : DeadlineTable) (calls : List TimerCall) : (d.after calls).tick = d.tick := by
  induction calls generalizing d with
  | nil => rfl
  | cons c rest ih => exact (ih _).trans (d.tick_call c)

theorem get?_call {id : Nat} (h : id < d.next) (c : TimerCall) :
    (d.call c).2.entries.get? id = (d.entries.get? id).filter fun e =>
      !c.cancels id && !(decide (c = .advance) && decide (e.2 = d.now + 1)) := by
  have hkeep (o : Option (ProcedureId × Nat)) : o = o.filter fun _ => true := by cases o <;> rfl
  cases c with
  | schedule owner delay =>
    refine (Table.get?_insert_other _ _ (Nat.ne_of_lt h)).trans ?_
    simpa [TimerCall.cancels] using hkeep _
  | scheduleTicks owner ticks =>
    refine (Table.get?_insert_other _ _ (Nat.ne_of_lt h)).trans ?_
    simpa [TimerCall.cancels] using hkeep _
  | cancel k =>
    refine (Table.get?_erase ..).trans ?_
    by_cases hk : k.toNat = id
    · simp [TimerCall.cancels, hk]
    · have hother : (k.toNat == id) = false := by simpa using hk
      simpa [TimerCall.cancels, hother, Ne.symm hk] using hkeep _
  | advance =>
    refine (Table.get?_filter ..).trans ?_
    simp

/-- An entry is there until it is cancelled or its tick has come. -/
theorem get?_after {id n : Nat} {owner : ProcedureId} (hid : id < d.next)
    (h : d.entries.get? id = some (owner, d.now + n)) (hn : 1 ≤ n) (calls : List TimerCall) :
    (d.after calls).now = d.now + calls.count .advance ∧ id < (d.after calls).next ∧
    (d.after calls).entries.get? id =
      if calls.any (·.cancels id) = true ∨ n ≤ calls.count .advance then none
      else some (owner, d.now + n) := by
  induction calls using List.reverseRecOn with
  | nil => exact ⟨rfl, hid, h.trans (if_neg (by simp; omega)).symm⟩
  | append_singleton calls c ih =>
    obtain ⟨hnow, hnext, hget⟩ := ih
    have hlast : d.after (calls ++ [c]) = ((d.after calls).call c).2 := d.after_append calls [c]
    refine ⟨?_, ?_, ?_⟩
    · rw [hlast, now_call, hnow, List.count_append, Nat.add_assoc]
    · rw [hlast]
      exact Nat.lt_of_lt_of_le hnext (next_le_call ..)
    · rw [hlast, get?_call hnext, hget, hnow]
      have hcount : [c].count .advance = if c = .advance then 1 else 0 := by
        simp [List.count_singleton]
      rw [List.count_append, hcount, List.any_append]
      by_cases hc : calls.any (·.cancels id) = true
      · simp [hc]
      by_cases hle : n ≤ calls.count .advance
      · simp [hle, Nat.le_add_right_of_le hle]
      by_cases hadv : c = .advance
      · subst hadv
        by_cases he : n = calls.count .advance + 1
        · subst he
          simp [hc, Nat.add_assoc]
        · have hne : d.now + n ≠ d.now + calls.count .advance + 1 := by omega
          have hle' : ¬n ≤ calls.count .advance + 1 := by omega
          simp [hc, hle, hle', hne]
      · cases hcancel : c.cancels id <;> simp [hc, hle, hadv, hcancel]

theorem filter_dueAt (d : DeadlineTable) (tick id : Nat) :
    (d.dueAt tick).filter (fun x => x.1 = id) =
      ((d.entries.get? id).filter fun e => e.2 = tick).toList.map fun e => (id, e.1) := by
  rw [← Table.get?_filter (fun e : Nat × ProcedureId × Nat => decide (e.2.2 = tick)), dueAt,
    List.filter_map]
  have hkey := (d.entries.filter fun e => e.2.2 = tick).filter_key id
  refine (congrArg (List.map _) hkey).trans ?_
  rw [List.map_map]
  rfl

/-- A timer that is scheduled fires on its tick, unless it has been cancelled before, and not on any
other. -/
theorem filter_dueAt_after {c : TimerCall} {owner : ProcedureId} {n : Nat}
    (h : c.scheduling? d.tick = some (owner, n)) (calls : List TimerCall) :
    let d' := d.after (c :: calls)
    (d'.dueAt (d'.now + 1)).filter (fun x => x.1 = d.next) =
      if calls.count .advance + 1 = n ∧ calls.any (·.cancels d.next) = false
        then [(d.next, owner)] else [] := by
  intro d'
  have hcall : (d.call c).2 = d.schedule owner n := congrArg Prod.snd (call_of_scheduling h)
  have hafter : d' = (d.schedule owner n).after calls := congrArg (fun e => after e calls) hcall
  have hnumber : d.next < (d.schedule owner n).next := Nat.lt_succ_self _
  have hentry : (d.schedule owner n).entries.get? d.next =
      some (owner, (d.schedule owner n).now + n) := Table.get?_insert_self ..
  obtain ⟨hnow, -, hget⟩ := get?_after hnumber hentry (one_le_of_scheduling h) calls
  have hsame : (d.schedule owner n).now = d.now := rfl
  rw [← hafter, hsame] at hnow hget
  rw [filter_dueAt, hget, hnow]
  cases hc : calls.any (·.cancels d.next) with
  | true => simp
  | false =>
    by_cases hn : calls.count .advance + 1 = n
    · have hlater : ¬n ≤ calls.count .advance := by omega
      subst hn
      simp [Nat.add_assoc]
    · have hother : d.now + n ≠ d.now + calls.count .advance + 1 := by omega
      by_cases hle : n ≤ calls.count .advance
      · simp [hn, hle]
      · simp [hn, hle, hother]

end DeadlineTable

end NgapProcedures
