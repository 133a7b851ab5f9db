/-! Lengths of time, in whole nanoseconds. -/

namespace NgapProcedures

structure Duration where
  nanos : Nat
  deriving DecidableEq, Inhabited

namespace Duration

def nanosPerSecond : Nat := 1000000000

def nanosPerMilli : Nat := 1000000

def zero : Duration := ⟨0⟩

def ofSeconds (n : Nat) : Duration := ⟨n * nanosPerSecond⟩

def ofMillis (n : Nat) : Duration := ⟨n * nanosPerMilli⟩

def isZero (d : Duration) : Bool := d.nanos == 0

def seconds (d : Duration) : Nat := d.nanos / nanosPerSecond

def subsecond (d : Duration) : Nat := d.nanos % nanosPerSecond

def millis (d : Duration) : Nat := d.nanos / nanosPerMilli

instance : Add Duration := ⟨fun a b => ⟨a.nanos + b.nanos⟩⟩

/-- the time from `b` to `a`, and none if `a` is the earlier of the two -/
instance : Sub Duration := ⟨fun a b => ⟨a.nanos - b.nanos⟩⟩

/-- a tick that is asked to last no time lasts one millisecond -/
def orMilli (tick : Duration) : Duration := if tick.isZero then ofMillis 1 else tick

theorem orMilli_pos (tick : Duration) : 0 < tick.orMilli.nanos := by
  unfold orMilli isZero
  split <;> simp_all [ofMillis, nanosPerMilli, Nat.pos_iff_ne_zero]

def ticksIn (d tick : Duration) : Nat := d.nanos / tick.nanos

/-- the number of ticks it takes to cover a duration, the last of them perhaps in part -/
def ticksToCover (d tick : Duration) : Nat := (d.nanos + (tick.nanos - 1)) / tick.nanos

end Duration

end NgapProcedures
