import NgapProcedures.Duration

/-! Turns the readings of a clock into the ticks still owed to the procedures. -/

namespace NgapProcedures

structure TickPacer where
  tick : Duration
  /-- the clock's reading when the pacer was made -/
  origin : Duration
  issued : UInt64 := 0
  deriving DecidableEq

namespace TickPacer

def new (reading tick : Duration) : TickPacer := { tick := tick.orMilli, origin := reading }

def total (p : TickPacer) (reading : Duration) : UInt64 :=
  .ofNatClamp ((reading - p.origin).ticksIn p.tick)

/-- ticks owed at a reading since the last one. A reading earlier than the last owes none, and the
count starts again from there. -/
def due (p : TickPacer) (reading : Duration) : UInt64 × TickPacer :=
  let total := p.total reading
  (if total ≤ p.issued then 0 else total - p.issued, { p with issued := total })

end TickPacer

end NgapProcedures
