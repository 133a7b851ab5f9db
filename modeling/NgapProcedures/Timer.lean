import NgapProcedures.Duration
import NgapProcedures.Ident
import NgapProcedures.Table
import NgapProcedures.Timer.Heap

/-! One-shot timers in logical time. Time moves only by `advance`, one tick at a call. A cancelled
timer stays in the queue and is passed over when its tick comes. -/

namespace NgapProcedures

abbrev TimerId := UInt64

def TimerId.text (id : TimerId) : String := "timer-" ++ toString id.toNat

structure Timer where
  id : TimerId
  owner : ProcedureId
  /-- the tick it fires at -/
  deadline : UInt64
  deriving DecidableEq, Inhabited

/-- the earlier deadline goes first; timers due together go in the order they were scheduled -/
def Timer.before (a b : Timer) : Bool :=
  a.deadline < b.deadline || (a.deadline == b.deadline && a.id ≤ b.id)

/-- the tick that many ticks on, or the last tick there is -/
def laterBy (now ticks : UInt64) : UInt64 := .ofNatClamp (now.toNat + ticks.toNat)

structure TimerService where
  tick : Duration
  now : UInt64 := 0
  nextId : TimerId := 1
  queue : Heap Timer := .leaf
  /-- the timers that are neither fired nor cancelled -/
  live : KeySet TimerId := ∅
  deriving DecidableEq

namespace TimerService

def defaultTick : Duration := .ofMillis 1

def new (tick : Duration := defaultTick) : TimerService := { tick := tick.orMilli }

def ticksFor (s : TimerService) (delay : Duration) : UInt64 :=
  .ofNatClamp (max 1 (delay.ticksToCover s.tick))

/-- a timer that fires on the given number of advances from now, at least one -/
def scheduleTicks (s : TimerService) (owner : ProcedureId) (ticks : UInt64) :
    TimerId × TimerService :=
  let timer : Timer := ⟨s.nextId, owner, laterBy s.now (max ticks 1)⟩
  (s.nextId, { s with
    nextId := s.nextId + 1
    queue := s.queue.insert Timer.before timer
    live := s.live.insert s.nextId () })

def schedule (s : TimerService) (owner : ProcedureId) (delay : Duration) :
    TimerId × TimerService :=
  s.scheduleTicks owner (s.ticksFor delay)

def isPending (s : TimerService) (id : TimerId) : Bool := s.live.contains id

def cancel (s : TimerService) (id : TimerId) : Bool × TimerService :=
  (s.isPending id, { s with live := s.live.erase id })

/-- takes every queued timer due by `now`, and keeps those that are live -/
def takeDue (now : UInt64) (queue : Heap Timer) (live : KeySet TimerId) :
    List Timer × Heap Timer × KeySet TimerId :=
  match _popped : queue.pop? Timer.before with
  | none => ([], queue, live)
  | some (timer, rest) =>
    if now < timer.deadline then ([], queue, live)
    else
      let (due, queue', live') := takeDue now rest (live.erase timer.id)
      (if live.contains timer.id then timer :: due else due, queue', live')
termination_by queue.size
decreasing_by
  have := Heap.size_of_pop? _popped
  omega

def advance (s : TimerService) : List Timer × TimerService :=
  let now := s.now + 1
  let (fired, queue, live) := takeDue now s.queue s.live
  (fired, { s with now, queue, live })

def pending (s : TimerService) : Nat := s.live.size

def nextExpiry? (s : TimerService) : Option UInt64 :=
  ((s.queue.toList.filter fun t => s.isPending t.id).map (·.deadline)).min?

end TimerService

end NgapProcedures
