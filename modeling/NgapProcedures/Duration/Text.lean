import NgapProcedures.Duration
import NgapProcedures.Text.Blank
import NgapProcedures.Text.Decimal

/-! Durations as people write them: spans such as `1h 30m` or `1.5s`, added up. -/

namespace NgapProcedures

/-- units of time; a month is a twelfth of a year, and a year has 365.25 days -/
inductive TimeUnit where
  | nanosecond | microsecond | millisecond | second | minute | hour | day | week | month | year
  deriving DecidableEq

namespace TimeUnit

def all : List TimeUnit :=
  [nanosecond, microsecond, millisecond, second, minute, hour, day, week, month, year]

def names : TimeUnit → List String
  | nanosecond => ["nanos", "nsec", "ns"]
  | microsecond => ["usec", "us", "µs"]
  | millisecond => ["millis", "msec", "ms"]
  | second => ["seconds", "second", "secs", "sec", "s"]
  | minute => ["minutes", "minute", "min", "mins", "m"]
  | hour => ["hours", "hour", "hr", "hrs", "h"]
  | day => ["days", "day", "d"]
  | week => ["weeks", "week", "wk", "wks", "w"]
  | month => ["months", "month", "M"]
  | year => ["years", "year", "yr", "yrs", "y"]

def ofName? (name : String) : Option TimeUnit := all.find? fun u => u.names.contains name

def nanos : TimeUnit → Nat
  | nanosecond => 1
  | microsecond => 1000
  | millisecond => 1000000
  | _ => 0

def seconds : TimeUnit → Nat
  | second => 1
  | minute => 60
  | hour => 3600
  | day => 86400
  | week => 604800
  | month => 2630016
  | year => 31557600
  | _ => 0

/-- what a fraction of the unit is counted in: nanoseconds per unit up to the minute; from the hour
on seconds per unit; a nanosecond has no fractions -/
def fractionNanos : TimeUnit → Nat
  | microsecond => 1000
  | millisecond => 1000000
  | second => 1000000000
  | minute => 60000000000
  | _ => 0

def fractionSeconds (u : TimeUnit) : Nat := if u.fractionNanos = 0 then u.seconds else 0

end TimeUnit

namespace Duration.Text

/-- a number with a unit: whole units, and a fraction written as its digits and the power of ten they
are parts of -/
structure Span where
  whole : Nat
  fraction : Option (Nat × Nat) := none
  deriving DecidableEq

def checked (n : Nat) : Option Nat := if n < UInt64.size then some n else none

def addParts (d : Duration) (seconds nanos : Nat) : Option Duration := do
  let nanos ← checked (d.subsecond + nanos)
  let seconds ← checked (d.seconds + seconds)
  let _ ← checked (seconds + nanos / nanosPerSecond)
  return ⟨seconds * nanosPerSecond + nanos⟩

/-- a part of `scale`, if that is a whole number -/
def exactly (part : Nat × Nat) (scale : Nat) : Option Nat := do
  let n ← checked (part.1 * scale)
  if n % part.2 = 0 then some (n / part.2) else none

def addSpan (d : Duration) (span : Span) (u : TimeUnit) : Option Duration := do
  let seconds ← checked (span.whole * u.seconds)
  let nanos ← checked (span.whole * u.nanos)
  let d ← addParts d seconds nanos
  match span.fraction with
  | none => some d
  | some part =>
    if u = .nanosecond then none
    else
      let seconds ← exactly part u.fractionSeconds
      let nanos ← exactly part u.fractionNanos
      addParts d seconds nanos

def isUnitLetter (c : Char) : Bool :=
  ('a' ≤ c && c ≤ 'z') || ('A' ≤ c && c ≤ 'Z') || c == 'µ'

inductive Position where
  /-- before a number, or at the end -/
  | start
  /-- in the whole part of a number -/
  | number (whole : Nat)
  /-- after the point, with the digits so far and the power of ten they are parts of -/
  | fraction (whole numerator denominator : Nat)
  /-- in a unit, whose letters so far stand in reverse -/
  | unit (span : Span) (letters : List Char)

def pushDigit (n : Nat) (c : Char) : Option Nat := checked (10 * n + Decimal.digitValue c)

def finish (d : Duration) (span : Span) (letters : List Char) : Option Duration := do
  let u ← TimeUnit.ofName? (String.ofList letters.reverse)
  addSpan d span u

def spans (d : Duration) : Position → List Char → Option Duration
  | .start, [] => some d
  | .number _, [] | .fraction .., [] => none
  | .unit span letters, [] => finish d span letters
  | .start, c :: cs =>
    if Decimal.isDigit c then spans d (.number (Decimal.digitValue c)) cs
    else if Text.isBlank c then spans d .start cs
    else none
  | .number n, c :: cs =>
    if Decimal.isDigit c then (pushDigit n c).bind fun n => spans d (.number n) cs
    else if Text.isBlank c then spans d (.number n) cs
    else if c = '.' then spans d (.fraction n 0 1) cs
    else if isUnitLetter c then spans d (.unit { whole := n } [c]) cs
    else none
  | .fraction n num den, c :: cs =>
    if Decimal.isDigit c then do
      let den ← checked (10 * den)
      let num ← pushDigit num c
      spans d (.fraction n num den) cs
    else if Text.isBlank c then spans d (.fraction n num den) cs
    else if isUnitLetter c && den != 1 then
      spans d (.unit { whole := n, fraction := some (num, den) } [c]) cs
    else none
  | .unit span letters, c :: cs =>
    if Decimal.isDigit c then do
      let d ← finish d span letters
      spans d (.number (Decimal.digitValue c)) cs
    else if Text.isBlank c then do
      let d ← finish d span letters
      spans d .start cs
    else if isUnitLetter c then spans d (.unit span (c :: letters)) cs
    else none

end Duration.Text

/-- reads a duration: a lone `0`, or one span at least -/
def Duration.parse? (s : String) : Option Duration :=
  if s = "0" then some .zero
  else if s.toList.all Text.isBlank then none
  else Duration.Text.spans .zero .start s.toList

namespace Duration.Text

def part (n : Nat) (u : String) : List String := if n = 0 then [] else [toString n ++ u]

def pluralPart (n : Nat) (u : String) : List String := part n (if n > 1 then u ++ "s" else u)

end Duration.Text

open Duration.Text in
/-- the duration in the largest units that divide it up -/
def Duration.text (d : Duration) : String :=
  if d.isZero then "0s"
  else
    let s := d.seconds
    let n := d.subsecond
    let yearRest := s % 31557600
    let monthRest := yearRest % 2630016
    let dayRest := monthRest % 86400
    " ".intercalate (pluralPart (s / 31557600) "year" ++ pluralPart (yearRest / 2630016) "month" ++
      pluralPart (monthRest / 86400) "day" ++ part (dayRest / 3600) "h" ++
      part (dayRest % 3600 / 60) "m" ++ part (dayRest % 60) "s" ++ part (n / 1000000) "ms" ++
      part (n / 1000 % 1000) "us" ++ part (n % 1000) "ns")

end NgapProcedures
