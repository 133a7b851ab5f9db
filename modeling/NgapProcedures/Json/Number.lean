import NgapProcedures.Text.Numeral

/-! Numbers in JSON text, as they are written, and which of them are in range. Range is not asked of
the number itself, but of the product of two roundings of it. -/

namespace NgapProcedures

structure JsonNumber where
  negative : Bool
  whole : List Char
  fraction : List Char
  exponent : Option Int
  deriving Inhabited

namespace JsonNumber

def numeral (n : JsonNumber) : Numeral where
  negative := n.negative
  digits := Decimal.value (n.whole ++ n.fraction)
  exponent := n.exponent.getD 0 - n.fraction.length
  integral := n.fraction.isEmpty && n.exponent.isNone

def significandBound : Nat := UInt64.size

/-- A significand below the bound, and a power of ten. Whole digits that are left over make the power
greater. The fraction is tried anew after them; its digits that are left over count for nothing. -/
def scientific (n : JsonNumber) : Nat × Int :=
  let (whole, beyond) := Decimal.append significandBound 0 n.whole
  let (significand, cut) := Decimal.append significandBound whole n.fraction
  (significand, n.exponent.getD 0 + beyond.length - (n.fraction.length - cut.length : Nat))

/-- From here on a power of ten is beyond double precision. -/
def powerBound : Int := 309

/-- The significand and the power of ten are each rounded to double precision, and the product has to
be finite. A power below one makes no number too large. -/
def isInRange (n : JsonNumber) : Bool :=
  let (significand, exponent) := n.scientific
  if significand = 0 ∨ exponent ≤ 0 then true
  else if powerBound ≤ exponent then false
  else Numeral.nearest significand * Numeral.nearest (Nat.pow 10 exponent.toNat) < Numeral.overflowBound

theorem isInRange_of_lt {n : JsonNumber} (hf : n.fraction = []) (he : n.exponent = none)
    (h : Decimal.value n.whole < significandBound) : n.isInRange = true := by
  simp [isInRange, scientific, hf, he, Decimal.append_of_lt (n := 0) h, Decimal.append]

def readFraction : List Char → Option (List Char × List Char)
  | '.' :: cs =>
    match Decimal.takeDigits cs with
    | ([], _) => none
    | (ds, rest) => some (ds, rest)
  | cs => some ([], cs)

def readExponentDigits (negative : Bool) (cs : List Char) : Option (Option Int × List Char) :=
  match Decimal.takeDigits cs with
  | ([], _) => none
  | (ds, rest) =>
    let n : Int := Decimal.value ds
    some (some (if negative then -n else n), rest)

def readExponent : List Char → Option (Option Int × List Char)
  | c :: cs =>
    if c = 'e' ∨ c = 'E' then
      match cs with
      | '-' :: cs => readExponentDigits true cs
      | '+' :: cs => readExponentDigits false cs
      | cs => readExponentDigits false cs
    else some (none, c :: cs)
  | [] => some (none, [])

def readMagnitude (negative : Bool) (cs : List Char) : Option (JsonNumber × List Char) :=
  match Decimal.takeDigits cs with
  | ([], _) => none
  | ('0' :: _ :: _, _) => none
  | (whole, rest) => do
    let (fraction, rest) ← readFraction rest
    let (exponent, rest) ← readExponent rest
    return ({ negative, whole, fraction, exponent }, rest)

def read : List Char → Option (JsonNumber × List Char)
  | '-' :: cs => readMagnitude true cs
  | cs => readMagnitude false cs

end JsonNumber

end NgapProcedures
