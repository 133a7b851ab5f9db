import NgapProcedures.Text.Decimal

/-! Decimal numbers as written, and which of them a floating-point number of double precision can
stand for. -/

namespace NgapProcedures

/-- a decimal number: its digits, read as one whole number, times a power of ten. It is `integral` if
it is written without fraction and exponent. -/
structure Numeral where
  negative : Bool := false
  digits : Nat
  exponent : Int := 0
  integral : Bool := true
  deriving DecidableEq, Inhabited

namespace Numeral

/-- From here on a number is nearer to `2 ^ 1024` than to any number of double precision. -/
def overflowBound : Nat := Nat.pow 2 1024 - Nat.pow 2 970

def precision : Nat := 53

def divideToNearest (n d : Nat) : Nat :=
  if d < 2 * (n % d) ∨ (2 * (n % d) = d ∧ n / d % 2 = 1) then n / d + 1 else n / d

def nearest (n : Nat) : Nat :=
  let unit := Nat.pow 2 (n.log2 + 1 - precision)
  divideToNearest n unit * unit

/-- whether a number rounds to a finite one. The digits' count settles it unless the number is
within two powers of ten of the bound. -/
def isFinite (n : Numeral) : Bool :=
  let size : Int := (Decimal.digits n.digits).length + n.exponent
  if n.digits = 0 ∨ size ≤ 308 then true
  else if 310 ≤ size then false
  else if 0 ≤ n.exponent then n.digits * Nat.pow 10 n.exponent.toNat < overflowBound
  else n.digits < overflowBound * Nat.pow 10 (-n.exponent).toNat

end Numeral

end NgapProcedures
