/-! Natural numbers in decimal digits. -/

namespace NgapProcedures.Decimal

def isDigit (c : Char) : Bool := '0' ≤ c && c ≤ '9'

def digitValue (c : Char) : Nat := c.toNat - '0'.toNat

def digits (n : Nat) : List Char := Nat.toDigits 10 n

def value (ds : List Char) : Nat := ds.foldl (fun n d => 10 * n + digitValue d) 0

/-- the digits that a text starts with, and the rest of the text -/
def takeDigits (cs : List Char) : List Char × List Char := (cs.takeWhile isDigit, cs.dropWhile isDigit)

/-- Appends digits to a number as long as it stays below a bound. The digits from the first one that
would pass the bound are left over. -/
def append (bound : Nat) : Nat → List Char → Nat × List Char
  | n, [] => (n, [])
  | n, d :: ds =>
    if 10 * n + digitValue d < bound then append bound (10 * n + digitValue d) ds else (n, d :: ds)

theorem le_foldl_digits (ds : List Char) (n : Nat) :
    n ≤ ds.foldl (fun n d => 10 * n + digitValue d) n := by
  induction ds generalizing n with
  | nil => exact Nat.le_refl n
  | cons d ds ih => exact Nat.le_trans (by omega) (ih (10 * n + digitValue d))

theorem append_of_lt {bound n : Nat} {ds : List Char}
    (h : ds.foldl (fun n d => 10 * n + digitValue d) n < bound) :
    append bound n ds = (ds.foldl (fun n d => 10 * n + digitValue d) n, []) := by
  induction ds generalizing n with
  | nil => rfl
  | cons d ds ih =>
    rw [append, if_pos (Nat.lt_of_le_of_lt (le_foldl_digits ds _) h)]
    exact ih h

end NgapProcedures.Decimal
