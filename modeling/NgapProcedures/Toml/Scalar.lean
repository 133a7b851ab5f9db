import NgapProcedures.Text.Numeral
import NgapProcedures.Toml.Value

/-! Numbers, booleans and dates: the values that are written without quotes. -/

namespace NgapProcedures.Toml.Scalar

def digitIn (base : Nat) (c : Char) : Bool :=
  if Decimal.isDigit c then Decimal.digitValue c < base
  else base == 16 && (('a' ≤ c && c ≤ 'f') || ('A' ≤ c && c ≤ 'F'))

def digitValueIn (c : Char) : Nat :=
  if Decimal.isDigit c then Decimal.digitValue c
  else if 'a' ≤ c then c.toNat - 'a'.toNat + 10
  else c.toNat - 'A'.toNat + 10

/-- Underscores group the digits of a number: each stands between two of them. The flag says that the
character before was a digit. -/
def isGrouped (isDigit : Char → Bool) : Bool → List Char → Bool
  | _, [] => true
  | _, ['_'] => false
  | before, '_' :: c :: rest => before && isDigit c && isGrouped isDigit true rest
  | _, c :: rest => isGrouped isDigit (isDigit c) rest

def ungroup (cs : List Char) : List Char := cs.filter (· != '_')

def takeDigits (cs : List Char) : Option (List Char × List Char) :=
  let isPart (c : Char) : Bool := Decimal.isDigit c || c == '_'
  match ungroup (cs.takeWhile isPart) with
  | [] => none
  | ds => some (ds, cs.dropWhile isPart)

/-- whole numbers fit in 128 bits, with a sign if they are negative -/
def ofInt (n : Int) : Scalar :=
  if -Int.pow 2 127 ≤ n ∧ n < Int.pow 2 128 then .integer n else .noNumber

def radixInteger? (base : Nat) (cs : List Char) : Option Scalar :=
  if cs.all (fun c => digitIn base c || c == '_') && isGrouped (digitIn base) false cs then
    match ungroup cs with
    | [] => some .noNumber
    | ds => some (ofInt (ds.foldl (fun n d => base * n + digitValueIn d) 0 : Nat))
  else none

/-- A whole number in decimal; a leading zero stands alone. The characters around an underscore may be
digits of any base, and those further on any at all; then it is no number. -/
def integer? (negative : Bool) (cs : List Char) : Option Scalar :=
  if (cs.head? != some '0' || cs.length == 1) && isGrouped (digitIn 16) false cs then
    let ds := ungroup cs
    if ds.all Decimal.isDigit then
      some (ofInt (if negative then -(Decimal.value ds : Int) else Decimal.value ds))
    else some .noNumber
  else none

def isExponentMark (c : Char) : Bool := c == 'e' || c == 'E'

def fraction? : List Char → Option (List Char × List Char)
  | '.' :: cs => takeDigits cs
  | cs => some ([], cs)

def exponentDigits? (negative : Bool) (cs : List Char) : Option (Int × List Char) :=
  (takeDigits cs).map fun (ds, rest) =>
    (if negative then -(Decimal.value ds : Int) else Decimal.value ds, rest)

def exponent? : List Char → Option (Int × List Char)
  | c :: cs =>
    if isExponentMark c then
      match cs with
      | '-' :: cs => exponentDigits? true cs
      | '+' :: cs => exponentDigits? false cs
      | cs => exponentDigits? false cs
    else some (0, c :: cs)
  | [] => some (0, [])

/-- a number without its sign; a zero leads only before the point -/
def float? (cs : List Char) : Option Scalar := do
  if !isGrouped Decimal.isDigit false cs then none
  let (whole, rest) ← takeDigits cs
  if cs.head? = some '0' ∧ 2 ≤ whole.length then none
  let (fraction, rest) ← fraction? rest
  let (exponent, rest) ← exponent? rest
  if !rest.isEmpty then none
  let n : Numeral := {
    digits := Decimal.value (whole ++ fraction)
    exponent := exponent - fraction.length
    integral := false }
  return if n.isFinite then .float else .noNumber

def count? (width : Nat) (cs : List Char) : Option Nat :=
  if cs.length = width ∧ cs.all Decimal.isDigit then some (Decimal.value cs) else none

def isLeapYear (y : Nat) : Bool := y % 4 == 0 && (y % 100 != 0 || y % 400 == 0)

def daysIn (year month : Nat) : Nat :=
  if month == 2 then (if isLeapYear year then 29 else 28)
  else if month == 4 || month == 6 || month == 9 || month == 11 then 30
  else 31

def isDay (cs : List Char) : Bool :=
  match count? 4 (cs.take 4), cs.drop 4 with
  | some year, '-' :: rest =>
    match count? 2 (rest.take 2), rest.drop 2 with
    | some month, '-' :: day =>
      match count? 2 day with
      | some day => 1 ≤ month && month ≤ 12 && 1 ≤ day && day ≤ daysIn year month
      | none => false
    | _, _ => false
  | _, _ => false

def isHourMinute (cs : List Char) : Bool :=
  match count? 2 (cs.take 2), cs.drop 2 with
  | some hour, ':' :: minute =>
    match count? 2 minute with
    | some minute => hour ≤ 23 && minute ≤ 59
    | none => false
  | _, _ => false

def isTime (cs : List Char) : Bool :=
  isHourMinute (cs.take 5) &&
    match cs.drop 5 with
    | [] => true
    | ':' :: rest =>
      (match count? 2 (rest.take 2) with
        | some second => second ≤ 60
        | none => false) &&
        match rest.drop 2 with
        | [] => true
        | '.' :: fraction => !fraction.isEmpty && fraction.all Decimal.isDigit
        | _ => false
    | _ => false

def isTimeWithOffset (cs : List Char) : Bool :=
  let isMark := fun c => c == 'Z' || c == 'z' || c == '+' || c == '-'
  isTime (cs.takeWhile fun c => !isMark c) &&
    match cs.dropWhile fun c => !isMark c with
    | [] | ['Z'] | ['z'] => true
    | mark :: rest => (mark == '+' || mark == '-') && isHourMinute rest

def isDate (cs : List Char) : Bool :=
  match cs.drop 4 with
  | '-' :: _ =>
    isDay (cs.take 10) &&
      match cs.drop 10 with
      | [] => true
      | c :: rest => (c == 'T' || c == 't' || c == ' ') && isTimeWithOffset rest
  | _ => isTime cs

/-- A number, or a date if it has no sign; what follows the leading digits tells which. Only a date has a
space in it. -/
def numberOrDate? (signed negative : Bool) (cs : List Char) : Option Scalar :=
  match cs.dropWhile Decimal.isDigit with
  | [] => if cs.isEmpty then none else integer? negative cs
  | '-' :: _ | ':' :: _ => if !signed && isDate cs then some .date else none
  | c :: rest =>
    if (c :: rest).any fun c => c == '.' || isExponentMark c then float? cs
    else if c = '_' ∧ ' ' ∉ rest then integer? negative cs
    else none

/-- what follows a sign: a number, or one of the words for what is no number -/
def signed? (negative : Bool) (cs : List Char) : Option Scalar :=
  if cs = ['i', 'n', 'f'] ∨ cs = ['n', 'a', 'n'] then some .float else numberOrDate? true negative cs

def ofWord? (cs : List Char) : Option Scalar :=
  match cs with
  | ['t', 'r', 'u', 'e'] => some (.boolean true)
  | ['f', 'a', 'l', 's', 'e'] => some (.boolean false)
  | ['i', 'n', 'f'] | ['n', 'a', 'n'] => some .float
  | '+' :: rest => signed? false rest
  | '-' :: rest => signed? true rest
  | '0' :: 'x' :: rest => radixInteger? 16 rest
  | '0' :: 'o' :: rest => radixInteger? 8 rest
  | '0' :: 'b' :: rest => radixInteger? 2 rest
  | cs => numberOrDate? false false cs

end NgapProcedures.Toml.Scalar
