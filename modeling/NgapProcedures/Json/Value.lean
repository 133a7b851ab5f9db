import NgapProcedures.Text.Numeral

/-! JSON values and their text without spaces. -/

namespace NgapProcedures

inductive Json where
  | null
  | bool (b : Bool)
  | number (n : Numeral)
  | string (s : String)
  | array (items : List Json)
  | object (members : List (String × Json))
  deriving Inhabited

namespace Json

def natural (n : Nat) : Json := .number { digits := n }

def ofStrings (l : List String) : Json := .array (l.map .string)

def ofOption {α : Type} (f : α → Json) : Option α → Json
  | none => .null
  | some a => f a

def hexDigit (n : Nat) : Char :=
  if n < 10 then Char.ofNat ('0'.toNat + n) else Char.ofNat ('a'.toNat + (n - 10))

/-- how a character stands in a string: quotes, backslashes and control characters are escaped -/
def escape (c : Char) : List Char :=
  if c = '"' then ['\\', '"']
  else if c = '\\' then ['\\', '\\']
  else if c = '\n' then ['\\', 'n']
  else if c = '\r' then ['\\', 'r']
  else if c = '\t' then ['\\', 't']
  else if c = '\x08' then ['\\', 'b']
  else if c = '\x0c' then ['\\', 'f']
  else if c.toNat < 0x20 then
    ['\\', 'u', '0', '0', hexDigit (c.toNat / 16), hexDigit (c.toNat % 16)]
  else [c]

def renderString (s : String) : List Char := '"' :: s.toList.flatMap escape ++ ['"']

def renderInt (n : Int) : List Char :=
  if n < 0 then '-' :: Decimal.digits n.natAbs else Decimal.digits n.natAbs

def renderNumeral (n : Numeral) : List Char :=
  (if n.negative then ['-'] else []) ++ Decimal.digits n.digits ++
    (if n.integral then [] else 'e' :: renderInt n.exponent)

mutual

def render : Json → List Char
  | .null => ['n', 'u', 'l', 'l']
  | .bool true => ['t', 'r', 'u', 'e']
  | .bool false => ['f', 'a', 'l', 's', 'e']
  | .number n => renderNumeral n
  | .string s => renderString s
  | .array [] => ['[', ']']
  | .array (x :: xs) => '[' :: render x ++ renderItems xs
  | .object [] => ['\x7b', '\x7d']
  | .object ((k, v) :: ms) => '\x7b' :: renderString k ++ ':' :: render v ++ renderMembers ms

def renderItems : List Json → List Char
  | [] => [']']
  | x :: xs => ',' :: render x ++ renderItems xs

def renderMembers : List (String × Json) → List Char
  | [] => ['\x7d']
  | (k, v) :: ms => ',' :: renderString k ++ ':' :: render v ++ renderMembers ms

end

def text (j : Json) : String := String.ofList j.render

end Json

end NgapProcedures
