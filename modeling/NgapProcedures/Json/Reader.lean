import NgapProcedures.Json.Number
import NgapProcedures.Json.Value

/-! Reading JSON text. What is read first is the text's structure alone; whether a part of it can be
kept as a value is asked of the parts that are wanted. So a part that is skipped may nest to any
depth, and may hold numbers beyond all bounds and halves of surrogate pairs. -/

namespace NgapProcedures

/-- the structure of a text; a string that names half a surrogate pair has no content -/
inductive JsonText where
  | null
  | bool (b : Bool)
  | number (n : JsonNumber)
  | string (s : Option String)
  | array (items : List JsonText)
  | object (members : List (Option String × JsonText))
  deriving Inhabited

namespace JsonText

def isBlank (c : Char) : Bool := c == ' ' || c == '\t' || c == '\n' || c == '\r'

def skipBlanks (cs : List Char) : List Char := cs.dropWhile isBlank

def hexValue? (c : Char) : Option Nat :=
  if '0' ≤ c ∧ c ≤ '9' then some (c.toNat - '0'.toNat)
  else if 'a' ≤ c ∧ c ≤ 'f' then some (c.toNat - 'a'.toNat + 10)
  else if 'A' ≤ c ∧ c ≤ 'F' then some (c.toNat - 'A'.toNat + 10)
  else none

def simpleEscape? : Char → Option Char
  | '"' => some '"'
  | '\\' => some '\\'
  | '/' => some '/'
  | 'b' => some '\x08'
  | 'f' => some '\x0c'
  | 'n' => some '\n'
  | 'r' => some '\r'
  | 't' => some '\t'
  | _ => none

def scanString : List Char → Option (List Nat × List Char)
  | [] => none
  | '"' :: rest => some ([], rest)
  | '\\' :: 'u' :: a :: b :: c :: d :: rest => do
    let a ← hexValue? a
    let b ← hexValue? b
    let c ← hexValue? c
    let d ← hexValue? d
    let (codes, rest) ← scanString rest
    return ((((a * 16 + b) * 16 + c) * 16 + d) :: codes, rest)
  | '\\' :: c :: rest => do
    let c ← simpleEscape? c
    let (codes, rest) ← scanString rest
    return (c.toNat :: codes, rest)
  | c :: rest =>
    if c.toNat < 0x20 ∨ c = '\\' then none
    else do
      let (codes, rest) ← scanString rest
      return (c.toNat :: codes, rest)

def isHighSurrogate (n : Nat) : Bool := 0xD800 ≤ n && n < 0xDC00

def isLowSurrogate (n : Nat) : Bool := 0xDC00 ≤ n && n < 0xE000

/-- the characters that codes stand for, where a high and a low surrogate make one; none if a
surrogate is left over -/
def joinSurrogates : List Nat → Option (List Char)
  | [] => some []
  | n :: rest =>
    if isHighSurrogate n then
      match rest with
      | m :: rest =>
        if isLowSurrogate m then
          (joinSurrogates rest).map
            (Char.ofNat (0x10000 + (n - 0xD800) * 0x400 + (m - 0xDC00)) :: ·)
        else none
      | [] => none
    else if isLowSurrogate n then none
    else (joinSurrogates rest).map (Char.ofNat n :: ·)

def readString (cs : List Char) : Option (Option String × List Char) := do
  let (codes, rest) ← scanString cs
  return ((joinSurrogates codes).map String.ofList, rest)

mutual

/-- a value and what follows it. The first argument bounds the steps; no text takes more of them than
it has characters. -/
def readValue : Nat → List Char → Option (JsonText × List Char)
  | 0, _ => none
  | n + 1, cs =>
    match skipBlanks cs with
    | 'n' :: 'u' :: 'l' :: 'l' :: rest => some (.null, rest)
    | 't' :: 'r' :: 'u' :: 'e' :: rest => some (.bool true, rest)
    | 'f' :: 'a' :: 'l' :: 's' :: 'e' :: rest => some (.bool false, rest)
    | '"' :: rest => (readString rest).map fun (s, rest) => (.string s, rest)
    | '[' :: rest =>
      match skipBlanks rest with
      | ']' :: rest => some (.array [], rest)
      | rest => do
        let (x, rest) ← readValue n rest
        let (xs, rest) ← readItems n rest
        return (.array (x :: xs), rest)
    | '\x7b' :: rest =>
      match skipBlanks rest with
      | '\x7d' :: rest => some (.object [], rest)
      | rest => do
        let (m, rest) ← readMember n rest
        let (ms, rest) ← readMembers n rest
        return (.object (m :: ms), rest)
    | cs => (JsonNumber.read cs).map fun (n, rest) => (.number n, rest)

def readItems : Nat → List Char → Option (List JsonText × List Char)
  | 0, _ => none
  | n + 1, cs =>
    match skipBlanks cs with
    | ']' :: rest => some ([], rest)
    | ',' :: rest => do
      let (x, rest) ← readValue n rest
      let (xs, rest) ← readItems n rest
      return (x :: xs, rest)
    | _ => none

def readMember : Nat → List Char → Option ((Option String × JsonText) × List Char)
  | 0, _ => none
  | n + 1, cs =>
    match skipBlanks cs with
    | '"' :: rest => do
      let (k, rest) ← readString rest
      match skipBlanks rest with
      | ':' :: rest =>
        let (v, rest) ← readValue n rest
        return ((k, v), rest)
      | _ => none
    | _ => none

def readMembers : Nat → List Char → Option (List (Option String × JsonText) × List Char)
  | 0, _ => none
  | n + 1, cs =>
    match skipBlanks cs with
    | '\x7d' :: rest => some ([], rest)
    | ',' :: rest => do
      let (m, rest) ← readMember n rest
      let (ms, rest) ← readMembers n rest
      return (m :: ms, rest)
    | _ => none

end

def read? (s : String) : Option JsonText :=
  let cs := s.toList
  match readValue (3 * cs.length + 3) cs with
  | some (v, rest) => if (skipBlanks rest).isEmpty then some v else none
  | none => none

def depthLimit : Nat := 127

mutual

/-- the value, if it can be kept: no deeper than given, its numbers in range, its strings whole -/
def keep? (depth : Nat) : JsonText → Option Json
  | .null => some .null
  | .bool b => some (.bool b)
  | .number n => if n.isInRange then some (.number n.numeral) else none
  | .string s => s.map .string
  | .array xs => if depth = 0 then none else (keepItems? (depth - 1) xs).map .array
  | .object ms => if depth = 0 then none else (keepMembers? (depth - 1) ms).map .object

def keepItems? (depth : Nat) : List JsonText → Option (List Json)
  | [] => some []
  | x :: xs => do
    let x ← keep? depth x
    let xs ← keepItems? depth xs
    return x :: xs

def keepMembers? (depth : Nat) : List (Option String × JsonText) → Option (List (String × Json))
  | [] => some []
  | (k, v) :: ms => do
    let k ← k
    let v ← keep? depth v
    let ms ← keepMembers? depth ms
    return (k, v) :: ms

end

/-- the value without the members whose names are not wanted; those are not looked at, but their
names have to be whole -/
def pick? (wanted : List String) : JsonText → Option Json
  | .object ms =>
    if ms.all fun m => m.1.isSome then
      keep? depthLimit (.object (ms.filter fun m => (m.1.map wanted.contains).getD false))
    else none
  | t => keep? depthLimit t

end JsonText

def Json.parse? (s : String) : Option Json := (JsonText.read? s).bind (JsonText.keep? JsonText.depthLimit)

end NgapProcedures
