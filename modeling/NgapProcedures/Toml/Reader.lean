import NgapProcedures.Toml.Scalar

/-! Reading a document: a line holds a key and its value, a table header, or nothing; a value in
brackets or braces may run over several lines. -/

namespace NgapProcedures.Toml

def isSpace (c : Char) : Bool := c == ' ' || c == '\t'

def skipSpaces (cs : List Char) : List Char := cs.dropWhile isSpace

def isControl (c : Char) : Bool := (c.toNat < 0x20 && c != '\t') || c.toNat == 0x7F

def skipComment : List Char → Option (List Char)
  | [] => some []
  | '\n' :: rest => some ('\n' :: rest)
  | '\r' :: '\n' :: rest => some ('\n' :: rest)
  | c :: rest => if isControl c then none else skipComment rest

def skipTrivia : Bool → List Char → Option (List Char)
  | _, [] => some []
  | _, '\n' :: rest => skipTrivia false rest
  | _, '\r' :: '\n' :: rest => skipTrivia false rest
  | true, c :: rest => if isControl c then none else skipTrivia true rest
  | false, '#' :: rest => skipTrivia true rest
  | false, c :: rest => if isSpace c then skipTrivia false rest else some (c :: rest)

def endLine (cs : List Char) : Option (List Char) :=
  let afterEnd : List Char → Option (List Char)
    | [] => some []
    | '\n' :: rest => some rest
    | '\r' :: '\n' :: rest => some rest
    | _ => none
  match skipSpaces cs with
  | '#' :: rest => (skipComment rest).bind afterEnd
  | cs => afterEnd cs

def hexDigits? (cs : List Char) : Option Nat :=
  if cs.all (Scalar.digitIn 16) then
    some (cs.foldl (fun n d => 16 * n + Scalar.digitValueIn d) 0)
  else none

def codeEscape (width : Nat) (cs : List Char) : Option (Char × List Char) := do
  let code ← if (cs.take width).length = width then hexDigits? (cs.take width) else none
  if code < 0xD800 ∨ (0xDFFF < code ∧ code < 0x110000) then
    some (Char.ofNat code, cs.drop width)
  else none

def escape : List Char → Option (Char × List Char)
  | 'b' :: rest => some ('\x08', rest)
  | 't' :: rest => some ('\t', rest)
  | 'n' :: rest => some ('\n', rest)
  | 'f' :: rest => some ('\x0c', rest)
  | 'r' :: rest => some ('\r', rest)
  | 'e' :: rest => some ('\x1b', rest)
  | '"' :: rest => some ('"', rest)
  | '\\' :: rest => some ('\\', rest)
  | 'x' :: rest => codeEscape 2 rest
  | 'u' :: rest => codeEscape 4 rest
  | 'U' :: rest => codeEscape 8 rest
  | _ => none

/-- after a backslash at the end of a line: what follows the blanks and line ends, if there is a line
end among them -/
def joinLines : Bool → List Char → Option (List Char)
  | _, '\n' :: rest => joinLines true rest
  | _, '\r' :: '\n' :: rest => joinLines true rest
  | met, c :: rest =>
    if isSpace c then joinLines met rest else if met then some (c :: rest) else none
  | met, [] => if met then some [] else none

/-- the content of a string up to its closing quote, and what follows. The first argument bounds the
steps. -/
def basicString : Nat → List Char → Option (List Char × List Char)
  | 0, _ | _, [] => none
  | _, '"' :: rest => some ([], rest)
  | n + 1, '\\' :: rest => do
    let (c, rest) ← escape rest
    let (cs, rest) ← basicString n rest
    return (c :: cs, rest)
  | n + 1, c :: rest =>
    if isControl c then none
    else do
      let (cs, rest) ← basicString n rest
      return (c :: cs, rest)

def literalString : List Char → Option (List Char × List Char)
  | [] => none
  | '\'' :: rest => some ([], rest)
  | c :: rest =>
    if isControl c then none
    else do
      let (cs, rest) ← literalString rest
      return (c :: cs, rest)

/-- Three quotes close a long string; one or two more before them belong to it. -/
def closeLong (quote : Char) (cs : List Char) : Option (List Char × List Char) :=
  let run := cs.takeWhile (· == quote)
  if run.length < 3 then none
  else if run.length ≤ 5 then some (run.drop 3, cs.drop run.length)
  else some ([quote, quote], cs.drop 5)

def longBasicString : Nat → List Char → Option (List Char × List Char)
  | 0, _ | _, [] => none
  | n + 1, c :: rest =>
    match closeLong '"' (c :: rest) with
    | some closed => some closed
    | none =>
      if c = '\\' then
        match joinLines false rest with
        | some rest => longBasicString n rest
        | none => do
          let (c, rest) ← escape rest
          let (cs, rest) ← longBasicString n rest
          return (c :: cs, rest)
      else if c = '\r' ∧ rest.head? ≠ some '\n' then none
      else if isControl c ∧ c ≠ '\n' ∧ c ≠ '\r' then none
      else do
        let (cs, rest) ← longBasicString n rest
        return (c :: cs, rest)

def longLiteralString : Nat → List Char → Option (List Char × List Char)
  | 0, _ | _, [] => none
  | n + 1, c :: rest =>
    match closeLong '\'' (c :: rest) with
    | some closed => some closed
    | none =>
      if c = '\r' ∧ rest.head? ≠ some '\n' then none
      else if isControl c ∧ c ≠ '\n' ∧ c ≠ '\r' then none
      else do
        let (cs, rest) ← longLiteralString n rest
        return (c :: cs, rest)

def dropLineEnd : List Char → List Char
  | '\n' :: rest => rest
  | '\r' :: '\n' :: rest => rest
  | cs => cs

def string? : List Char → Option (String × List Char)
  | '"' :: '"' :: '"' :: rest =>
    (longBasicString (rest.length + 1) (dropLineEnd rest)).map fun (cs, rest) =>
      (String.ofList cs, rest)
  | '\'' :: '\'' :: '\'' :: rest =>
    (longLiteralString (rest.length + 1) (dropLineEnd rest)).map fun (cs, rest) =>
      (String.ofList cs, rest)
  | '"' :: rest =>
    (basicString (rest.length + 1) rest).map fun (cs, rest) => (String.ofList cs, rest)
  | '\'' :: rest => (literalString rest).map fun (cs, rest) => (String.ofList cs, rest)
  | _ => none

def isBare (c : Char) : Bool :=
  ('a' ≤ c && c ≤ 'z') || ('A' ≤ c && c ≤ 'Z') || Decimal.isDigit c || c == '-' || c == '_'

def keyPart : List Char → Option (String × List Char)
  | '"' :: '"' :: '"' :: _ => none
  | '\'' :: '\'' :: '\'' :: _ => none
  | '"' :: rest => string? ('"' :: rest)
  | '\'' :: rest => string? ('\'' :: rest)
  | cs =>
    match cs.takeWhile isBare with
    | [] => none
    | word => some (String.ofList word, cs.dropWhile isBare)

def keyLimit : Nat := 80

/-- The parts of a key, joined by dots, and what follows them and the blanks after them. The first
argument bounds the number of parts. -/
def key : Nat → List Char → Option (List String × List Char)
  | 0, _ => none
  | n + 1, cs => do
    let (part, rest) ← keyPart (skipSpaces cs)
    match skipSpaces rest with
    | '.' :: rest =>
      let (parts, rest) ← key n rest
      return (part :: parts, rest)
    | rest => return ([part], rest)

/-- a part of a word goes on up to a blank, a line end, a comment or a mark of the grammar -/
def isWordChar (c : Char) : Bool :=
  !(isSpace c || c == '\n' || c == '\r' || c == '#' || c == ',' || c == '=' || c == '[' || c == ']' ||
    c == '\x7b' || c == '\x7d')

def isQuote (c : Char) : Bool := c == '"' || c == '\''

/-- A word without quotes, and what follows it. Blanks belong to the word if a further part of it comes
after them; a quote at the start of a part would open a string. The first argument holds the blanks that
were met last, in reverse. -/
def takeWord : List Char → List Char → List Char × List Char
  | blanks, [] => ([], blanks.reverse)
  | blanks, c :: rest =>
    if isSpace c then takeWord (c :: blanks) rest
    else if isWordChar c && (blanks.isEmpty || !isQuote c) then
      let (w, rest) := takeWord [] rest
      (blanks.reverse ++ c :: w, rest)
    else ([], blanks.reverse ++ c :: rest)

def word (cs : List Char) : Option (Scalar × List Char) :=
  let (w, rest) := takeWord [] cs
  (Scalar.ofWord? w).map fun s => (s, rest)

def depthLimit : Nat := 80

mutual

/-- a value at a depth that may still grow by `depth`, and what follows it. The first argument bounds
the steps. -/
def value : Nat → Nat → List Char → Option (Node × List Char)
  | 0, _, _ => none
  | n + 1, depth, cs =>
    match cs with
    | '[' :: rest =>
      if depth = 0 then none
      else (items n (depth - 1) rest).map fun (xs, rest) => (.array xs, rest)
    | '\x7b' :: rest =>
      if depth = 0 then none
      else (members n (depth - 1) [] rest).map fun (t, rest) => (.table .inline t, rest)
    | '"' :: _ | '\'' :: _ => (string? cs).map fun (s, rest) => (.scalar (.string s), rest)
    | _ => (word cs).map fun (s, rest) => (.scalar s, rest)

def items : Nat → Nat → List Char → Option (List Node × List Char)
  | 0, _, _ => none
  | n + 1, depth, cs => do
    match ← skipTrivia false cs with
    | ']' :: rest => return ([], rest)
    | cs =>
      let (x, rest) ← value n depth cs
      match ← skipTrivia false rest with
      | ',' :: rest =>
        let (xs, rest) ← items n depth rest
        return (x :: xs, rest)
      | ']' :: rest => return ([x], rest)
      | _ => none

def members : Nat → Nat → Entries → List Char → Option (Entries × List Char)
  | 0, _, _, _ => none
  | n + 1, depth, entries, cs => do
    match ← skipTrivia false cs with
    | '\x7d' :: rest => return (entries, rest)
    | cs =>
      let (path, rest) ← key keyLimit cs
      match ← skipTrivia false rest with
      | '=' :: rest =>
        let (x, rest) ← value n depth (← skipTrivia false rest)
        let entries ← entries.assign x path
        match ← skipTrivia false rest with
        | ',' :: rest => members n depth entries rest
        | '\x7d' :: rest => return (entries, rest)
        | _ => none
      | _ => none

end

structure Draft where
  root : Entries := []
  header : List String := []

def tableHeader (draft : Draft) (cs : List Char) : Option (Draft × List Char) := do
  let (path, rest) ← key keyLimit cs
  match rest with
  | ']' :: rest =>
    let root ← Entries.within (Entries.define (path.getLast?.getD "")) path.dropLast draft.root
    return (⟨root, path⟩, ← endLine rest)
  | _ => none

def listHeader (draft : Draft) (cs : List Char) : Option (Draft × List Char) := do
  let (path, rest) ← key keyLimit cs
  match rest with
  | ']' :: ']' :: rest =>
    let root ← Entries.within (Entries.push (path.getLast?.getD "")) path.dropLast draft.root
    return (⟨root, path⟩, ← endLine rest)
  | _ => none

def keyLine (draft : Draft) (cs : List Char) : Option (Draft × List Char) := do
  let (path, rest) ← key keyLimit cs
  match rest with
  | '=' :: rest =>
    let (x, rest) ← value (2 * rest.length + 2) depthLimit (skipSpaces rest)
    let root ← Entries.within (Entries.assign x path) draft.header draft.root
    return (⟨root, draft.header⟩, ← endLine rest)
  | _ => none

def lines : Nat → Draft → List Char → Option Entries
  | 0, _, _ => none
  | n + 1, draft, cs => do
    match ← skipTrivia false cs with
    | [] => return draft.root
    | '[' :: '[' :: rest =>
      let (draft, rest) ← listHeader draft rest
      lines n draft rest
    | '[' :: rest =>
      let (draft, rest) ← tableHeader draft rest
      lines n draft rest
    | cs =>
      let (draft, rest) ← keyLine draft cs
      lines n draft rest

/-- the table that a document is; a mark of the byte order at its start does not count -/
def parse? (s : String) : Option Node :=
  let cs := match s.toList with
    | '\uFEFF' :: cs => cs
    | cs => cs
  (lines (cs.length + 1) {} cs).map (.table .header)

end NgapProcedures.Toml
