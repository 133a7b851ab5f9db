/-! Configuration documents in TOML: the values they hold, and how keys and table headers build up
the tables. -/

namespace NgapProcedures.Toml

/-- Of a number with a fraction and of a date nothing is asked but that it is one. -/
inductive Scalar where
  | string (s : String)
  | integer (n : Int)
  | float
  | boolean (b : Bool)
  | date
  /-- A number in form alone: it is out of range, or has no digits, or some that do not belong to it.
  It may stand in a document, as long as nobody reads it. -/
  | noNumber
  deriving DecidableEq

/-- how a table came about, which decides who may add to it -/
inductive Origin where
  /-- by a header of its own, or as the document itself -/
  | header
  /-- as a table above one that has a header -/
  | implied
  /-- as a table above a dotted key -/
  | dotted
  /-- in braces; nothing is added to it later -/
  | inline
  deriving DecidableEq

inductive Node where
  | scalar (s : Scalar)
  /-- in brackets; nothing is added to it later -/
  | array (items : List Node)
  /-- by headers in double brackets, each of which adds a table -/
  | tables (items : List (List (String × Node)))
  | table (origin : Origin) (entries : List (String × Node))
  deriving Inhabited

mutual

def Node.isReadable : Node → Bool
  | .scalar s => s != .noNumber
  | .array items => itemsReadable items
  | .tables items => tablesReadable items
  | .table _ entries => entriesReadable entries

def itemsReadable : List Node → Bool
  | [] => true
  | x :: rest => x.isReadable && itemsReadable rest

def entriesReadable : List (String × Node) → Bool
  | [] => true
  | (_, x) :: rest => x.isReadable && entriesReadable rest

def tablesReadable : List (List (String × Node)) → Bool
  | [] => true
  | entries :: rest => entriesReadable entries && tablesReadable rest

end

abbrev Entries := List (String × Node)

namespace Entries

def get? (entries : Entries) (key : String) : Option Node := List.lookup key entries

def set (key : String) (node : Node) : Entries → Entries
  | [] => [(key, node)]
  | (k, old) :: rest => if k = key then (k, node) :: rest else (k, old) :: set key node rest

def onLast (change : Entries → Option Entries) (items : List Entries) : Option (List Entries) :=
  match items.getLast? with
  | some last => (change last).map fun entries => items.dropLast ++ [entries]
  | none => none

/-- changes the table at a path of headers; tables on the way that are missing are implied -/
def within (change : Entries → Option Entries) : List String → Entries → Option Entries
  | [], entries => change entries
  | key :: path, entries =>
    match entries.get? key with
    | none => (within change path []).map fun t => entries.set key (.table .implied t)
    | some (.table origin t) =>
      if origin = .inline then none
      else (within change path t).map fun t => entries.set key (.table origin t)
    | some (.tables items) =>
      (onLast (within change path) items).map fun items => entries.set key (.tables items)
    | some _ => none

def define (key : String) (entries : Entries) : Option Entries :=
  match entries.get? key with
  | none => some (entries.set key (.table .header []))
  | some (.table .implied t) => some (entries.set key (.table .header t))
  | some _ => none

def push (key : String) (entries : Entries) : Option Entries :=
  match entries.get? key with
  | none => some (entries.set key (.tables [[]]))
  | some (.tables items) => some (entries.set key (.tables (items ++ [[]])))
  | some _ => none

/-- Gives a dotted key its value. The tables on the way may be new, dotted or implied; the one that
the value goes into has to be dotted, unless the key has one part. -/
def assign (value : Node) : List String → Entries → Option Entries
  | [], _ => none
  | [key], entries =>
    match entries.get? key with
    | none => some (entries.set key value)
    | some _ => none
  | key :: path, entries =>
    match entries.get? key with
    | none => (assign value path []).map fun t => entries.set key (.table .dotted t)
    | some (.table .dotted t) =>
      (assign value path t).map fun t => entries.set key (.table .dotted t)
    | some (.table .implied t) =>
      if path.length = 1 then none
      else (assign value path t).map fun t => entries.set key (.table .implied t)
    | some (.tables items) =>
      if path.length = 1 then none
      else (onLast (assign value path) items).map fun items => entries.set key (.tables items)
    | some _ => none

end Entries

end NgapProcedures.Toml
