import NgapProcedures.Json.Value

/-! Records in JSON: their fields stand by name in an object, or by position in an array. -/

namespace NgapProcedures.Json

variable {α : Type}

def string? : Json → Option String
  | .string s => some s
  | _ => none

/-- a whole number below a bound, written without sign, fraction and exponent -/
def natural? (bound : Nat) : Json → Option Nat
  | .number n => if !n.negative && n.integral && n.digits < bound then some n.digits else none
  | _ => none

def uint8? (j : Json) : Option UInt8 := (j.natural? UInt8.size).map .ofNat

def uint32? (j : Json) : Option UInt32 := (j.natural? UInt32.size).map .ofNat

def uint64? (j : Json) : Option UInt64 := (j.natural? UInt64.size).map .ofNat

def list? (item : Json → Option α) : Json → Option (List α)
  | .array items => items.mapM item
  | _ => none

def option? (value : Json → Option α) : Json → Option (Option α)
  | .null => some none
  | j => (value j).map some

abbrev Fields := List (String × Json)

def namedFields? (names : List String) (members : Fields) : Option Fields :=
  let known := members.filter fun m => names.contains m.1
  if (known.map (·.1)).Nodup then some known else none

/-- the fields of a record; by position they are all there -/
def record? (names : List String) : Json → Option Fields
  | .object members => namedFields? names members
  | .array items => if items.length = names.length then some (names.zip items) else none
  | _ => none

/-- the fields of a record whose fields have defaults; by position the last ones may be missing -/
def settings? (names : List String) : Json → Option Fields
  | .object members => namedFields? names members
  | .array items => if items.length ≤ names.length then some (names.zip items) else none
  | _ => none

namespace Fields

def get? (fields : Fields) (name : String) : Option Json := fields.lookup name

def field? (fields : Fields) (name : String) (value : Json → Option α) : Option α :=
  (fields.get? name).bind value

def fieldOr? (fields : Fields) (name : String) (missing : α) (value : Json → Option α) : Option α :=
  match fields.get? name with
  | some j => value j
  | none => some missing

end Fields

def tagged? (tag : String) : Json → Option (String × Json)
  | .object members =>
    match members.filter fun m => m.1 == tag with
    | [(_, .string word)] => some (word, .object (members.filter fun m => m.1 != tag))
    | _ => none
  | .array (.string word :: items) => some (word, .array items)
  | _ => none

/-- Where a value stands. A tagged value is kept as a whole before it is looked at, and what is kept
has more forms than what is read from a text in passing. -/
inductive Context where
  | plain
  | tagged

def Context.accepts : Context → Json → Bool
  | _, .null => true
  | .tagged, .object [] => true
  | _, _ => false

def word? (context : Context) : Json → Option String
  | .string s => some s
  | .object [(s, j)] => if context.accepts j then some s else none
  | _ => none

/-- One of the cases of an enumeration as the first item of an array, by its word alone, or in a tagged
value by its place among the cases. -/
def case? (context : Context) (cases : List α) (word : α → String) (j : Json) : Option α :=
  match j, context with
  | .string s, _ => cases.find? fun a => word a == s
  | j, .tagged => (j.natural? cases.length).bind (cases[·]?)
  | _, .plain => none

end NgapProcedures.Json
