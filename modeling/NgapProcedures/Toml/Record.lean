import NgapProcedures.Toml.Reader

/-! Settings in TOML: each has a default, and stands by name in a table or by position in an array. -/

namespace NgapProcedures.Toml

variable {α : Type}

namespace Node

def string? : Node → Option String
  | .scalar (.string s) => some s
  | _ => none

def boolean? : Node → Option Bool
  | .scalar (.boolean b) => some b
  | _ => none

def natural? (bound : Nat) : Node → Option Nat
  | .scalar (.integer n) => if 0 ≤ n ∧ n.toNat < bound then some n.toNat else none
  | _ => none

def uint8? (x : Node) : Option UInt8 := (x.natural? UInt8.size).map .ofNat

def uint32? (x : Node) : Option UInt32 := (x.natural? UInt32.size).map .ofNat

/-- the word of an enumeration: a string, or the one key of a table that holds nothing more -/
def word? : Node → Option String
  | .scalar (.string s) => some s
  | .table _ [(word, .table _ [])] | .table _ [(word, .array [])] => some word
  | _ => none

/-- The settings in a node. Keys that are no setting do not matter, as long as they can be read; the
surplus items of an array are not even looked at. A date has no settings in it. -/
def settings? (names : List String) : Node → Option Entries
  | .table _ entries =>
    if entries.all fun e => names.contains e.1 || e.2.isReadable then some entries else none
  | .array items => some (names.zip items)
  | .tables items => some (names.zip (items.map (.table .header)))
  | .scalar .date => some []
  | .scalar _ => none

end Node

def Entries.setting? (entries : Entries) (name : String) (missing : α) (read : Node → Option α) :
    Option α :=
  match entries.get? name with
  | some x => read x
  | none => some missing

end NgapProcedures.Toml
