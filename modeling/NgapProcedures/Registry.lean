import NgapProcedures.Ident
import NgapProcedures.Table

/-! Which procedure instances are outstanding against each entity. An entity is listed while it has
at least one. -/

namespace NgapProcedures

inductive RegistryError where
  | duplicateProcedure (entity : EntityId) (id : ProcedureId)
  deriving DecidableEq

def RegistryError.message : RegistryError → String
  | duplicateProcedure entity id =>
    "procedure " ++ id.text ++ " is already registered under " ++ entity.text

structure Registry where
  entries : Table EntityId (KeySet ProcedureId) := ∅
  deriving DecidableEq, Inhabited

namespace Registry

def find? (r : Registry) (entity : EntityId) : Option (KeySet ProcedureId) := r.entries.get? entity

def contains (r : Registry) (entity : EntityId) : Bool := r.entries.contains entity

def ids (r : Registry) (entity : EntityId) : List ProcedureId :=
  ((r.find? entity).map (·.keys)).getD []

def register (r : Registry) (entity : EntityId) (id : ProcedureId) :
    Except RegistryError Registry :=
  let known := (r.find? entity).getD ∅
  if known.contains id then .error (.duplicateProcedure entity id)
  else .ok ⟨r.entries.insert entity (known.insert id ())⟩

/-- whether the instance was there, and the registry without it -/
def deregister (r : Registry) (entity : EntityId) (id : ProcedureId) : Bool × Registry :=
  match r.find? entity with
  | none => (false, r)
  | some known =>
    let left := known.erase id
    (known.contains id,
      ⟨if left.isEmpty then r.entries.erase entity else r.entries.insert entity left⟩)

/-- the entity's instances, if it had any, and the registry without the entity -/
def remove (r : Registry) (entity : EntityId) : Option (KeySet ProcedureId) × Registry :=
  (r.find? entity, ⟨r.entries.erase entity⟩)

def entities (r : Registry) : List EntityId := r.entries.keys

def size (r : Registry) : Nat := r.entries.size

def isEmpty (r : Registry) : Bool := r.entries.isEmpty

def transactionCount (r : Registry) : Nat := r.entries.values.foldr (fun ids n => ids.size + n) 0

end Registry

end NgapProcedures
