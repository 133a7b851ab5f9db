/-! Names of procedures and of the entities they are registered under, and where fresh procedure
names come from. -/

namespace NgapProcedures

structure ProcedureId where
  text : String
  deriving DecidableEq, Inhabited

structure EntityId where
  text : String
  deriving DecidableEq, Inhabited

instance : Ord ProcedureId := ⟨fun a b => compare a.text b.text⟩

instance : Ord EntityId := ⟨fun a b => compare a.text b.text⟩

theorem ProcedureId.compare_def (a b : ProcedureId) : compare a b = compare a.text b.text := rfl

theorem EntityId.compare_def (a b : EntityId) : compare a b = compare a.text b.text := rfl

instance : Std.TransOrd ProcedureId where
  eq_swap := by simp only [ProcedureId.compare_def]; exact Std.OrientedCmp.eq_swap
  isLE_trans := by simp only [ProcedureId.compare_def]; exact Std.TransCmp.isLE_trans

instance : Std.TransOrd EntityId where
  eq_swap := by simp only [EntityId.compare_def]; exact Std.OrientedCmp.eq_swap
  isLE_trans := by simp only [EntityId.compare_def]; exact Std.TransCmp.isLE_trans

instance : Std.LawfulEqOrd ProcedureId where
  compare_self := by simp
  eq_of_compare {a b} h := by
    cases a; cases b
    simpa [ProcedureId.compare_def] using h

instance : Std.LawfulEqOrd EntityId where
  compare_self := by simp
  eq_of_compare {a b} h := by
    cases a; cases b
    simpa [EntityId.compare_def] using h

/-- a family of generators that share one counter: it draws `stem-1`, `stem-2`, and so on -/
structure Sequence where
  stem : String := "proc"
  next : UInt64 := 1
  deriving DecidableEq, Inhabited

namespace Sequence

def nameAt (stem : String) (n : UInt64) : String := stem ++ "-" ++ toString n.toNat

def draw (s : Sequence) : String × Sequence :=
  (nameAt s.stem s.next, { s with next := s.next + 1 })

end Sequence

/-- generators in the order they were made; each belongs to the family whose counter it draws from -/
structure Generators where
  families : List Sequence := []
  members : List Nat := []
  deriving DecidableEq

namespace Generators

def add (g : Generators) (stem : String) : Generators :=
  ⟨g.families ++ [{ stem := stem }], g.members ++ [g.families.length]⟩

/-- a clone draws from the counter of the generator it was made from -/
def clone (g : Generators) (i : Nat) : Generators :=
  match g.members[i]? with
  | some family => { g with members := g.members ++ [family] }
  | none => g

def draw (g : Generators) (i : Nat) : Option (String × Generators) := do
  let family ← g.members[i]?
  let sequence ← g.families[family]?
  let (name, sequence) := sequence.draw
  return (name, { g with families := g.families.set family sequence })

end Generators

/-- any supply of names: the names it will hand out, in order, and how many it has handed out -/
structure IdSource where
  name : Nat → ProcedureId
  drawn : Nat := 0

namespace IdSource

def draw (s : IdSource) : ProcedureId × IdSource :=
  (s.name s.drawn, { s with drawn := s.drawn + 1 })

def sequential (stem : String := "proc") : IdSource where
  name n := ⟨Sequence.nameAt stem (1 + UInt64.ofNat n)⟩

/-- the listed names in order, then the last of them for ever -/
def listed (first : String) (rest : List String) : IdSource where
  name n := ⟨(first :: rest).getD n ((first :: rest).getLast (by simp))⟩

end IdSource

end NgapProcedures
