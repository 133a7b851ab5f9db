import NgapProcedures.Json.Record
import NgapProcedures.Proofs.Json.Values

/-! Records in JSON lose nothing when their parts lose nothing: a field is found under its name, a tag
is found beside the fields and taken away from them, and an absent value is told from every present
one. -/

namespace NgapProcedures.Json

variable {α : Type} {depth : Nat}

/-- that every value is had back from its JSON form -/
def Restores (toJson : α → Json) (ofJson? : Json → Option α) : Prop :=
  ∀ a, ofJson? (toJson a) = some a

attribute [simp] Plain.null Plain.string

@[simp]
theorem plain_uint8 (n : UInt8) : (natural n.toNat).Plain depth :=
  .natural (Nat.lt_trans n.toNat_lt (by decide))

@[simp]
theorem plain_uint32 (n : UInt32) : (natural n.toNat).Plain depth :=
  .natural (Nat.lt_trans n.toNat_lt (by decide))

@[simp]
theorem plain_uint64 (n : UInt64) : (natural n.toNat).Plain depth := .natural n.toNat_lt

theorem plain_list {toJson : α → Json} (h : ∀ a, (toJson a).Plain depth) (l : List α) :
    (Json.array (l.map toJson)).Plain (depth + 1) := by
  refine .array ?_
  intro j hj
  obtain ⟨a, -, rfl⟩ := List.mem_map.1 hj
  exact h a

theorem plain_option {toJson : α → Json} (h : ∀ a, (toJson a).Plain depth) (o : Option α) :
    (ofOption toJson o).Plain depth := by
  cases o with
  | none => exact .null
  | some a => exact h a

theorem restores_string : Restores .string string? := fun _ => rfl

theorem natural?_natural {bound n : Nat} (h : n < bound) : (natural n).natural? bound = some n := by
  simp [natural, natural?, h]

@[simp]
theorem uint8?_natural (n : UInt8) : uint8? (.natural n.toNat) = some n := by
  rw [uint8?, natural?_natural n.toNat_lt, Option.map_some, UInt8.ofNat_toNat]

@[simp]
theorem uint32?_natural (n : UInt32) : uint32? (.natural n.toNat) = some n := by
  rw [uint32?, natural?_natural n.toNat_lt, Option.map_some, UInt32.ofNat_toNat]

@[simp]
theorem uint64?_natural (n : UInt64) : uint64? (.natural n.toNat) = some n := by
  rw [uint64?, natural?_natural n.toNat_lt, Option.map_some, UInt64.ofNat_toNat]

section

variable {toJson : α → Json} {ofJson? : Json → Option α}

theorem Restores.list (h : Restores toJson ofJson?) (l : List α) :
    list? ofJson? (.array (l.map toJson)) = some l := by
  rw [list?]
  induction l with
  | nil => rfl
  | cons a l ih => simp [h a, ih]

theorem Restores.option (h : Restores toJson ofJson?) (hnull : ∀ a, toJson a ≠ .null)
    (o : Option α) : option? ofJson? (ofOption toJson o) = some o := by
  cases o with
  | none => rfl
  | some a =>
    rw [ofOption, option?]
    · rw [h a, Option.map_some]
    · exact hnull a

end

@[simp]
theorem plain_object_iff {members : Fields} :
    (Json.object members).Plain (depth + 1) ↔ ∀ m ∈ members, m.2.Plain depth := by
  constructor
  · intro h
    cases h with
    | object h => exact h
  · exact .object

@[simp]
theorem record?_object {names : List String} {members : Fields} (h : members.map (·.1) = names)
    (hnodup : names.Nodup) : record? names (.object members) = some members := by
  have hall : (members.filter fun m => names.contains m.1) = members := by
    rw [List.filter_eq_self]
    intro m hm
    rw [List.contains_iff_mem, ← h]
    exact List.mem_map_of_mem hm
  rw [record?, namedFields?, hall]
  exact if_pos (h ▸ hnodup)

/-- a tag that is no field's name, before the fields -/
@[simp]
theorem tagged?_object {tag word : String} {members : Fields} (h : tag ∉ members.map (·.1)) :
    tagged? tag (.object ((tag, .string word) :: members)) = some (word, .object members) := by
  have hne : ∀ m ∈ members, m.1 ≠ tag := by
    rintro m hm rfl
    exact h (List.mem_map_of_mem hm)
  have hnone : (members.filter fun m => m.1 == tag) = [] := by
    simpa [List.filter_eq_nil_iff] using hne
  have hall : (members.filter fun m => m.1 != tag) = members := by
    simpa [List.filter_eq_self] using hne
  simp [tagged?, hnone, hall]

namespace Fields

@[simp]
theorem get?_cons_self (name : String) (j : Json) (fields : Fields) :
    get? ((name, j) :: fields) name = some j := by
  simp [get?]

@[simp]
theorem get?_cons_of_ne {name name' : String} (h : name ≠ name') (j : Json) (fields : Fields) :
    get? ((name', j) :: fields) name = get? fields name := by
  have hne : (name == name') = false := beq_false_of_ne h
  simp [get?, List.lookup_cons, hne]

end Fields

end NgapProcedures.Json
