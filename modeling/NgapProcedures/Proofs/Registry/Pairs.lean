import Mathlib.Data.Finset.Card
import Mathlib.Data.Finset.Image
import Mathlib.Data.Finset.Dedup
import NgapProcedures.Proofs.Registry
import NgapProcedures.Proofs.Text.Bytes

/-! A registry stands for a finite set of pairs of an entity and an instance. Every call answers as it
would on the set and changes it by the pairs that it names, and no entity is ever listed without
instances. What is read off a registry is what the set has, in the order of bytes. -/

namespace NgapProcedures

inductive RegistryCall where
  | register (entity : EntityId) (id : ProcedureId)
  | deregister (entity : EntityId) (id : ProcedureId)
  | remove (entity : EntityId)
  deriving DecidableEq

inductive RegistryAnswer where
  | registered (refused : Option RegistryError)
  | deregistered (found : Bool)
  | removed (ids : Option (Finset ProcedureId))
  deriving DecidableEq

namespace Registry

def call (r : Registry) : RegistryCall → RegistryAnswer × Registry
  | .register entity id =>
    match r.register entity id with
    | .ok r' => (.registered none, r')
    | .error e => (.registered (some e), r)
  | .deregister entity id =>
    let (found, r') := r.deregister entity id
    (.deregistered found, r')
  | .remove entity =>
    let (known, r') := r.remove entity
    (.removed (known.map (·.keys.toFinset)), r')

def answers (r : Registry) : List RegistryCall → List RegistryAnswer
  | [] => []
  | c :: rest => (r.call c).1 :: (r.call c).2.answers rest

def after (r : Registry) (calls : List RegistryCall) : Registry :=
  calls.foldl (fun r c => (r.call c).2) r

/-- Registration in place: the entity gets its entry before it is known whether the instance goes
in. -/
def registerInPlace (r : Registry) (entity : EntityId) (id : ProcedureId) :
    Option RegistryError × Registry :=
  let known := (r.find? entity).getD ∅
  let entered : Registry := ⟨r.entries.insert entity known⟩
  if known.contains id then (some (.duplicateProcedure entity id), entered)
  else (none, ⟨entered.entries.insert entity (known.insert id ())⟩)

/-- An entry made for nothing would be left only if the instance were in a set that was not there. -/
theorem registerInPlace_eq (r : Registry) (entity : EntityId) (id : ProcedureId) :
    r.registerInPlace entity id =
      match r.register entity id with
      | .ok r' => (none, r')
      | .error e => (some e, r) := by
  unfold registerInPlace register
  dsimp only
  cases hc : ((r.find? entity).getD ∅).contains id with
  | false => simp [Table.insert_insert]
  | true =>
    cases hf : r.find? entity with
    | none => simp [hf, Table.contains] at hc
    | some known =>
      have hsame : r.entries.insert entity known = r.entries := Table.insert_of_get? hf
      simp [hsame]

theorem fst_deregister (r : Registry) (entity : EntityId) (id : ProcedureId) :
    (r.deregister entity id).1 = decide (id ∈ r.ids entity) := by
  rw [Bool.eq_iff_iff, decide_eq_true_iff, mem_ids_iff]
  unfold deregister
  cases r.find? entity with
  | none => simp
  | some known => simp

end Registry

abbrev PairSet := Finset (EntityId × ProcedureId)

namespace PairSet

def idsOf (p : PairSet) (entity : EntityId) : Finset ProcedureId :=
  (p.filter (·.1 = entity)).image Prod.snd

def find? (p : PairSet) (entity : EntityId) : Option (Finset ProcedureId) :=
  if p.idsOf entity = ∅ then none else some (p.idsOf entity)

def entities (p : PairSet) : Finset EntityId := p.image Prod.fst

def call (p : PairSet) : RegistryCall → RegistryAnswer × PairSet
  | .register entity id =>
    if (entity, id) ∈ p then (.registered (some (.duplicateProcedure entity id)), p)
    else (.registered none, insert (entity, id) p)
  | .deregister entity id => (.deregistered ((entity, id) ∈ p), p.erase (entity, id))
  | .remove entity => (.removed (p.find? entity), p.filter (·.1 ≠ entity))

def answers (p : PairSet) : List RegistryCall → List RegistryAnswer
  | [] => []
  | c :: rest => (p.call c).1 :: answers (p.call c).2 rest

def after (p : PairSet) (calls : List RegistryCall) : PairSet :=
  calls.foldl (fun p c => (PairSet.call p c).2) p

theorem mem_idsOf {p : PairSet} {entity : EntityId} {id : ProcedureId} :
    id ∈ p.idsOf entity ↔ (entity, id) ∈ p := by
  simp [idsOf]

theorem mem_entities {p : PairSet} {entity : EntityId} :
    entity ∈ p.entities ↔ ∃ id, (entity, id) ∈ p := by
  simp [entities]

end PairSet

/-- a registry without idle entities that has the pairs of a set -/
structure Represents (r : Registry) (p : PairSet) : Prop where
  inhabited : r.Inhabited
  mem_ids : ∀ entity id, id ∈ r.ids entity ↔ (entity, id) ∈ p

theorem represents_empty : Represents {} ∅ where
  inhabited := Registry.inhabited_empty
  mem_ids entity id := by simp [Registry.ids, Registry.find?]

namespace Represents

variable {r : Registry} {p : PairSet}

theorem toFinset_ids (h : Represents r p) (entity : EntityId) :
    (r.ids entity).toFinset = p.idsOf entity := by
  ext id
  rw [List.mem_toFinset, h.mem_ids, PairSet.mem_idsOf]

theorem find? (h : Represents r p) (entity : EntityId) :
    (r.find? entity).map (·.keys.toFinset) = p.find? entity := by
  have hids := h.toFinset_ids entity
  unfold PairSet.find?
  cases hf : r.find? entity with
  | none =>
    have hnone : p.idsOf entity = ∅ := by
      rw [← hids]
      simp [Registry.ids, hf]
    rw [if_pos hnone]
    rfl
  | some known =>
    have hkeys : r.ids entity = known.keys := by simp [Registry.ids, hf]
    have hsome : p.idsOf entity ≠ ∅ := by
      obtain ⟨id, v, hid⟩ := (Table.isEmpty_eq_false_iff _).1 (h.inhabited entity known hf)
      rw [← hids, hkeys]
      apply Finset.ne_empty_of_mem (a := id)
      rw [List.mem_toFinset, Table.mem_keys_iff]
      exact ⟨v, hid⟩
    rw [if_neg hsome, ← hids, hkeys]
    rfl

theorem contains (h : Represents r p) (entity : EntityId) :
    r.contains entity = true ↔ entity ∈ p.entities := by
  have hlisted : r.contains entity = true ↔ entity ∈ r.entities :=
    (Table.contains_iff _ _).trans (Table.mem_keys_iff _ _).symm
  rw [hlisted, h.inhabited.mem_entities_iff, PairSet.mem_entities]
  exact exists_congr fun id => h.mem_ids entity id

theorem toFinset_entities (h : Represents r p) : r.entities.toFinset = p.entities := by
  ext entity
  rw [List.mem_toFinset, ← h.contains]
  exact (Table.mem_keys_iff _ _).trans (Table.contains_iff _ _).symm

theorem size (h : Represents r p) : r.size = p.entities.card := by
  rw [← h.toFinset_entities]
  exact r.entries.size_eq_length_keys.trans
    (List.toFinset_card_of_nodup r.entries.keys_nodup).symm

theorem isEmpty (h : Represents r p) : r.isEmpty = true ↔ p = ∅ := by
  have hsize : r.isEmpty = true ↔ r.size = 0 := by
    simp [Registry.isEmpty, Table.isEmpty, Registry.size, Table.size]
  rw [hsize, h.size, Finset.card_eq_zero]
  exact Finset.image_eq_empty

theorem transactionCount (h : Represents r p) : r.transactionCount = p.card := by
  have hpairs : r.pairs.toFinset = p := by
    ext ⟨entity, id⟩
    rw [List.mem_toFinset, Registry.mem_pairs_iff, h.mem_ids]
  rw [r.transactionCount_eq_length_pairs, ← hpairs, List.toFinset_card_of_nodup r.pairs_nodup]

theorem call (h : Represents r p) (c : RegistryCall) :
    (r.call c).1 = (p.call c).1 ∧ Represents (r.call c).2 (p.call c).2 := by
  cases c with
  | register entity id =>
    by_cases hid : id ∈ r.ids entity
    · have hmem := (h.mem_ids entity id).1 hid
      simp only [Registry.call, Registry.register_of_mem hid, PairSet.call, if_pos hmem]
      exact ⟨trivial, h⟩
    · have hmem : (entity, id) ∉ p := fun hm => hid ((h.mem_ids entity id).2 hm)
      have hok := Registry.register_eq_ok_iff.2 ⟨hid, rfl⟩
      simp only [Registry.call, hok, PairSet.call, if_neg hmem]
      refine ⟨trivial, h.inhabited.register hok, ?_⟩
      intro entity' id'
      rw [Registry.mem_ids_register hok, h.mem_ids, Finset.mem_insert, Prod.mk.injEq]
      exact or_comm
  | deregister entity id =>
    refine ⟨?_, h.inhabited.deregister entity id, ?_⟩
    · have hfound := r.fst_deregister entity id
      simp only [h.mem_ids] at hfound
      exact congrArg RegistryAnswer.deregistered hfound
    · intro entity' id'
      refine Registry.mem_ids_deregister.trans ?_
      rw [h.mem_ids, PairSet.call, Finset.mem_erase, ne_eq, Prod.mk.injEq]
      exact and_comm
  | remove entity =>
    refine ⟨congrArg RegistryAnswer.removed (h.find? entity), h.inhabited.remove entity, ?_⟩
    intro entity' id'
    refine Registry.mem_ids_remove.trans ?_
    rw [h.mem_ids, PairSet.call, Finset.mem_filter]

theorem after (h : Represents r p) (calls : List RegistryCall) :
    r.answers calls = p.answers calls ∧ Represents (r.after calls) (p.after calls) := by
  induction calls generalizing r p with
  | nil => exact ⟨rfl, h⟩
  | cons c rest ih =>
    obtain ⟨hanswer, hstep⟩ := h.call c
    obtain ⟨hanswers, hafter⟩ := ih hstep
    exact ⟨congrArg₂ List.cons hanswer hanswers, hafter⟩

end Represents

/-- A registry answers every sequence of calls as the set of its pairs does. It lists the entities of
the set and no other, with the instances that the set pairs them with, both in ascending order of
their bytes; and an entry that registration makes before it knows of the instance is never left
behind. -/
theorem registry_refines_pairs (calls : List RegistryCall) :
    let r := ({} : Registry).after calls
    let p := PairSet.after ∅ calls
    ({} : Registry).answers calls = PairSet.answers ∅ calls ∧
    (∀ entity id, (entity, id) ∈ p ↔ id ∈ r.ids entity) ∧
    (∀ entity, r.find? entity ≠ some ∅) ∧
    (∀ entity, (r.find? entity).map (·.keys.toFinset) = p.find? entity) ∧
    (∀ entity, r.contains entity = true ↔ entity ∈ p.entities) ∧
    r.size = p.entities.card ∧
    (r.isEmpty = true ↔ p = ∅) ∧
    r.transactionCount = p.card ∧
    r.entities.toFinset = p.entities ∧
    (r.entities.Pairwise fun a b => bytesOf a.text < bytesOf b.text) ∧
    (∀ entity, (r.ids entity).Pairwise fun a b => bytesOf a.text < bytesOf b.text) ∧
    ∀ entity id, r.registerInPlace entity id =
      match r.register entity id with
      | .ok r' => (none, r')
      | .error e => (some e, r) := by
  intro r p
  obtain ⟨hanswers, h⟩ := represents_empty.after calls
  refine ⟨hanswers, fun entity id => (h.mem_ids entity id).symm, ?_, h.find?, h.contains, h.size,
    h.isEmpty, h.transactionCount, h.toFinset_entities, ?_, ?_, r.registerInPlace_eq⟩
  · intro entity hf
    have hsome := h.inhabited entity ∅ hf
    cases hsome
  · refine r.entries.keys_ascending.imp fun {a b} hab => ?_
    exact (lt_iff_bytesOf_lt _ _).1 (compareOfLessAndEq_eq_lt.1 hab)
  · intro entity
    refine (r.ids_ascending entity).imp fun {a b} hab => ?_
    exact (lt_iff_bytesOf_lt _ _).1 (compareOfLessAndEq_eq_lt.1 hab)

-- the entity goes with its last instance, and a second registration is refused
example :
    ({} : Registry).answers [.register ⟨"amf-1"⟩ ⟨"proc-1"⟩, .register ⟨"amf-1"⟩ ⟨"proc-1"⟩,
      .deregister ⟨"amf-1"⟩ ⟨"proc-1"⟩, .remove ⟨"amf-1"⟩] =
    [.registered none, .registered (some (.duplicateProcedure ⟨"amf-1"⟩ ⟨"proc-1"⟩)),
      .deregistered true, .removed none] := by
  decide +kernel

end NgapProcedures
