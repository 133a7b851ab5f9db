import NgapProcedures.Proofs.Table
import NgapProcedures.Registry

/-! A registry read as the set of its pairs of an entity and an instance. Each operation changes the
set by the pairs it names, and none leaves an entity without instances if there was none before. -/

namespace NgapProcedures.Registry

theorem mem_ids_iff {r : Registry} {entity : EntityId} {id : ProcedureId} :
    id ∈ r.ids entity ↔ ∃ known, r.find? entity = some known ∧ known.contains id = true := by
  unfold ids
  cases h : r.find? entity with
  | none => simp
  | some known => simp [Table.mem_keys_iff, Table.contains_iff]

theorem ids_ascending (r : Registry) (entity : EntityId) :
    (r.ids entity).Pairwise (fun a b => compare a b = .lt) := by
  unfold ids
  cases r.find? entity with
  | none => simp
  | some known => simpa using known.keys_ascending

theorem contains_known_iff {r : Registry} {entity : EntityId} {id : ProcedureId} :
    ((r.find? entity).getD ∅).contains id = true ↔ id ∈ r.ids entity := by
  rw [mem_ids_iff]
  cases r.find? entity with
  | none => simp [Table.contains]
  | some known => simp

theorem register_eq_ok_iff {r r' : Registry} {entity : EntityId} {id : ProcedureId} :
    r.register entity id = .ok r' ↔ id ∉ r.ids entity ∧
      r' = ⟨r.entries.insert entity (((r.find? entity).getD ∅).insert id ())⟩ := by
  unfold register
  dsimp only
  by_cases h : id ∈ r.ids entity
  · simp [contains_known_iff.2 h, h]
  · have hc : ((r.find? entity).getD ∅).contains id = false := by
      rw [← Bool.not_eq_true, contains_known_iff]
      exact h
    simp [hc, h, eq_comm]

theorem register_of_mem {r : Registry} {entity : EntityId} {id : ProcedureId}
    (h : id ∈ r.ids entity) : r.register entity id = .error (.duplicateProcedure entity id) :=
  if_pos (contains_known_iff.2 h)

theorem find?_register {r r' : Registry} {entity : EntityId} {id : ProcedureId}
    (h : r.register entity id = .ok r') (entity' : EntityId) :
    r'.find? entity' = if entity' = entity then some (((r.find? entity).getD ∅).insert id ())
      else r.find? entity' := by
  obtain ⟨-, rfl⟩ := register_eq_ok_iff.1 h
  exact Table.get?_insert ..

theorem mem_ids_register {r r' : Registry} {entity : EntityId} {id : ProcedureId}
    (h : r.register entity id = .ok r') {entity' : EntityId} {id' : ProcedureId} :
    id' ∈ r'.ids entity' ↔ id' ∈ r.ids entity' ∨ entity' = entity ∧ id' = id := by
  rw [mem_ids_iff, mem_ids_iff, find?_register h]
  by_cases he : entity' = entity
  · subst he
    cases r.find? entity' with
    | none => simp [Table.contains, Table.get?_insert]
    | some known => simp [Table.contains_insert, or_comm]
  · simp [he]

theorem find?_deregister (r : Registry) (entity entity' : EntityId) (id : ProcedureId) :
    (r.deregister entity id).2.find? entity' =
      if entity' = entity then
        ((r.find? entity).map (·.erase id)).filter (fun left => !left.isEmpty)
      else r.find? entity' := by
  unfold deregister
  cases hf : r.find? entity with
  | none =>
    by_cases he : entity' = entity
    · simp [he, hf]
    · simp [he]
  | some known =>
    dsimp only [find?]
    by_cases he : entity' = entity
    · subst he
      cases hl : (known.erase id).isEmpty with
      | true => rw [if_pos rfl]; simp [Option.filter, hl]
      | false => simp [Option.filter, hl]
    · cases (known.erase id).isEmpty with
      | true => rw [if_pos rfl]; simp [he, Table.get?_erase]
      | false => simp [he, Table.get?_insert]

theorem mem_ids_deregister {r : Registry} {entity entity' : EntityId} {id id' : ProcedureId} :
    id' ∈ (r.deregister entity id).2.ids entity' ↔
      id' ∈ r.ids entity' ∧ ¬(entity' = entity ∧ id' = id) := by
  rw [mem_ids_iff, mem_ids_iff, find?_deregister]
  by_cases he : entity' = entity
  · subst he
    cases r.find? entity' with
    | none => simp
    | some known =>
      simp only [↓reduceIte, Option.map_some, Option.filter_eq_some_iff, Option.some.injEq,
        Bool.not_eq_true', true_and, exists_eq_left']
      constructor
      · rintro ⟨left, ⟨rfl, -⟩, hc⟩
        simpa [Table.contains_erase, and_comm] using hc
      · rintro ⟨hc, hne⟩
        have hleft : (known.erase id).contains id' = true := by
          simp [Table.contains_erase, hne, hc]
        refine ⟨_, ⟨rfl, ?_⟩, hleft⟩
        obtain ⟨v, hv⟩ := (Table.contains_iff _ _).1 hleft
        exact (Table.isEmpty_eq_false_iff _).2 ⟨id', v, hv⟩
  · simp [he]

theorem ext_find? {r r' : Registry} (h : ∀ entity, r.find? entity = r'.find? entity) : r = r' := by
  obtain ⟨entries⟩ := r
  obtain ⟨entries'⟩ := r'
  exact congrArg Registry.mk (Table.ext_get? h)

private theorem filter_erase_erase (known : Option (KeySet ProcedureId)) (a b : ProcedureId) :
    (((known.map (·.erase a)).filter (fun left => !left.isEmpty)).map (·.erase b)).filter
        (fun left => !left.isEmpty) =
      (known.map fun known => (known.erase a).erase b).filter (fun left => !left.isEmpty) := by
  cases known with
  | none => rfl
  | some known =>
    cases hl : (known.erase a).isEmpty with
    | false => simp [Option.filter, hl]
    | true =>
      have hnone := (Table.isEmpty_iff _).1 hl
      have hl' : ((known.erase a).erase b).isEmpty = true := by
        refine (Table.isEmpty_iff _).2 fun k => ?_
        rw [Table.get?_erase, hnone k, ite_self]
      simp [Option.filter, hl, hl']

/-- The order in which two instances are taken out does not matter, also when they are the last ones
of one entity. -/
theorem deregister_comm (r : Registry) (entity entity' : EntityId) (id id' : ProcedureId) :
    ((r.deregister entity id).2.deregister entity' id').2 =
      ((r.deregister entity' id').2.deregister entity id).2 := by
  refine ext_find? fun entity'' => ?_
  simp only [find?_deregister]
  by_cases he : entity'' = entity
  · by_cases he' : entity'' = entity'
    · subst he he'
      simp only [↓reduceIte, filter_erase_erase, Table.erase_comm _ id id']
    · subst he
      simp [he']
  · by_cases he' : entity'' = entity'
    · subst he'
      simp [he]
    · simp [he, he']

theorem find?_remove (r : Registry) (entity entity' : EntityId) :
    (r.remove entity).2.find? entity' = if entity' = entity then none else r.find? entity' :=
  Table.get?_erase ..

theorem mem_ids_remove {r : Registry} {entity entity' : EntityId} {id : ProcedureId} :
    id ∈ (r.remove entity).2.ids entity' ↔ id ∈ r.ids entity' ∧ entity' ≠ entity := by
  rw [mem_ids_iff, mem_ids_iff, find?_remove]
  by_cases he : entity' = entity <;> simp [he]

/-- no entity is listed without instances -/
def Inhabited (r : Registry) : Prop :=
  ∀ entity known, r.find? entity = some known → known.isEmpty = false

theorem inhabited_empty : ({} : Registry).Inhabited := fun entity known h => by
  simp [find?, Table.get?_empty] at h

theorem Inhabited.register {r r' : Registry} {entity : EntityId} {id : ProcedureId}
    (hr : r.Inhabited) (h : r.register entity id = .ok r') : r'.Inhabited := by
  intro entity' known hk
  rw [find?_register h] at hk
  split at hk
  · obtain rfl := Option.some.inj hk
    exact (Table.isEmpty_eq_false_iff _).2 ⟨id, (), Table.get?_insert_self ..⟩
  · exact hr _ _ hk

theorem Inhabited.deregister {r : Registry} (hr : r.Inhabited) (entity : EntityId)
    (id : ProcedureId) : (r.deregister entity id).2.Inhabited := by
  intro entity' known hk
  rw [find?_deregister] at hk
  split at hk
  · simpa using (Option.filter_eq_some_iff.1 hk).2
  · exact hr _ _ hk

/-- an instance that is registered and taken out again leaves nothing in the registry -/
theorem Inhabited.deregister_register {r r' : Registry} (hr : r.Inhabited) {entity : EntityId}
    {id : ProcedureId} (h : r.register entity id = .ok r') : (r'.deregister entity id).2 = r := by
  have hn := (register_eq_ok_iff.1 h).1
  refine ext_find? fun entity' => ?_
  rw [find?_deregister, find?_register h, find?_register h, if_pos rfl]
  split
  · next he =>
    subst he
    cases hk : r.find? entity' with
    | none =>
      have hempty : ((∅ : KeySet ProcedureId).erase id).isEmpty = true :=
        (Table.isEmpty_iff _).2 fun k => by simp [Table.get?_erase]
      simp [Option.filter, Table.erase_insert, hempty]
    | some known =>
      have hid : known.get? id = none := by
        refine Option.eq_none_iff_forall_ne_some.2 fun v hv => hn ?_
        exact mem_ids_iff.2 ⟨known, hk, (Table.contains_iff _ _).2 ⟨v, hv⟩⟩
      simp [Option.filter, Table.erase_insert, Table.erase_of_get? hid, hr _ _ hk]
  · rfl

theorem Inhabited.remove {r : Registry} (hr : r.Inhabited) (entity : EntityId) :
    (r.remove entity).2.Inhabited := by
  intro entity' known hk
  rw [find?_remove] at hk
  split at hk
  · simp at hk
  · exact hr _ _ hk

theorem Inhabited.mem_entities_iff {r : Registry} (hr : r.Inhabited) {entity : EntityId} :
    entity ∈ r.entities ↔ ∃ id, id ∈ r.ids entity := by
  rw [entities, Table.mem_keys_iff]
  constructor
  · rintro ⟨known, hk⟩
    obtain ⟨id, v, hv⟩ := (Table.isEmpty_eq_false_iff _).1 (hr _ _ hk)
    exact ⟨id, mem_ids_iff.2 ⟨known, hk, (Table.contains_iff _ _).2 ⟨v, hv⟩⟩⟩
  · rintro ⟨id, hid⟩
    obtain ⟨known, hk, -⟩ := mem_ids_iff.1 hid
    exact ⟨known, hk⟩

theorem contains_of_mem_entities {r : Registry} {entity : EntityId} (h : entity ∈ r.entities) :
    r.contains entity = true :=
  (Table.contains_iff _ _).2 ((Table.mem_keys_iff _ _).1 h)

/-- the registered pairs, one by one -/
def pairs (r : Registry) : List (EntityId × ProcedureId) :=
  r.entries.entries.flatMap fun (entity, known) => known.keys.map (entity, ·)

theorem transactionCount_eq_length_pairs (r : Registry) :
    r.transactionCount = r.pairs.length := by
  have hsum : r.transactionCount = (r.entries.values.map (·.size)).sum := List.foldr_map.symm
  simp [hsum, pairs, Table.values, List.length_flatMap, Table.size_eq_length_keys,
    Function.comp_def]

theorem mem_pairs_iff {r : Registry} {entity : EntityId} {id : ProcedureId} :
    (entity, id) ∈ r.pairs ↔ id ∈ r.ids entity := by
  rw [mem_ids_iff]
  simp only [pairs, List.mem_flatMap, List.mem_map, Prod.mk.injEq, Prod.exists, find?,
    Table.get?_eq_some_iff, Table.contains_iff, Table.mem_keys_iff]
  constructor
  · rintro ⟨entity', known, hmem, id', hv, rfl, rfl⟩
    exact ⟨known, hmem, hv⟩
  · rintro ⟨known, hmem, hv⟩
    exact ⟨entity, known, hmem, id, hv, rfl, rfl⟩

theorem pairs_nodup (r : Registry) : r.pairs.Nodup := by
  refine List.pairwise_flatMap.2 ⟨fun x _ => ?_, ?_⟩
  · refine List.pairwise_map.2 (x.2.keys_nodup.imp fun {a b} hne he => ?_)
    exact hne (Prod.mk.inj he).2
  · refine r.entries.ascending.imp fun {a b} hlt p hp q hq he => ?_
    obtain ⟨i, -, rfl⟩ := List.mem_map.1 hp
    obtain ⟨j, -, rfl⟩ := List.mem_map.1 hq
    rw [(Prod.mk.inj he).1] at hlt
    simp at hlt

end NgapProcedures.Registry
