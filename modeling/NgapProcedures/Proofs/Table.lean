import NgapProcedures.Table.Laws

/-! The keys of a table, its values mapped, its entries filtered, and which updates of one amount to
the same. The keys stand in strictly ascending order, and a key is listed exactly when it has a
value. -/

namespace NgapProcedures.Table

variable {κ α : Type} [Ord κ]

theorem contains_iff (t : Table κ α) (k : κ) : t.contains k = true ↔ ∃ v, t.get? k = some v := by
  unfold contains
  exact Option.isSome_iff_exists

theorem contains_eq_false_iff (t : Table κ α) (k : κ) : t.contains k = false ↔ t.get? k = none := by
  simp [contains]

theorem keys_ascending (t : Table κ α) : t.keys.Pairwise (fun a b => compare a b = .lt) :=
  List.pairwise_map.2 t.ascending

theorem keys_nodup [Std.LawfulEqOrd κ] (t : Table κ α) : t.keys.Nodup := by
  refine t.keys_ascending.imp fun {a b} h he => ?_
  subst he
  simp at h

theorem size_eq_length_keys (t : Table κ α) : t.size = t.keys.length := by
  simp [size, keys]

section

variable [Std.LawfulEqOrd κ]

theorem mem_keys_iff (t : Table κ α) (k : κ) : k ∈ t.keys ↔ ∃ v, t.get? k = some v := by
  simp only [keys, List.mem_map, Prod.exists, exists_and_right, exists_eq_right,
    get?_eq_some_iff]

theorem isEmpty_iff (t : Table κ α) : t.isEmpty = true ↔ ∀ k, t.get? k = none := by
  constructor
  · intro h k
    have he : t.entries = [] := by simpa [isEmpty] using h
    simp [get?, he, lookup]
  · intro h
    have he : t.entries = [] := List.eq_nil_iff_forall_not_mem.2 fun entry hm => by
      have hget : t.get? entry.1 = some entry.2 := t.get?_eq_some_iff.2 hm
      simp [h entry.1] at hget
    simp [isEmpty, he]

theorem isEmpty_eq_false_iff (t : Table κ α) :
    t.isEmpty = false ↔ ∃ k v, t.get? k = some v := by
  rw [← Bool.not_eq_true, isEmpty_iff]
  simp [Option.ne_none_iff_exists']

theorem get?_erase_eq_some_iff [DecidableEq κ] {t : Table κ α} {k q : κ} {v : α} :
    (t.erase k).get? q = some v ↔ t.get? q = some v ∧ ¬q = k := by
  rw [get?_erase]
  by_cases h : q = k <;> simp [h]

theorem contains_erase [DecidableEq κ] (t : Table κ α) (k q : κ) :
    (t.erase k).contains q = (!decide (q = k) && t.contains q) := by
  unfold contains
  rw [get?_erase]
  by_cases h : q = k <;> simp [h]

end

section

variable [Std.TransOrd κ] [Std.LawfulEqOrd κ]

theorem eq_empty_iff (t : Table κ α) : t = ∅ ↔ ∀ k, t.get? k = none :=
  ⟨fun h k => by rw [h, get?_empty], fun h => ext_get? fun k => by rw [h k, get?_empty]⟩

theorem eq_empty_of_forall_ne {t : Table κ α} (h : ∀ k v, t.get? k ≠ some v) : t = ∅ :=
  t.eq_empty_iff.2 fun k => Option.eq_none_iff_forall_ne_some.2 (h k)

/-- what is found after an insertion is what was inserted, or it stands under another key -/
theorem get?_insert_eq_some_iff [DecidableEq κ] {t : Table κ α} {k q : κ} {v w : α} :
    (t.insert k v).get? q = some w ↔ q = k ∧ w = v ∨ q ≠ k ∧ t.get? q = some w := by
  rw [get?_insert]
  by_cases h : q = k
  · simp [h, eq_comm]
  · simp [h]

theorem get?_insert_of_new [DecidableEq κ] {t : Table κ α} {k q : κ} {v w : α}
    (hnew : t.get? k = none) (hq : t.get? q = some w) : (t.insert k v).get? q = some w := by
  refine (get?_insert_other t v ?_).trans hq
  rintro rfl
  simp [hnew] at hq

theorem insert_insert [DecidableEq κ] (t : Table κ α) (k : κ) (v w : α) :
    (t.insert k v).insert k w = t.insert k w :=
  ext_get? fun q => by simp only [get?_insert]; split <;> rfl

theorem erase_insert [DecidableEq κ] (t : Table κ α) (k : κ) (v : α) :
    (t.insert k v).erase k = t.erase k :=
  ext_get? fun q => by
    rw [get?_erase, get?_insert, get?_erase]
    split <;> rfl

theorem insert_of_get? [DecidableEq κ] {t : Table κ α} {k : κ} {v : α} (h : t.get? k = some v) :
    t.insert k v = t :=
  ext_get? fun q => by
    rw [get?_insert]
    split
    · next hq => rw [hq, h]
    · rfl

theorem erase_of_get? [DecidableEq κ] {t : Table κ α} {k : κ} (h : t.get? k = none) :
    t.erase k = t :=
  ext_get? fun q => by
    rw [get?_erase]
    split
    · next hq => rw [hq, h]
    · rfl

theorem erase_erase [DecidableEq κ] (t : Table κ α) (k : κ) : (t.erase k).erase k = t.erase k :=
  erase_of_get? (get?_erase_self t k)

theorem insert_comm [DecidableEq κ] (t : Table κ α) {k q : κ} (h : k ≠ q) (v w : α) :
    (t.insert k v).insert q w = (t.insert q w).insert k v := by
  refine ext_get? fun x => ?_
  simp only [get?_insert]
  split
  · next he => rw [if_neg (he ▸ h.symm)]
  · rfl

theorem erase_comm [DecidableEq κ] (t : Table κ α) (k q : κ) :
    (t.erase k).erase q = (t.erase q).erase k := by
  refine ext_get? fun x => ?_
  simp only [get?_erase]
  split
  · rw [ite_self]
  · rfl

theorem erase_insert_other [DecidableEq κ] (t : Table κ α) {k q : κ} (h : k ≠ q) (v : α) :
    (t.insert k v).erase q = (t.erase q).insert k v := by
  refine ext_get? fun x => ?_
  simp only [get?_insert, get?_erase]
  split
  · next he => rw [if_neg (he ▸ h.symm)]
  · rfl

theorem contains_insert [DecidableEq κ] (t : Table κ α) (k q : κ) (v : α) :
    (t.insert k v).contains q = (decide (q = k) || t.contains q) := by
  unfold contains
  rw [get?_insert]
  by_cases h : q = k <;> simp [h]

end

/-- the table with a function applied to every value -/
def map {β : Type} (f : α → β) (t : Table κ α) : Table κ β :=
  ⟨t.entries.map fun e => (e.1, f e.2), List.pairwise_map.2 t.ascending⟩

section

variable {β : Type} (f : α → β)

theorem get?_map (t : Table κ α) (k : κ) : (t.map f).get? k = (t.get? k).map f := by
  have hlookup : ∀ l : List (κ × α),
      lookup k (l.map fun e => (e.1, f e.2)) = (lookup k l).map f := fun l => by
    induction l with
    | nil => rfl
    | cons e rest ih =>
      simp only [List.map_cons, lookup, ih]
      split <;> rfl
  exact hlookup t.entries

theorem contains_map (t : Table κ α) (k : κ) : (t.map f).contains k = t.contains k := by
  simp [contains, get?_map]

variable [Std.LawfulEqOrd κ] [DecidableEq κ]

theorem map_insert [Std.TransOrd κ] (t : Table κ α) (k : κ) (v : α) :
    (t.insert k v).map f = (t.map f).insert k (f v) :=
  ext_get? fun q => by
    simp only [get?_map, get?_insert]
    split <;> rfl

theorem map_erase [Std.TransOrd κ] (t : Table κ α) (k : κ) :
    (t.erase k).map f = (t.map f).erase k :=
  ext_get? fun q => by
    simp only [get?_map, get?_erase]
    split <;> rfl

end

def filter (p : κ × α → Bool) (t : Table κ α) : Table κ α :=
  ⟨t.entries.filter p, t.ascending.filter _⟩

theorem get?_filter [Std.LawfulEqOrd κ] (p : κ × α → Bool) (t : Table κ α) (k : κ) :
    (t.filter p).get? k = (t.get? k).filter fun v => p (k, v) := by
  refine Option.ext fun v => ?_
  rw [get?_eq_some_iff, Option.filter_eq_some_iff, get?_eq_some_iff]
  exact List.mem_filter

/-- a key has one entry at most -/
theorem filter_key [Std.LawfulEqOrd κ] [DecidableEq κ] (t : Table κ α) (k : κ) :
    t.entries.filter (fun e => e.1 = k) = (t.get? k).toList.map fun v => (k, v) := by
  have hlookup : ∀ l : List (κ × α), l.Pairwise (fun a b => compare a.1 b.1 = .lt) →
      l.filter (fun e => e.1 = k) = (lookup k l).toList.map fun v => (k, v) := fun l h => by
    induction l with
    | nil => rfl
    | cons e rest ih =>
      obtain ⟨hhead, hrest⟩ := List.pairwise_cons.1 h
      by_cases he : e.1 = k
      · subst he
        have hnone : rest.filter (fun e' => e'.1 = e.1) = [] :=
          List.filter_eq_nil_iff.2 fun e' hm => by
            have hlt := hhead e' hm
            intro heq
            rw [of_decide_eq_true heq] at hlt
            simp at hlt
        simp [lookup, hnone]
      · have hne : compare k e.1 ≠ .eq := fun hc => he (Std.LawfulEqCmp.eq_of_compare hc).symm
        simp [lookup, he, hne, ih hrest]
  exact hlookup t.entries t.ascending

end NgapProcedures.Table
