import NgapProcedures.Table

/-! Look-ups after `insert` and `erase`, equality by look-up, and how the two operations change the
number of entries with a property. -/

namespace NgapProcedures.Table

variable {κ α : Type} [Ord κ]

@[simp] theorem get?_empty (k : κ) : (∅ : Table κ α).get? k = none := rfl

section Lists

theorem lookup_none_of_below {k : κ} : ∀ {l : List (κ × α)},
    (∀ e ∈ l, compare k e.1 = .lt) → lookup k l = none
  | [], _ => rfl
  | (k', v) :: rest, h => by
    have := h (k', v) List.mem_cons_self
    simp only [lookup, this, reduceCtorEq, ↓reduceIte]
    exact lookup_none_of_below fun e he => h e (List.mem_cons_of_mem _ he)

variable [Std.LawfulEqOrd κ]

theorem lookup_put_self (k : κ) (v : α) : ∀ l : List (κ × α), lookup k (put k v l) = some v
  | [] => by simp [put, lookup]
  | (k', v') :: rest => by
    unfold put
    split
    · simp [lookup]
    · simp [lookup]
    · next h => simp [lookup, h, lookup_put_self k v rest]

theorem lookup_put_other {k q : κ} (v : α) (hq : q ≠ k) :
    ∀ l : List (κ × α), lookup q (put k v l) = lookup q l
  | [] => by simp [put, lookup, hq]
  | (k', v') :: rest => by
    unfold put
    split
    · simp [lookup, hq]
    · next h => simp [lookup, hq, ← Std.LawfulEqCmp.eq_of_compare h]
    · simp [lookup, lookup_put_other v hq rest]

theorem lookup_discard_self (k : κ) : ∀ l : List (κ × α), lookup k (discard k l) = none
  | [] => rfl
  | (k', v) :: rest => by
    have ih := lookup_discard_self k rest
    unfold discard at ih ⊢
    by_cases hk : compare k k' = .eq <;> simp_all [lookup]

theorem lookup_discard_other {k q : κ} (hq : q ≠ k) :
    ∀ l : List (κ × α), lookup q (discard k l) = lookup q l
  | [] => rfl
  | (k', v) :: rest => by
    have ih := lookup_discard_other hq rest
    unfold discard at ih ⊢
    by_cases hk : k = k'
    · subst hk; simp_all [lookup]
    · simp_all [lookup]

end Lists

section Tables

variable [Std.TransOrd κ] [Std.LawfulEqOrd κ]

theorem get?_insert [DecidableEq κ] (t : Table κ α) (k q : κ) (v : α) :
    (t.insert k v).get? q = if q = k then some v else t.get? q := by
  by_cases h : q = k
  · subst h; simp [get?, insert, lookup_put_self]
  · simp [get?, insert, lookup_put_other v h, h]

@[simp] theorem get?_insert_self (t : Table κ α) (k : κ) (v : α) :
    (t.insert k v).get? k = some v := lookup_put_self k v t.entries

theorem get?_insert_other (t : Table κ α) {k q : κ} (v : α) (h : q ≠ k) :
    (t.insert k v).get? q = t.get? q := lookup_put_other v h t.entries

omit [Std.TransOrd κ] in
@[simp] theorem get?_erase_self (t : Table κ α) (k : κ) : (t.erase k).get? k = none :=
  lookup_discard_self k t.entries

omit [Std.TransOrd κ] in
theorem get?_erase_other (t : Table κ α) {k q : κ} (h : q ≠ k) :
    (t.erase k).get? q = t.get? q := lookup_discard_other h t.entries

omit [Std.TransOrd κ] in
theorem get?_erase [DecidableEq κ] (t : Table κ α) (k q : κ) :
    (t.erase k).get? q = if q = k then none else t.get? q := by
  by_cases h : q = k
  · subst h; simp
  · simp [get?_erase_other t h, h]

omit [Std.TransOrd κ] in
theorem mem_of_lookup {k : κ} {v : α} : ∀ {l : List (κ × α)}, lookup k l = some v → (k, v) ∈ l
  | [], h => by simp [lookup] at h
  | (k', v') :: rest, h => by
    unfold lookup at h
    split at h
    · next hc => simp_all [Std.LawfulEqCmp.eq_of_compare hc]
    · exact List.mem_cons_of_mem _ (mem_of_lookup h)

omit [Std.TransOrd κ] in
theorem lookup_of_mem {k : κ} {v : α} : ∀ {l : List (κ × α)},
    l.Pairwise (fun a b => compare a.1 b.1 = .lt) → (k, v) ∈ l → lookup k l = some v
  | [], _, h => by simp at h
  | (k', v') :: rest, hs, h => by
    have hs' := List.pairwise_cons.1 hs
    rcases List.mem_cons.1 h with h | h
    · obtain ⟨rfl, rfl⟩ := Prod.mk.inj h
      simp [lookup]
    · have hlt : compare k' k = .lt := hs'.1 _ h
      have hne : k ≠ k' := fun he => by simp [he] at hlt
      simp [lookup, hne, lookup_of_mem hs'.2 h]

omit [Std.TransOrd κ] in
/-- a key has a value exactly when the pair is an entry -/
theorem get?_eq_some_iff (t : Table κ α) {k : κ} {v : α} :
    t.get? k = some v ↔ (k, v) ∈ t.entries :=
  ⟨mem_of_lookup, lookup_of_mem t.ascending⟩

theorem eq_of_lookup : ∀ {l l' : List (κ × α)},
    l.Pairwise (fun a b => compare a.1 b.1 = .lt) →
    l'.Pairwise (fun a b => compare a.1 b.1 = .lt) →
    (∀ k, lookup k l = lookup k l') → l = l'
  | [], [], _, _, _ => rfl
  | [], (k, v) :: r, _, _, h => by simpa [lookup] using h k
  | (k, v) :: r, [], _, _, h => by simpa [lookup] using h k
  | (k, v) :: r, (k', v') :: r', hs, hs', h => by
    have hs := List.pairwise_cons.1 hs
    have hs' := List.pairwise_cons.1 hs'
    have hk : k = k' := by
      have h1 : (k, v) ∈ (k', v') :: r' := mem_of_lookup (by rw [← h k]; simp [lookup])
      have h2 : (k', v') ∈ (k, v) :: r := mem_of_lookup (by rw [h k']; simp [lookup])
      rcases List.mem_cons.1 h1 with h1 | h1
      · exact (Prod.mk.inj h1).1
      · rcases List.mem_cons.1 h2 with h2 | h2
        · exact (Prod.mk.inj h2).1.symm
        · have a1 := hs'.1 _ h1
          have a2 := hs.1 _ h2
          have := Std.TransCmp.lt_trans a1 a2
          simp at this
    subst hk
    have hv : v = v' := by simpa [lookup] using h k
    subst hv
    congr 1
    refine eq_of_lookup hs.2 hs'.2 fun q => ?_
    by_cases hq : q = k
    · subst hq
      rw [lookup_none_of_below hs.1, lookup_none_of_below hs'.1]
    · simpa [lookup, hq] using h q

/-- tables with the same look-ups are equal -/
theorem ext_get? {t t' : Table κ α} (h : ∀ k, t.get? k = t'.get? k) : t = t' := by
  have := eq_of_lookup t.ascending t'.ascending h
  cases t; cases t'; cases this; rfl

end Tables

section Counting

variable [Std.TransOrd κ] [Std.LawfulEqOrd κ]

theorem countP_put_of_lookup (p : κ × α → Bool) {k : κ} {v w : α} : ∀ {l : List (κ × α)},
    l.Pairwise (fun a b => compare a.1 b.1 = .lt) → lookup k l = some w →
    (put k v l).countP p + (if p (k, w) then 1 else 0) =
      l.countP p + (if p (k, v) then 1 else 0)
  | [], _, h => by simp [lookup] at h
  | (k', v') :: rest, hs, h => by
    have hs := List.pairwise_cons.1 hs
    unfold put
    split
    · next hlt =>
      have : lookup k ((k', v') :: rest) = none := lookup_none_of_below fun e he => by
        rcases List.mem_cons.1 he with rfl | he
        · exact hlt
        · exact Std.TransCmp.lt_trans hlt (hs.1 e he)
      simp [this] at h
    · next heq =>
      obtain rfl := Std.LawfulEqCmp.eq_of_compare heq
      obtain rfl : v' = w := by simpa [lookup] using h
      simp only [List.countP_cons]
      omega
    · next hgt =>
      have h' : lookup k rest = some w := by simpa [lookup, hgt] using h
      have := countP_put_of_lookup p (v := v) hs.2 h'
      simp only [List.countP_cons]
      omega

theorem countP_insert (p : κ × α → Bool) (t : Table κ α) {k : κ} {v w : α}
    (h : t.get? k = some w) :
    (t.insert k v).entries.countP p + (if p (k, w) then 1 else 0) =
      t.entries.countP p + (if p (k, v) then 1 else 0) :=
  countP_put_of_lookup p t.ascending h

omit [Std.TransOrd κ] [Std.LawfulEqOrd κ] in
theorem countP_erase_le (p : κ × α → Bool) (t : Table κ α) (k : κ) :
    (t.erase k).entries.countP p ≤ t.entries.countP p :=
  List.filter_sublist.countP_le

end Counting

end NgapProcedures.Table
