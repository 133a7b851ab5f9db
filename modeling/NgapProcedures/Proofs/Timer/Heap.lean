import NgapProcedures.Timer.Heap

/-! A merge keeps the elements and the heap order, so that the top of a heap is least and every pop
leaves a heap of the others. -/

namespace NgapProcedures.Heap

variable {α : Type} (le : α → α → Bool)

/-- every element comes before the ones below it -/
def Ordered : Heap α → Prop
  | leaf => True
  | node l x r => (∀ y ∈ l.toList ++ r.toList, le x y = true) ∧ l.Ordered ∧ r.Ordered

theorem toList_mergeNode_perm (left : Heap α) (top : α) {mergeRight : Heap α → Heap α}
    {right : List α} (h : ∀ b, (mergeRight b).toList.Perm (right ++ b.toList)) :
    ∀ b, (mergeNode le left top mergeRight b).toList.Perm
      (top :: (left.toList ++ right) ++ b.toList)
  | leaf => by
    have hr := h leaf
    simp only [toList, List.append_nil] at hr
    simp only [mergeNode, toList, List.append_nil, List.perm_cons]
    exact (hr.append_right _).trans List.perm_append_comm
  | node l x r => by
    unfold mergeNode
    split
    · simp only [toList, List.cons_append, List.perm_cons]
      refine ((h (node l x r)).append_right _).trans ?_
      refine List.perm_append_comm.trans ?_
      rw [← List.append_assoc]
      rfl
    · have ih := toList_mergeNode_perm left top h r
      simp only [toList]
      refine (List.Perm.cons x (ih.append_right _)).trans ?_
      refine List.Perm.trans ?_ List.perm_middle.symm
      rw [List.perm_cons, List.append_assoc]
      exact List.perm_append_comm.append_left _

theorem toList_merge_perm : ∀ a b : Heap α, (merge le a b).toList.Perm (a.toList ++ b.toList)
  | leaf, b => List.Perm.refl _
  | node l x r, b => by
    simpa [merge, toList] using
      toList_mergeNode_perm le l x (toList_merge_perm r) b

theorem toList_insert_perm (x : α) (h : Heap α) : (h.insert le x).toList.Perm (x :: h.toList) :=
  toList_merge_perm le (node leaf x leaf) h

theorem toList_pop?_perm {h h' : Heap α} {x : α} (hp : h.pop? le = some (x, h')) :
    h.toList.Perm (x :: h'.toList) := by
  cases h with
  | leaf => simp [pop?] at hp
  | node l y r =>
    obtain ⟨rfl, rfl⟩ : y = x ∧ merge le l r = h' := by simpa [pop?] using hp
    exact (toList_merge_perm le l r).symm.cons _

theorem eq_leaf_of_pop?_eq_none {h : Heap α} (hp : h.pop? le = none) : h = leaf := by
  cases h with
  | leaf => rfl
  | node l x r => simp [pop?] at hp

section

variable {le} (total : ∀ a b, le a b = false → le b a = true)
  (trans : ∀ a b c, le a b = true → le b c = true → le a c = true)

include total trans

theorem ordered_mergeNode {left : Heap α} {top : α} {mergeRight : Heap α → Heap α}
    {right : List α} (h : ∀ b, (mergeRight b).toList.Perm (right ++ b.toList))
    (ho : ∀ b, b.Ordered le → (mergeRight b).Ordered le) (hl : left.Ordered le)
    (htop : ∀ y ∈ left.toList ++ right, le top y = true) :
    ∀ b, b.Ordered le → (mergeNode le left top mergeRight b).Ordered le
  | leaf, hb => by
    refine ⟨fun y hy => htop y ?_, ho leaf hb, hl⟩
    rcases List.mem_append.1 hy with hy | hy
    · exact List.mem_append_right _ (by simpa [toList] using (h leaf).subset hy)
    · exact List.mem_append_left _ hy
  | node l x r, hb => by
    unfold mergeNode
    split
    · next hle =>
      refine ⟨fun y hy => ?_, ho _ hb, hl⟩
      rcases List.mem_append.1 hy with hy | hy
      · rcases List.mem_append.1 ((h _).subset hy) with hy | hy
        · exact htop y (List.mem_append_right _ hy)
        · rcases List.mem_cons.1 hy with rfl | hy
          · exact hle
          · exact trans _ _ _ hle (hb.1 y hy)
      · exact htop y (List.mem_append_left _ hy)
    · next hle =>
      have hx : le x top = true := total _ _ (by simpa using hle)
      refine ⟨fun y hy => ?_, ordered_mergeNode h ho hl htop r hb.2.2, hb.2.1⟩
      rcases List.mem_append.1 hy with hy | hy
      · rcases List.mem_append.1 ((toList_mergeNode_perm le left top h r).subset hy) with hy | hy
        · rcases List.mem_cons.1 hy with rfl | hy
          · exact hx
          · exact trans _ _ _ hx (htop y hy)
        · exact hb.1 y (List.mem_append_right _ hy)
      · exact hb.1 y (List.mem_append_left _ hy)

theorem ordered_merge : ∀ a b : Heap α, a.Ordered le → b.Ordered le → (merge le a b).Ordered le
  | leaf, _, _, hb => hb
  | node _ _ r, b, ha, hb =>
    ordered_mergeNode total trans (toList_merge_perm le r)
      (fun c hc => ordered_merge r c ha.2.2 hc) ha.2.1 ha.1 b hb

theorem ordered_insert (x : α) {h : Heap α} (ho : h.Ordered le) : (h.insert le x).Ordered le :=
  ordered_merge total trans _ _ ⟨by simp [toList], trivial, trivial⟩ ho

theorem ordered_of_pop? {h h' : Heap α} {x : α} (hp : h.pop? le = some (x, h'))
    (ho : h.Ordered le) : h'.Ordered le ∧ ∀ y ∈ h'.toList, le x y = true := by
  cases h with
  | leaf => simp [pop?] at hp
  | node l y r =>
    obtain ⟨rfl, rfl⟩ : y = x ∧ merge le l r = h' := by simpa [pop?] using hp
    refine ⟨ordered_merge total trans l r ho.2.1 ho.2.2, fun z hz => ho.1 z ?_⟩
    exact (toList_merge_perm le l r).subset hz

end

end NgapProcedures.Heap
