/-! Skew heaps: binary trees whose least element, by an order given as a test, stands at the top. -/

namespace NgapProcedures

inductive Heap (α : Type) where
  | leaf
  | node (left : Heap α) (top : α) (right : Heap α)
  deriving Inhabited, DecidableEq

namespace Heap

variable {α : Type}

def toList : Heap α → List α
  | leaf => []
  | node l x r => x :: (l.toList ++ r.toList)

def size : Heap α → Nat
  | leaf => 0
  | node l _ r => l.size + r.size + 1

/-- merges a node with left child `left` and element `top`, whose right child `mergeRight` merges,
with another heap -/
def mergeNode (le : α → α → Bool) (left : Heap α) (top : α) (mergeRight : Heap α → Heap α) :
    Heap α → Heap α
  | leaf => node (mergeRight leaf) top left
  | node l x r =>
    if le top x then node (mergeRight (node l x r)) top left
    else node (mergeNode le left top mergeRight r) x l

def merge (le : α → α → Bool) : Heap α → Heap α → Heap α
  | leaf, h => h
  | node l x r, h => mergeNode le l x (merge le r) h

def insert (le : α → α → Bool) (x : α) (h : Heap α) : Heap α := merge le (node leaf x leaf) h

def pop? (le : α → α → Bool) : Heap α → Option (α × Heap α)
  | leaf => none
  | node l x r => some (x, merge le l r)

theorem size_mergeNode (le : α → α → Bool) (left : Heap α) (top : α)
    (mergeRight : Heap α → Heap α) (n : Nat) (h : ∀ b, (mergeRight b).size = n + b.size) :
    ∀ b, (mergeNode le left top mergeRight b).size = left.size + n + 1 + b.size
  | leaf => by simp only [mergeNode, size, h]; omega
  | node l x r => by
    unfold mergeNode
    split
    · simp only [size, h]; omega
    · simp only [size, size_mergeNode le left top mergeRight n h r]; omega

theorem size_merge (le : α → α → Bool) : ∀ a b : Heap α, (merge le a b).size = a.size + b.size
  | leaf, b => by simp [merge, size]
  | node l x r, b => by
    simp only [merge, size_mergeNode le l x (merge le r) r.size (size_merge le r), size]

theorem size_of_pop? {le : α → α → Bool} {h h' : Heap α} {x : α}
    (hp : h.pop? le = some (x, h')) : h'.size + 1 = h.size := by
  cases h with
  | leaf => simp [pop?] at hp
  | node l y r =>
    obtain ⟨-, rfl⟩ : y = x ∧ merge le l r = h' := by simpa [pop?] using hp
    simp [size, size_merge]

end Heap

end NgapProcedures
