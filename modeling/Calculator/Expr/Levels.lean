import Calculator.Expr

/-! The number of levels of a tree, counted with a list of pending subtrees. Main
statement: the count is the depth of the tree. -/

namespace Calculator.Expr

structure Pending where
  tree : Expr
  level : Nat

/-- The deepest level met so far while the pending subtrees are taken one by one. -/
def deepest : List Pending → Nat → Nat
  | [], deepestSoFar => deepestSoFar
  | ⟨.literal _, level⟩ :: pending, deepestSoFar => deepest pending (max deepestSoFar level)
  | ⟨.binary _ left right, level⟩ :: pending, deepestSoFar =>
      deepest (⟨right, level + 1⟩ :: ⟨left, level + 1⟩ :: pending) (max deepestSoFar level)
termination_by pending => pending.foldr (fun item total => item.tree.size + total) 0
decreasing_by all_goals simp only [List.foldr_cons, size]; omega

def levels (tree : Expr) : Nat := deepest [⟨tree, 1⟩] 0

theorem deepest_cons (tree : Expr) (level : Nat) (pending : List Pending)
    (deepestSoFar : Nat) :
    deepest (⟨tree, level + 1⟩ :: pending) deepestSoFar =
      deepest pending (max deepestSoFar (level + tree.depth)) := by
  induction tree generalizing level pending deepestSoFar with
  | literal value => simp [deepest, depth]
  | binary operator left right leftIH rightIH =>
    rw [deepest, rightIH, leftIH]
    congr 1
    simp only [depth]
    omega

theorem levels_eq_depth (tree : Expr) : tree.levels = tree.depth := by
  rw [levels, deepest_cons, deepest]
  omega

end Calculator.Expr
