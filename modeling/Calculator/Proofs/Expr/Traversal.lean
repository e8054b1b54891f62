import Calculator.Expr.Levels
import Mathlib.Algebra.BigOperators.Group.List.Basic
import Mathlib.Algebra.GroupWithZero.Nat
import Mathlib.Order.Lattice

/-! The levels of a tree, counted in any order. Main statement: whichever pending subtree is taken
in every turn, a count ends after as many turns as the tree has literals and operators, and what
it has found then is the depth of the tree. -/

namespace Calculator.Expr

namespace Pending

def operands : Pending → List Pending
  | ⟨.literal _, _⟩ => []
  | ⟨.binary _ left right, level⟩ => [⟨left, level + 1⟩, ⟨right, level + 1⟩]

def lowest (item : Pending) : Nat := item.level + item.tree.depth - 1

theorem sum_size_operands (item : Pending) :
    (item.operands.map fun item => item.tree.size).sum + 1 = item.tree.size := by
  obtain ⟨tree, level⟩ := item
  cases tree with
  | literal value => rfl
  | binary operator left right => simp [operands, size]

theorem lowest_eq (item : Pending) :
    item.lowest = (item.operands.map lowest).foldr max item.level := by
  obtain ⟨tree, level⟩ := item
  cases tree with
  | literal value => rfl
  | binary operator left right =>
    simp only [lowest, operands, depth, List.map_cons, List.map_nil, List.foldr_cons,
      List.foldr_nil]
    omega

end Pending

structure Count where
  pending : List Pending
  met : Nat

namespace Count

/-- One turn takes a pending subtree, whichever it is, counts its level, and puts its operands
anywhere among those that are left. -/
inductive Turn : Count → Count → Prop
  | take {before rest after : List Pending} {item : Pending} {met : Nat} :
      before.Perm (item :: rest) → after.Perm (item.operands ++ rest) →
      Turn ⟨before, met⟩ ⟨after, max met item.level⟩

inductive Reached (tree : Expr) : Nat → Count → Prop
  | start : Reached tree 0 ⟨[⟨tree, 1⟩], 0⟩
  | turn {turns : Nat} {count next : Count} : Reached tree turns count → Turn count next →
      Reached tree (turns + 1) next

def remaining (count : Count) : Nat := (count.pending.map fun item => item.tree.size).sum

/-- The deepest level that will have been met when nothing is pending any more. -/
def outcome (count : Count) : Nat := (count.pending.map Pending.lowest).foldr max count.met

variable {tree : Expr} {turns : Nat} {count next : Count}

theorem Turn.remaining_eq (turn : Turn count next) : next.remaining + 1 = count.remaining := by
  obtain @⟨before, rest, after, item, met, taken, put⟩ := turn
  have sizes := item.sum_size_operands
  unfold remaining
  rw [(taken.map _).sum_eq, (put.map _).sum_eq, List.map_append, List.sum_append, List.map_cons,
    List.sum_cons]
  omega

theorem Turn.outcome_eq (turn : Turn count next) : next.outcome = count.outcome := by
  obtain @⟨before, rest, after, item, met, taken, put⟩ := turn
  unfold outcome
  calc (after.map Pending.lowest).foldr max (max met item.level)
    _ = ((item.operands ++ rest).map Pending.lowest).foldr max (max met item.level) :=
      (put.map _).foldr_eq _
    _ = (item.operands.map Pending.lowest).foldr max
        ((rest.map Pending.lowest).foldr max (max met item.level)) := by
      rw [List.map_append, List.foldr_append]
    _ = max item.lowest ((rest.map Pending.lowest).foldr max met) := by
      rw [List.foldr_assoc, max_comm, List.foldr_assoc, ← item.lowest_eq]
    _ = (before.map Pending.lowest).foldr max met := ((taken.map _).foldr_eq _).symm

theorem exists_turn (more : count.pending ≠ []) : ∃ next, Turn count next := by
  obtain ⟨pending, met⟩ := count
  obtain ⟨item, rest, rfl⟩ := List.exists_cons_of_ne_nil more
  exact ⟨_, .take (.refl _) (.refl _)⟩

theorem remaining_eq_zero_iff : count.remaining = 0 ↔ count.pending = [] := by
  obtain ⟨pending, met⟩ := count
  cases pending with
  | nil => exact iff_of_true rfl rfl
  | cons item rest =>
    have something := item.tree.size_pos
    refine iff_of_false ?_ (List.cons_ne_nil _ _)
    rw [remaining, List.map_cons, List.sum_cons]
    omega

namespace Reached

theorem turns_add (reached : Reached tree turns count) :
    turns + count.remaining = tree.size := by
  induction reached with
  | start => simp [remaining]
  | turn earlier turn ih =>
    have looked := turn.remaining_eq
    omega

theorem outcome_eq (reached : Reached tree turns count) : count.outcome = tree.depth := by
  induction reached with
  | start =>
    simp only [outcome, Pending.lowest, List.map_cons, List.map_nil, List.foldr_cons,
      List.foldr_nil]
    omega
  | turn earlier turn ih => exact turn.outcome_eq.trans ih

theorem deepest {pending : List Pending} {met : Nat}
    (reached : Reached tree turns ⟨pending, met⟩) :
    ∃ total, Reached tree total ⟨[], Expr.deepest pending met⟩ := by
  -- Taking the subtrees one by one from the front is one order among others.
  induction pending, met using Expr.deepest.induct generalizing turns with
  | case1 met =>
    rw [Expr.deepest]
    exact ⟨turns, reached⟩
  | case2 value level rest met ih =>
    rw [Expr.deepest]
    exact ih (reached.turn (.take (.refl _) (.refl _)))
  | case3 operator left right level rest met ih =>
    rw [Expr.deepest]
    exact ih (reached.turn (.take (.refl _) (.swap _ _ _)))

end Reached
end Count

/-- The count of the levels of a tree is one for a literal, and for an operation one more than the
larger count of its operands. It does not depend on the order in which the pending subtrees are
taken: every order comes to an end after one turn for each literal and operator, and has met the
same level then. -/
theorem levels_in_any_order :
    (∀ value, (literal value).levels = 1) ∧
    (∀ operator left right,
      (binary operator left right).levels = 1 + max left.levels right.levels) ∧
    ∀ tree : Expr, Count.Reached tree tree.size ⟨[], tree.levels⟩ ∧
      ∀ turns count, Count.Reached tree turns count →
        turns ≤ tree.size ∧
        (count.pending ≠ [] → ∃ next, Count.Turn count next) ∧
        (count.pending = [] ↔ turns = tree.size) ∧
        (count.pending = [] → count.met = tree.levels) := by
  refine ⟨fun value => ?_, fun operator left right => ?_, fun tree => ⟨?loop, ?orders⟩⟩
  · rw [levels_eq_depth, depth]
  · rw [levels_eq_depth, levels_eq_depth, levels_eq_depth, depth, Nat.add_comm]
  case loop =>
    obtain ⟨total, done⟩ := (Count.Reached.start : Count.Reached tree 0 _).deepest
    have turns : total = tree.size := done.turns_add
    rwa [turns] at done
  case orders =>
    intro turns count reached
    have counted := reached.turns_add
    have ended : count.remaining = 0 ↔ count.pending = [] := Count.remaining_eq_zero_iff
    refine ⟨by omega, Count.exists_turn, ?_, fun done => ?_⟩
    · rw [← ended]
      omega
    · have same := reached.outcome_eq
      rw [Count.outcome, done] at same
      rw [levels_eq_depth, ← same]
      rfl

end Calculator.Expr
