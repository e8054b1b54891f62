import Calculator.Grammar

/-! Chains as repetitions: an operand and any number of further ones, each a link behind its
operator. Main statement: what the grammar derives as a chain is exactly what is written as a
repetition, and the tree folds the repetition to the left. -/

namespace Calculator.Grammar

structure Link where
  operator : Operator
  kinds : List Token.Kind
  tree : Expr

def Link.written (link : Link) : List Token.Kind := .operator link.operator :: link.kinds

def Link.join (left : Expr) (link : Link) : Expr := .binary link.operator left link.tree

def Link.Fits (tier : Tier) (link : Link) : Prop :=
  link.operator.tier = tier ∧ Derives (operand tier) link.kinds link.tree

/-- An operand and any number of links behind it, whose tree is folded to the left. -/
def Repeats (tier : Tier) (kinds : List Token.Kind) (tree : Expr) : Prop :=
  ∃ (first : List Token.Kind) (firstTree : Expr) (links : List Link),
    Derives (operand tier) first firstTree ∧ (∀ link ∈ links, link.Fits tier) ∧
      kinds = first ++ links.flatMap Link.written ∧ tree = links.foldl Link.join firstTree

theorem derives_links {tier : Tier} {kinds : List Token.Kind} {tree : Expr}
    (derived : Derives (.chain tier) kinds tree) (links : List Link)
    (fit : ∀ link ∈ links, link.Fits tier) :
    Derives (.chain tier) (kinds ++ links.flatMap Link.written) (links.foldl Link.join tree) := by
  induction links generalizing kinds tree with
  | nil =>
    rw [List.flatMap_nil, List.append_nil]
    exact derived
  | cons link links ih =>
    have first := fit link List.mem_cons_self
    have others : ∀ other ∈ links, other.Fits tier :=
      fun other member => fit other (List.mem_cons_of_mem _ member)
    obtain ⟨operator, right, rightTree⟩ := link
    obtain ⟨rfl, rightDerived⟩ := first
    have longer := ih (Derives.joined operator derived rightDerived) others
    rw [List.flatMap_cons, ← List.append_assoc]
    exact longer

theorem derives_chain_iff {tier : Tier} {kinds : List Token.Kind} {tree : Expr} :
    Derives (.chain tier) kinds tree ↔ Repeats tier kinds tree := by
  constructor
  · intro derived
    generalize named : Phrase.chain tier = phrase at derived
    induction derived with
    | integer value => cases named
    | parentheses inner ih => cases named
    | @single _ kinds tree inner ih =>
      cases named
      refine ⟨kinds, tree, [], inner, ?_, ?_, rfl⟩
      · intro link member
        cases member
      · rw [List.flatMap_nil, List.append_nil]
    | @joined left right leftTree rightTree operator leftPart rightPart leftIH rightIH =>
      cases named
      obtain ⟨first, firstTree, links, derived, fit, rfl, rfl⟩ := leftIH rfl
      refine ⟨first, firstTree, links ++ [⟨operator, right, rightTree⟩], derived, ?_, ?_, ?_⟩
      · intro link member
        cases List.mem_append.1 member with
        | inl earlier => exact fit link earlier
        | inr last =>
          rw [List.mem_singleton.1 last]
          exact ⟨rfl, rightPart⟩
      · rw [List.flatMap_append, List.flatMap_singleton, List.append_assoc, Link.written]
      · rw [List.foldl_append]
        rfl
  · intro repetition
    obtain ⟨first, firstTree, links, derived, fit, rfl, rfl⟩ := repetition
    exact derives_links (.single derived) links fit

end Calculator.Grammar
