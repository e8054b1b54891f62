import Calculator.Proofs.Grammar.Standing

/-! Operands and what stands around them. Main statements: wherever an operand stands in a
formula it is a phrase of its own, so that anything with the same tree may take its place, and
an operator outside all parentheses stands between phrases and never within an operand. -/

namespace Calculator.Grammar

theorem prefix_append_iff {α : Type} {begun front back : List α} :
    begun <+: front ++ back ↔
      begun <+: front ∨ ∃ inside, inside <+: back ∧ begun = front ++ inside := by
  constructor
  · intro begins
    cases List.prefix_or_prefix_of_prefix begins (List.prefix_append front back) with
    | inl within => exact Or.inl within
    | inr beyond =>
      obtain ⟨inside, rfl⟩ := beyond
      exact Or.inr ⟨inside, (List.prefix_append_right_inj front).1 begins, rfl⟩
  · rintro (within | ⟨inside, within, rfl⟩)
    · exact within.trans (List.prefix_append front back)
    · exact (List.prefix_append_right_inj front).2 within

theorem balance_leftParen_cons (kinds : List Token.Kind) :
    balance (.leftParen :: kinds) = balance kinds + 1 := by
  have opening : balance [.leftParen] = 1 := by decide
  rw [balance_cons, opening, Int.add_comm]

theorem balance_operator_cons (operator : Operator) (kinds : List Token.Kind) :
    balance (.operator operator :: kinds) = balance kinds := by
  have neutral : balance [.operator operator] = 0 := rfl
  rw [balance_cons, neutral, Int.zero_add]

theorem balance_pos_of_enclosed {inside begun : List Token.Kind}
    (nested : ∀ front, front <+: inside → 0 ≤ balance front)
    (begins : begun <+: .leftParen :: inside) (something : begun ≠ []) : 0 < balance begun := by
  rcases List.prefix_cons_iff.1 begins with rfl | ⟨front, rfl, within⟩
  · exact absurd rfl something
  · have opened := nested front within
    rw [balance_leftParen_cons]
    omega

theorem Derives.balance_nonneg {phrase : Phrase} {kinds front : List Token.Kind} {tree : Expr}
    (derived : Derives phrase kinds tree) (begins : front <+: kinds) : 0 ≤ balance front := by
  induction derived generalizing front with
  | integer value =>
    rcases List.prefix_cons_iff.1 begins with rfl | ⟨none, rfl, empty⟩
    · decide
    · rw [List.prefix_nil.1 empty]
      exact Int.le_refl 0
  | parentheses inner ih =>
    rcases List.prefix_concat_iff.1 begins with rfl | within
    · exact Int.le_of_eq inner.parentheses.balance_eq_zero.symm
    · by_cases something : front = []
      · rw [something]
        decide
      · exact Int.le_of_lt (balance_pos_of_enclosed (fun _ => ih) within something)
  | single inner ih => exact ih begins
  | joined operator left right leftIH rightIH =>
    rcases prefix_append_iff.1 begins with inLeft | ⟨front, within, rfl⟩
    · exact leftIH inLeft
    · rw [balance_append, left.balance_eq_zero, Int.zero_add]
      rcases List.prefix_cons_iff.1 within with rfl | ⟨front, rfl, inRight⟩
      · decide
      · rw [balance_operator_cons]
        exact rightIH inRight

theorem Derives.operand {kinds : List Token.Kind} {tree : Expr} (tier : Tier)
    (derived : Derives .factor kinds tree) : Derives (operand tier) kinds tree := by
  cases tier with
  | sum => exact .single derived
  | product => exact derived

theorem Derives.sum {tier : Tier} {kinds : List Token.Kind} {tree : Expr}
    (derived : Derives (.chain tier) kinds tree) : Derives (.chain .sum) kinds tree := by
  cases tier with
  | sum => exact derived
  | product => exact .single derived

/-- An integer, or a parenthesis with everything up to the one that matches it. -/
inductive Operand : List Token.Kind → Prop
  | integer (value : Value) : Operand [.integer value]
  | group {inside : List Token.Kind} : balance inside = 0 →
      (∀ front, front <+: inside → 0 ≤ balance front) →
      Operand (.leftParen :: inside ++ [.rightParen])

theorem Derives.isOperand {kinds : List Token.Kind} {tree : Expr}
    (derived : Derives .factor kinds tree) : Operand kinds := by
  cases derived with
  | integer value => exact .integer value
  | parentheses inner => exact .group inner.balance_eq_zero fun _ => inner.balance_nonneg

namespace Operand

variable {kinds front back : List Token.Kind}

theorem ne_nil (isOperand : Operand kinds) : kinds ≠ [] := by
  cases isOperand with
  | integer value => exact List.cons_ne_nil _ _
  | group closed nested => exact List.cons_ne_nil _ _

theorem append_ne_operator_cons (isOperand : Operand kinds) (operator : Operator) :
    kinds ++ front ≠ .operator operator :: back := by
  intro same
  cases isOperand with
  | integer value => cases same
  | group closed nested => cases same

theorem balance_eq_zero (isOperand : Operand kinds) : balance kinds = 0 := by
  cases isOperand with
  | integer value => rfl
  | group closed nested =>
    have closing : balance [.rightParen] = -1 := by decide
    rw [List.cons_append, balance_leftParen_cons, balance_append, closed, closing]
    rfl

theorem balance_pos (isOperand : Operand (front ++ back)) (something : front ≠ [])
    (more : back ≠ []) : 0 < balance front := by
  generalize whole : front ++ back = kinds at isOperand
  cases isOperand with
  | integer value =>
    rcases List.append_eq_singleton_iff.1 whole with ⟨none, -⟩ | ⟨-, none⟩
    · exact absurd none something
    · exact absurd none more
  | group closed nested =>
    have begins : front <+: _ ++ [.rightParen] := whole ▸ List.prefix_append front back
    rcases List.prefix_concat_iff.1 begins with all | within
    · have short := congrArg List.length whole
      rw [all, List.length_append] at short
      have rest : 0 < back.length := List.length_pos_iff.2 more
      omega
    · exact balance_pos_of_enclosed nested within something

end Operand

namespace Operand

variable {front operand back : List Token.Kind}

theorem eq_nil_of_begins (isOperand : Operand operand) (whole : Operand (operand ++ back)) :
    back = [] := by
  refine Decidable.byContradiction fun more => ?_
  have opened := whole.balance_pos isOperand.ne_nil more
  rw [isOperand.balance_eq_zero] at opened
  exact absurd opened (Int.lt_irrefl 0)

theorem eq_nil_of_ends (isOperand : Operand operand) (whole : Operand (front ++ operand)) :
    front = [] := by
  refine Decidable.byContradiction fun more => ?_
  have opened := whole.balance_pos more isOperand.ne_nil
  have total := whole.balance_eq_zero
  rw [balance_append, isOperand.balance_eq_zero] at total
  omega

/-- An operand within a parenthesised one is all of it or stands between its parentheses. -/
theorem within_parentheses {inside : List Token.Kind} (isOperand : Operand operand)
    (whole : Operand (.leftParen :: inside ++ [.rightParen]))
    (split : .leftParen :: inside ++ [.rightParen] = front ++ (operand ++ back)) :
    (front = [] ∧ back = []) ∨ ∃ before behind, front = .leftParen :: before ∧
      back = behind ++ [.rightParen] ∧ inside = before ++ (operand ++ behind) := by
  rcases List.cons_eq_append_iff.1 split with ⟨rfl, begins⟩ | ⟨before, rfl, within⟩
  · rw [split] at whole
    exact Or.inl ⟨rfl, isOperand.eq_nil_of_begins whole⟩
  · rcases List.eq_nil_or_concat back with rfl | ⟨behind, last, rfl⟩
    · rw [split, List.append_nil] at whole
      exact absurd (isOperand.eq_nil_of_ends whole) (List.cons_ne_nil _ _)
    · rw [List.concat_eq_append, ← List.append_assoc, ← List.append_assoc] at within
      obtain ⟨rfl, rfl⟩ := List.append_singleton_inj.1 within
      exact Or.inr ⟨before, behind, rfl, List.concat_eq_append, List.append_assoc _ _ _⟩

theorem beside_operator {left right : List Token.Kind} {operator : Operator}
    (isOperand : Operand operand) (nested : ∀ begun, begun <+: left → 0 ≤ balance begun)
    (closed : balance left = 0)
    (split : left ++ .operator operator :: right = front ++ (operand ++ back)) :
    (∃ behind, left = front ++ (operand ++ behind) ∧
      back = behind ++ .operator operator :: right) ∨
    ∃ before, front = left ++ .operator operator :: before ∧
      right = before ++ (operand ++ back) := by
  rcases List.append_eq_append_iff.1 split with ⟨between, rfl, later⟩ | ⟨begun, rfl, earlier⟩
  · rcases List.cons_eq_append_iff.1 later with ⟨rfl, here⟩ | ⟨before, rfl, rfl⟩
    · exact absurd here (isOperand.append_ne_operator_cons operator)
    · exact Or.inr ⟨before, rfl, rfl⟩
  · rcases List.append_eq_append_iff.1 earlier with ⟨behind, rfl, rfl⟩ | ⟨rest, rfl, later⟩
    · exact Or.inl ⟨behind, rfl, rfl⟩
    · rcases List.cons_eq_append_iff.1 later with ⟨rfl, rfl⟩ | ⟨rest, rfl, rfl⟩
      · refine Or.inl ⟨[], ?_, rfl⟩
        rw [List.append_nil, List.append_nil]
      -- Here the operator would stand within the operand, where a parenthesis is open.
      · have something : begun ≠ [] := by
          rintro rfl
          exact isOperand.append_ne_operator_cons operator (List.append_nil _)
        have opened := isOperand.balance_pos something (List.cons_ne_nil _ _)
        have before := nested front (List.prefix_append front begun)
        rw [balance_append] at closed
        omega

end Operand

section Replacement

variable {phrase : Phrase} {kinds front operand back : List Token.Kind} {tree : Expr}

/-- An operand has a tree of its own in a phrase, and whatever else is derived as a factor with
that tree may take its place. -/
def Replaceable (phrase : Phrase) (front operand back : List Token.Kind) (tree : Expr) : Prop :=
  ∃ inner, Derives .factor operand inner ∧
    ∀ other, Derives .factor other inner → Derives phrase (front ++ (other ++ back)) tree

theorem Derives.replaceable_whole (derived : Derives .factor operand tree) :
    Replaceable .factor [] operand [] tree := by
  refine ⟨tree, derived, fun other same => ?_⟩
  rw [List.nil_append, List.append_nil]
  exact same

theorem Derives.replaceable (derived : Derives phrase kinds tree) (isOperand : Operand operand)
    (split : kinds = front ++ (operand ++ back)) : Replaceable phrase front operand back tree := by
  -- Each rule is the operand itself or leaves it whole in one of its parts.
  induction derived generalizing front back with
  | integer value =>
    have whole : Operand (front ++ (operand ++ back)) := split ▸ .integer value
    rcases List.singleton_eq_append_iff.1 split with ⟨rfl, all⟩ | ⟨-, none⟩
    · obtain rfl := isOperand.eq_nil_of_begins whole
      rw [List.append_nil] at all
      exact all ▸ (Derives.integer value).replaceable_whole
    · exact absurd (List.append_eq_nil_iff.1 none).1 isOperand.ne_nil
  | @parentheses inside tree inner ih =>
    rcases isOperand.within_parentheses inner.parentheses.isOperand split with
      ⟨rfl, rfl⟩ | ⟨before, behind, rfl, rfl, within⟩
    · rw [List.nil_append, List.append_nil] at split
      exact split ▸ inner.parentheses.replaceable_whole
    · obtain ⟨found, derived, replaced⟩ := ih within
      refine ⟨found, derived, fun other same => ?_⟩
      have enclosed := (replaced other same).parentheses
      simpa only [List.append_assoc, List.cons_append] using enclosed
  | single inner ih =>
    obtain ⟨found, derived, replaced⟩ := ih split
    exact ⟨found, derived, fun other same => .single (replaced other same)⟩
  | joined operator leftPart rightPart leftIH rightIH =>
    have beside := isOperand.beside_operator (fun _ => leftPart.balance_nonneg)
      leftPart.balance_eq_zero split
    rcases beside with ⟨behind, inLeft, rfl⟩ | ⟨before, rfl, inRight⟩
    · obtain ⟨found, derived, replaced⟩ := leftIH inLeft
      refine ⟨found, derived, fun other same => ?_⟩
      have joined := Derives.joined operator (replaced other same) rightPart
      simpa only [List.append_assoc] using joined
    · obtain ⟨found, derived, replaced⟩ := rightIH inRight
      refine ⟨found, derived, fun other same => ?_⟩
      have joined := Derives.joined operator leftPart (replaced other same)
      simpa only [List.append_assoc, List.cons_append] using joined

end Replacement
end Calculator.Grammar
