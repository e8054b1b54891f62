import Calculator.Proofs.Grammar.Operand
import Calculator.Proofs.Parser.Acceptance
import Mathlib.Control.Monad.Basic

/-! Which operator of a formula is the root of its tree. Main statement: it is the last `+` or
`-` outside all parentheses, or the last `*` or `/` there if there is no such sign, and its
operands are what is read in front of it and behind it; without an operator outside all
parentheses the formula is an integer or stands in parentheses as a whole. -/

namespace Calculator
open Grammar

namespace Grammar

def Outside (tier : Tier) (kinds : List Token.Kind) : Prop :=
  ∃ front operator back, kinds = front ++ .operator operator :: back ∧ operator.tier = tier ∧
    balance front = 0

/-- The operator between two parts is of a tier, stands outside all parentheses and is the last
one of this kind. -/
structure LastOutside (tier : Tier) (front : List Token.Kind) (operator : Operator)
    (back : List Token.Kind) : Prop where
  tier_eq : operator.tier = tier
  balance_eq : balance front = 0
  last : ¬Outside tier back

theorem Operand.not_outside {kinds : List Token.Kind} (isOperand : Operand kinds) (tier : Tier) :
    ¬Outside tier kinds := by
  intro outside
  obtain ⟨front, operator, back, rfl, -, closed⟩ := outside
  by_cases something : front = []
  · subst something
    exact isOperand.append_ne_operator_cons operator (List.append_nil _)
  · have opened := isOperand.balance_pos something (List.cons_ne_nil _ _)
    omega

theorem outside_append {tier : Tier} {left right : List Token.Kind} {operator : Operator}
    (closed : balance left = 0) (outside : Outside tier (left ++ .operator operator :: right)) :
    Outside tier left ∨ operator.tier = tier ∨ Outside tier right := by
  obtain ⟨front, other, back, split, same, begun⟩ := outside
  rcases List.append_eq_append_iff.1 split with ⟨between, rfl, later⟩ | ⟨rest, rfl, later⟩
  · rcases List.cons_eq_append_iff.1 later with ⟨rfl, here⟩ | ⟨inside, rfl, rfl⟩
    · cases here
      exact Or.inr (Or.inl same)
    · rw [balance_append, closed, balance_operator_cons, Int.zero_add] at begun
      exact Or.inr (Or.inr ⟨inside, other, back, rfl, same, begun⟩)
  · rcases List.cons_eq_append_iff.1 later with ⟨rfl, here⟩ | ⟨inside, rfl, rfl⟩
    · cases here
      exact Or.inr (Or.inl same)
    · exact Or.inl ⟨front, other, inside, rfl, same, begun⟩

section Derivation

variable {phrase : Phrase} {kinds : List Token.Kind} {tree : Expr}

/-- What has operators outside all parentheses is a chain: of their tier, or of the sums that
products of their tier are part of. -/
theorem Derives.phrase_of_outside (derived : Derives phrase kinds tree) {tier : Tier}
    (outside : Outside tier kinds) : phrase = .chain .sum ∨ phrase = .chain tier := by
  have widen {other : Tier} (part : Grammar.operand other = .chain .sum ∨
      Grammar.operand other = .chain tier) :
      Phrase.chain other = .chain .sum ∨ Phrase.chain other = .chain tier := by
    cases other with
    | sum => exact Or.inl rfl
    | product => rcases part with none | none <;> cases none
  induction derived with
  | integer value => exact absurd outside (Operand.not_outside (.integer value) tier)
  | parentheses inner ih => exact absurd outside (inner.parentheses.isOperand.not_outside tier)
  | single inner ih => exact widen (ih outside)
  | joined operator left right leftIH rightIH =>
    rcases outside_append left.balance_eq_zero outside with inLeft | same | inRight
    · exact leftIH inLeft
    · exact Or.inr (congrArg Phrase.chain same)
    · exact widen (rightIH inRight)

theorem Derives.operand_not_outside {tier : Tier}
    (derived : Derives (Grammar.operand tier) kinds tree) : ¬Outside tier kinds := by
  intro outside
  cases tier <;> rcases derived.phrase_of_outside outside with same | same <;> cases same

/-- A chain without an operator of its tier outside all parentheses is a single operand. Any other
one has its last operator as root. -/
theorem Derives.root_or_single {tier : Tier} (derived : Derives (.chain tier) kinds tree) :
    (∃ front operator back left right, kinds = front ++ .operator operator :: back ∧
      LastOutside tier front operator back ∧ tree = .binary operator left right ∧
        Derives (.chain tier) front left ∧ Derives (Grammar.operand tier) back right) ∨
    ¬Outside tier kinds ∧ Derives (Grammar.operand tier) kinds tree := by
  cases derived with
  | single inner => exact Or.inr ⟨inner.operand_not_outside, inner⟩
  | @joined front back left right operator leftPart rightPart =>
    exact Or.inl ⟨front, operator, back, left, right, rfl,
      ⟨rfl, leftPart.balance_eq_zero, rightPart.operand_not_outside⟩, rfl, leftPart, rightPart⟩

end Derivation

section Within

variable {limit : Nat} {front back inside : List Token.Kind}

theorem Within.of_operator {operator : Operator}
    (within : Within limit (front ++ .operator operator :: back)) (closed : balance front = 0) :
    Within limit front ∧ Within limit back := by
  constructor
  · intro begun begins
    exact within begun (begins.trans (List.prefix_append _ _))
  · intro begun begins
    have longer := within (front ++ .operator operator :: begun)
      ((List.prefix_append_right_inj front).2 (List.cons_prefix_cons.2 ⟨rfl, begins⟩))
    rwa [balance_append, closed, balance_operator_cons, Int.zero_add] at longer

theorem Within.of_parentheses (within : Within limit (.leftParen :: inside ++ [.rightParen])) :
    Within limit inside := by
  intro begun begins
  have longer := within (.leftParen :: begun)
    (List.cons_prefix_cons.2 ⟨rfl, begins.trans (List.prefix_append _ _)⟩)
  rw [balance_leftParen_cons] at longer
  omega

end Within
end Grammar

namespace Parser

def Yields (tokens : List Token) (tree : Expr) : Prop :=
  ∀ position, (Parser.start ⟨tokens, .endOfInput position⟩).formula = .ok tree

def Rooted (tier : Tier) (tokens : List Token) (tree : Expr) : Prop :=
  ∃ front operator position back left right,
    tokens = front ++ ⟨.operator operator, position⟩ :: back ∧
    LastOutside tier (front.map Token.kind) operator (back.map Token.kind) ∧
    tree = .binary operator left right ∧ Yields front left ∧ Yields back right

theorem Rooted.outside {tier : Tier} {tokens : List Token} {tree : Expr}
    (rooted : Rooted tier tokens tree) : Outside tier (tokens.map Token.kind) := by
  obtain ⟨front, operator, position, back, left, right, rfl, last, -, -, -⟩ := rooted
  exact ⟨front.map Token.kind, operator, back.map Token.kind, List.map_append, last.tier_eq,
    last.balance_eq⟩

theorem yields_of_derives {tier : Tier} {tokens : List Token} {tree : Expr}
    (derived : Derives (.chain tier) (tokens.map Token.kind) tree)
    (within : Within maxNesting (tokens.map Token.kind)) : Yields tokens tree :=
  fun position => formula_of_sentence position ⟨derived.sum, within⟩

theorem rooted_of_split {tier : Tier} {tokens : List Token} {front back : List Token.Kind}
    {operator : Operator} {left right : Expr} (within : Within maxNesting (tokens.map Token.kind))
    (split : tokens.map Token.kind = front ++ .operator operator :: back)
    (last : LastOutside tier front operator back) (leftPart : Derives (.chain tier) front left)
    (rightPart : Derives (.chain .sum) back right) :
    Rooted tier tokens (.binary operator left right) := by
  obtain ⟨front, rest, rfl, rfl, behind⟩ := List.map_eq_append_iff.1 split
  obtain ⟨⟨kind, position⟩, back, rfl, sign, rfl⟩ := List.map_eq_cons_iff.1 behind
  obtain rfl : kind = .operator operator := sign
  rw [split] at within
  obtain ⟨leftWithin, rightWithin⟩ := within.of_operator last.balance_eq
  exact ⟨front, operator, position, back, left, right, rfl, last, rfl,
    yields_of_derives leftPart leftWithin, yields_of_derives rightPart rightWithin⟩

theorem integer_or_parentheses {tokens : List Token} {tree : Expr}
    (within : Within maxNesting (tokens.map Token.kind))
    (derived : Derives .factor (tokens.map Token.kind) tree) :
    (∃ value position, tokens = [⟨.integer value, position⟩] ∧ tree = .literal value) ∨
    ∃ position inside position', Yields inside tree ∧
      tokens = ⟨.leftParen, position⟩ :: inside ++ [⟨.rightParen, position'⟩] := by
  generalize shape : tokens.map Token.kind = kinds at within derived
  cases derived with
  | integer value =>
    obtain ⟨⟨kind, position⟩, rfl, same⟩ := List.map_eq_singleton_iff.1 shape
    obtain rfl : kind = .integer value := same
    exact Or.inl ⟨value, position, rfl, rfl⟩
  | parentheses inner =>
    obtain ⟨front, back, rfl, opening, closing⟩ := List.map_eq_append_iff.1 shape
    obtain ⟨⟨kind, position⟩, inside, rfl, first, rfl⟩ := List.map_eq_cons_iff.1 opening
    obtain ⟨⟨kind', position'⟩, rfl, last⟩ := List.map_eq_singleton_iff.1 closing
    obtain rfl : kind = .leftParen := first
    obtain rfl : kind' = .rightParen := last
    exact Or.inr ⟨position, inside, position', yields_of_derives inner within.of_parentheses, rfl⟩

/-- The root of the tree of a formula is the last sign of a sum outside all parentheses, or else
the last sign of a product there, with what is read on both sides as operands. Without any
such sign the formula is an integer or is enclosed in parentheses. -/
theorem formula_rooted {stream : TokenStream} {tree : Expr}
    (inner : ∀ token ∈ stream.tokens, token.kind ≠ .endOfInput)
    (accepted : (Parser.start stream).formula = .ok tree) :
    let kinds := stream.tokens.map Token.kind
    (Outside .sum kinds → Rooted .sum stream.tokens tree) ∧
    (¬Outside .sum kinds → Outside .product kinds → Rooted .product stream.tokens tree) ∧
    (¬Outside .sum kinds → ¬Outside .product kinds →
      (∃ value position, stream.tokens = [⟨.integer value, position⟩] ∧ tree = .literal value) ∨
      ∃ position inside position', Yields inside tree ∧
        stream.tokens = ⟨.leftParen, position⟩ :: inside ++ [⟨.rightParen, position'⟩]) := by
  intro kinds
  have met := formula_meets inner
  rw [accepted] at met
  obtain ⟨-, derived, within⟩ := met
  rcases derived.root_or_single with
    ⟨front, operator, back, left, right, split, last, rfl, leftPart, rightPart⟩ | ⟨none, product⟩
  · have rooted := rooted_of_split within split last leftPart (Derives.sum rightPart)
    exact ⟨fun _ => rooted, fun absent => absurd rooted.outside absent,
      fun absent => absurd rooted.outside absent⟩
  rcases Derives.root_or_single product with
    ⟨front, operator, back, left, right, split, last, rfl, leftPart, rightPart⟩ | ⟨none', factor⟩
  · have rooted := rooted_of_split within split last leftPart (.single (rightPart.operand .sum))
    exact ⟨fun present => absurd present none, fun _ _ => rooted,
      fun _ absent => absurd rooted.outside absent⟩
  · exact ⟨fun present => absurd present none, fun _ present => absurd present none',
      fun _ _ => integer_or_parentheses within factor⟩

/-- Outside parentheses there are two products and two differences here. The second minus is the
root, although a product stands behind it, and sums within parentheses. -/
theorem formula_rooted_difference :
    let stream := (Cursor.start "7-2*(1+3)-4*(5+6)").stream
    let tree := Expr.binary .sub
      (.binary .sub (.literal ⟨7⟩)
        (.binary .mul (.literal ⟨2⟩) (.binary .add (.literal ⟨1⟩) (.literal ⟨3⟩))))
      (.binary .mul (.literal ⟨4⟩) (.binary .add (.literal ⟨5⟩) (.literal ⟨6⟩)))
    (Parser.start stream).formula = .ok tree ∧ Outside .sum (stream.tokens.map Token.kind) ∧
      Rooted .sum stream.tokens tree := by
  intro stream tree
  have accepted : (Parser.start stream).formula = .ok tree := by decide +kernel
  have outside : Outside .sum (stream.tokens.map Token.kind) :=
    ⟨[.integer ⟨7⟩], .sub, (stream.tokens.map Token.kind).drop 2, by decide +kernel, rfl, rfl⟩
  exact ⟨accepted, outside, (formula_rooted (Cursor.start _).kind_ne_endOfInput accepted).1 outside⟩

end Parser
end Calculator
