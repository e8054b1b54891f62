import Calculator.Grammar
import Calculator.Parser

/-! How far the tokens of a formula have come, seen without a tree. All that matters for what
may follow is whether an operand is due and how many parentheses are open. Main statements:
a phrase leads from where an operand is due to where it has been completed, and it can be
walked through exactly if its parentheses stay within the limit. -/

namespace Calculator.Grammar

theorem balance_append (front back : List Token.Kind) :
    balance (front ++ back) = balance front + balance back := by
  simp only [balance, List.count_append]
  omega

theorem balance_cons (kind : Token.Kind) (back : List Token.Kind) :
    balance (kind :: back) = balance [kind] + balance back :=
  balance_append [kind] back

/-- A place between two tokens of a formula. -/
structure Standing where
  operandDue : Bool
  opened : Nat
deriving DecidableEq, Repr

namespace Standing

def start : Standing := ⟨true, 0⟩

/-- Goes past one token, if any formula has it there. The end of the input is never passed. -/
def step? : Standing → Token.Kind → Option Standing
  | ⟨true, opened⟩, .integer _ => some ⟨false, opened⟩
  | ⟨true, opened⟩, .leftParen =>
      if opened = maxNesting then none else some ⟨true, opened + 1⟩
  | ⟨false, opened⟩, .operator _ => some ⟨true, opened⟩
  | ⟨false, opened + 1⟩, .rightParen => some ⟨false, opened⟩
  | _, _ => none

def walk? (standing : Standing) (kinds : List Token.Kind) : Option Standing :=
  kinds.foldlM step? standing

@[simp] theorem walk?_nil (standing : Standing) : standing.walk? [] = some standing := rfl

theorem walk?_cons (standing : Standing) (kind : Token.Kind) (kinds : List Token.Kind) :
    standing.walk? (kind :: kinds) =
      (standing.step? kind).bind fun next => next.walk? kinds := by
  rw [walk?, List.foldlM_cons]
  rfl

theorem walk?_append (standing : Standing) (front back : List Token.Kind) :
    standing.walk? (front ++ back) =
      (standing.walk? front).bind fun next => next.walk? back := by
  rw [walk?, List.foldlM_append]
  rfl

theorem walk?_append_eq_some {standing next : Standing} {front back : List Token.Kind}
    (walked : standing.walk? (front ++ back) = some next) :
    ∃ between, standing.walk? front = some between ∧ between.walk? back = some next := by
  rw [walk?_append] at walked
  exact Option.bind_eq_some_iff.1 walked

theorem walk?_leftParen {opened : Nat} {next : Standing} {kinds : List Token.Kind} :
    walk? ⟨true, opened⟩ (.leftParen :: kinds) = some next ↔
      opened ≠ maxNesting ∧ walk? ⟨true, opened + 1⟩ kinds = some next := by
  rw [walk?_cons, step?]
  split
  · rename_i full
    exact ⟨fun none => (nomatch none), fun more => absurd full more.1⟩
  · rename_i more
    exact ⟨fun walked => ⟨more, walked⟩, And.right⟩

theorem opened_of_step? {standing next : Standing} {kind : Token.Kind}
    (step : standing.step? kind = some next) :
    (next.opened : Int) = standing.opened + balance [kind] ∧
      (standing.opened ≤ maxNesting → next.opened ≤ maxNesting) := by
  unfold step? at step
  split at step
  · cases step
    exact ⟨(Int.add_zero _).symm, id⟩
  · rename_i opened
    split at step
    · cases step
    · rename_i more
      cases step
      exact ⟨rfl, fun within => Nat.lt_of_le_of_ne within more⟩
  · cases step
    exact ⟨(Int.add_zero _).symm, id⟩
  · rename_i opened
    cases step
    refine ⟨?_, fun within => Nat.le_of_succ_le within⟩
    have closing : balance [.rightParen] = -1 := by decide
    show (opened : Int) = (opened + 1 : Nat) + balance [.rightParen]
    omega
  · cases step

theorem opened_of_walk? {standing next : Standing} {kinds : List Token.Kind}
    (walked : standing.walk? kinds = some next) :
    (next.opened : Int) = standing.opened + balance kinds ∧
      (standing.opened ≤ maxNesting → next.opened ≤ maxNesting) := by
  induction kinds generalizing standing with
  | nil =>
    cases walked
    exact ⟨(Int.add_zero _).symm, id⟩
  | cons kind kinds ih =>
    rw [walk?_cons] at walked
    obtain ⟨between, step, later⟩ := Option.bind_eq_some_iff.1 walked
    have first := opened_of_step? step
    have second := ih later
    refine ⟨?counted, fun within => second.2 (first.2 within)⟩
    case counted =>
      calc (next.opened : Int)
        _ = between.opened + balance kinds := second.1
        _ = standing.opened + balance [kind] + balance kinds := by rw [first.1]
        _ = standing.opened + (balance [kind] + balance kinds) := Int.add_assoc _ _ _
        _ = standing.opened + balance (kind :: kinds) := by rw [balance_cons kind kinds]

theorem within_of_walk? {next : Standing} {kinds : List Token.Kind}
    (walked : start.walk? kinds = some next) : Within maxNesting kinds := by
  intro front begins
  obtain ⟨back, rfl⟩ := begins
  obtain ⟨between, reached, -⟩ := walk?_append_eq_some walked
  obtain ⟨counted, bounded⟩ := opened_of_walk? reached
  have fits := bounded (Nat.zero_le _)
  have noneOpen : start.opened = 0 := by decide
  omega

end Standing

open Standing

/-- A phrase that is walked through is completed, with as many parentheses open as before. -/
theorem Derives.standing_eq {phrase : Phrase} {kinds : List Token.Kind} {tree : Expr}
    (derived : Derives phrase kinds tree) {opened : Nat} {next : Standing}
    (walked : walk? ⟨true, opened⟩ kinds = some next) : next = ⟨false, opened⟩ := by
  induction derived generalizing opened next with
  | integer value => exact (Option.some.inj walked).symm
  | parentheses inner ih =>
    obtain ⟨behind, passed, walked⟩ := walk?_append_eq_some walked
    obtain rfl := ih (walk?_leftParen.1 passed).2
    exact (Option.some.inj walked).symm
  | single inner ih => exact ih walked
  | joined operator left right leftIH rightIH =>
    obtain ⟨between, passed, walked⟩ := walk?_append_eq_some walked
    obtain rfl := leftIH passed
    exact rightIH walked

theorem Derives.walk?_eq {phrase : Phrase} {kinds : List Token.Kind} {tree : Expr}
    (derived : Derives phrase kinds tree) {opened : Nat}
    (fits : ∀ front, front <+: kinds → opened + balance front ≤ maxNesting) :
    walk? ⟨true, opened⟩ kinds = some ⟨false, opened⟩ := by
  induction derived generalizing opened with
  | integer value => rfl
  | @parentheses inside tree inner ih =>
    have first := fits [.leftParen] ⟨inside ++ [.rightParen], rfl⟩
    have opening : balance [.leftParen] = 1 := by decide
    have more : opened ≠ maxNesting := by omega
    have passed : walk? ⟨true, opened + 1⟩ inside = some ⟨false, opened + 1⟩ := by
      refine ih fun front begins => ?_
      have longer := fits (.leftParen :: front)
        (List.cons_prefix_cons.2 ⟨rfl, begins.trans (List.prefix_append _ _)⟩)
      rw [balance_cons] at longer
      omega
    rw [walk?_append, walk?_leftParen.2 ⟨more, passed⟩]
    rfl
  | single inner ih => exact ih fits
  | @joined left right leftTree rightTree operator leftPart rightPart leftIH rightIH =>
    have passed : walk? ⟨true, opened⟩ left = some ⟨false, opened⟩ :=
      leftIH fun front begins => fits front (begins.trans (List.prefix_append _ _))
    rw [walk?_append, passed]
    refine rightIH fun front begins => ?_
    have longer := fits (left ++ .operator operator :: front)
      ((List.prefix_append_right_inj left).2 (List.cons_prefix_cons.2 ⟨rfl, begins⟩))
    rw [balance_append, balance_cons, leftPart.balance_eq_zero] at longer
    have neutral : balance [.operator operator] = 0 := rfl
    omega

/-- The limit on open parentheses is what a derived formula needs to be walked through. -/
theorem Derives.within_iff {phrase : Phrase} {kinds : List Token.Kind} {tree : Expr}
    (derived : Derives phrase kinds tree) :
    Within maxNesting kinds ↔ start.walk? kinds = some ⟨false, 0⟩ := by
  constructor
  · intro within
    refine derived.walk?_eq fun front begins => ?_
    have bounded := within front begins
    omega
  · exact within_of_walk?

/-- A whole formula with its tree, in which nowhere too many parentheses are open. -/
def Sentence (kinds : List Token.Kind) (tree : Expr) : Prop :=
  Derives (.chain .sum) kinds tree ∧ Within maxNesting kinds

theorem sentence_iff {kinds : List Token.Kind} {tree : Expr} :
    Sentence kinds tree ↔
      Derives (.chain .sum) kinds tree ∧ start.walk? kinds = some ⟨false, 0⟩ :=
  and_congr_right Derives.within_iff

end Calculator.Grammar
