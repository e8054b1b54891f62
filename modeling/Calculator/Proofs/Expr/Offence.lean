import Calculator.Parser

/-! Where the infix text of a tree is no formula: at the sign of a negative literal, and at a
parenthesis around which too many others are open. Main statements: a text without such a place
is that of a tree without negative literals that is not too deep, and of several such places the
first one is found from left to right. -/

namespace Calculator

def ParseError.position : ParseError → Nat
  | lexical error => error.position
  | expected _ _ position | unexpected _ position | tooDeep _ position => position

namespace Expr

def Unsigned : Expr → Prop
  | literal value => 0 ≤ value.toInt
  | binary _ left right => left.Unsigned ∧ right.Unsigned

/-- A token in the text of a tree that no formula has in its place. So many operations are
`around` the tree, and `front` is what is written in front of it. -/
inductive Offence : (around : Nat) → (front : String) → Expr → ParseError → Prop
  | sign {around : Nat} {front : String} {value : Value} : value.toInt < 0 →
      Offence around front (literal value) (.unexpected (.operator .sub) front.length)
  | nested {around : Nat} {front : String} {operator : Operator} {left right : Expr} :
      maxNesting ≤ around →
      Offence around front (binary operator left right) (.tooDeep maxNesting front.length)
  | left {around : Nat} {front : String} {operator : Operator} {left right : Expr}
      {error : ParseError} : Offence (around + 1) (front ++ "(") left error →
      Offence around front (binary operator left right) error
  | right {around : Nat} {front : String} {operator : Operator} {left right : Expr}
      {error : ParseError} :
      Offence (around + 1)
        (front ++ "(" ++ left.text ++ " " ++ String.singleton operator.symbol ++ " ")
        right error →
      Offence around front (binary operator left right) error

def FirstOffence (tree : Expr) (error : ParseError) : Prop :=
  Offence 0 "" tree error ∧
    ∀ other, Offence 0 "" tree other → error = other ∨ error.position < other.position

def offence? : Expr → (around position : Nat) → Option ParseError
  | literal value, _, position =>
      if value.toInt < 0 then some (.unexpected (.operator .sub) position) else none
  | binary _ left right, around, position =>
      if around = maxNesting then some (.tooDeep maxNesting position)
      else (left.offence? (around + 1) (position + 1)).or
        (right.offence? (around + 1) (position + left.text.length + 4))

theorem depth_pos (tree : Expr) : 0 < tree.depth := by
  cases tree with
  | literal value => exact Nat.one_pos
  | binary operator left right => exact Nat.succ_pos _

theorem length_beforeLeft (front : String) : (front ++ "(").length = front.length + 1 :=
  String.length_append _ _

theorem length_beforeRight (front : String) (operator : Operator) (left : Expr) :
    (front ++ "(" ++ left.text ++ " " ++ String.singleton operator.symbol ++ " ").length =
      front.length + left.text.length + 4 := by
  simp only [String.length_append, String.length_singleton]
  have signs : "(".length = 1 ∧ " ".length = 1 := by decide
  omega

theorem length_text_binary (operator : Operator) (left right : Expr) :
    (binary operator left right).text.length = left.text.length + right.text.length + 5 := by
  simp only [text, String.length_append, String.length_singleton]
  have signs : "(".length = 1 ∧ " ".length = 1 ∧ ")".length = 1 := by decide
  omega

theorem offence?_eq_none_iff {tree : Expr} {around : Nat} (position : Nat)
    (within : around ≤ maxNesting) :
    tree.offence? around position = none ↔
      tree.Unsigned ∧ around + tree.depth ≤ maxNesting + 1 := by
  induction tree generalizing around position with
  | literal value =>
    simp only [offence?, Unsigned, depth]
    split <;> simp <;> omega
  | binary operator left right leftIH rightIH =>
    have leftPos := left.depth_pos
    simp only [offence?, Unsigned, depth]
    by_cases full : around = maxNesting
    · rw [if_pos full]
      simp only [reduceCtorEq, false_iff, not_and]
      omega
    · rw [if_neg full, Option.or_eq_none_iff, leftIH _ (by omega), rightIH _ (by omega)]
      constructor
      · intro ⟨⟨leftUnsigned, leftDepth⟩, rightUnsigned, rightDepth⟩
        exact ⟨⟨leftUnsigned, rightUnsigned⟩, by omega⟩
      · intro ⟨⟨leftUnsigned, rightUnsigned⟩, bounded⟩
        exact ⟨⟨leftUnsigned, by omega⟩, rightUnsigned, by omega⟩

namespace Offence

variable {around : Nat} {front : String} {tree : Expr} {error : ParseError}

theorem bounds (offence : Offence around front tree error) :
    front.length ≤ error.position ∧ error.position ≤ front.length + tree.text.length := by
  induction offence with
  | sign negative => exact ⟨Nat.le_refl _, Nat.le_add_right _ _⟩
  | nested full => exact ⟨Nat.le_refl _, Nat.le_add_right _ _⟩
  | left inner ih =>
    rw [length_beforeLeft] at ih
    rw [length_text_binary]
    omega
  | right inner ih =>
    rw [length_beforeRight] at ih
    rw [length_text_binary]
    omega

theorem left_lt_right {operator : Operator} {left right : Expr} {other : ParseError}
    (inLeft : Offence around (front ++ "(") left error)
    (inRight : Offence around
      (front ++ "(" ++ left.text ++ " " ++ String.singleton operator.symbol ++ " ") right other) :
    error.position < other.position := by
  have ends := inLeft.bounds.2
  have begins := inRight.bounds.1
  rw [length_beforeLeft] at ends
  rw [length_beforeRight] at begins
  omega

theorem not_of_shallow (unsigned : tree.Unsigned) (shallow : around + tree.depth ≤ maxNesting + 1) :
    ¬Offence around front tree error := by
  intro offence
  induction offence with
  | sign negative =>
    exact absurd negative (Int.not_lt.2 unsigned)
  | @nested around front operator left right full =>
    have leftPos := left.depth_pos
    simp only [depth] at shallow
    omega
  | left inner ih =>
    simp only [depth] at shallow
    exact ih unsigned.1 (by omega)
  | right inner ih =>
    simp only [depth] at shallow
    exact ih unsigned.2 (by omega)

theorem tooDeep_of_unsigned (offence : Offence around front tree error)
    (unsigned : tree.Unsigned) : ∃ position, error = .tooDeep maxNesting position := by
  induction offence with
  | sign negative =>
    exact absurd negative (Int.not_lt.2 unsigned)
  | nested full => exact ⟨_, rfl⟩
  | left inner ih => exact ih unsigned.1
  | right inner ih => exact ih unsigned.2

end Offence

/-- What is found from left to right is an offence, and all others lie behind it. -/
theorem first_of_offence? {tree : Expr} {around : Nat} {front : String} {error : ParseError}
    (within : around ≤ maxNesting) (found : tree.offence? around front.length = some error) :
    Offence around front tree error ∧
      ∀ other, Offence around front tree other →
        error = other ∨ error.position < other.position := by
  induction tree generalizing around front with
  | literal value =>
    rw [offence?] at found
    split at found
    · rename_i negative
      cases found
      refine ⟨.sign negative, fun other offence => ?_⟩
      cases offence with
      | sign negative => exact Or.inl rfl
    · cases found
  | binary operator left right leftIH rightIH =>
    have leftAt := length_beforeLeft front
    have rightAt := length_beforeRight front operator left
    rw [offence?] at found
    by_cases full : around = maxNesting
    · rw [if_pos full] at found
      cases found
      refine ⟨.nested (Nat.le_of_eq full.symm), fun other offence => ?_⟩
      have here : (ParseError.tooDeep maxNesting front.length).position = front.length := rfl
      cases offence with
      | nested full => exact Or.inl rfl
      | left inner =>
        have begins := inner.bounds.1
        exact Or.inr (by omega)
      | right inner =>
        have begins := inner.bounds.1
        exact Or.inr (by omega)
    · rw [if_neg full, ← leftAt, ← rightAt] at found
      have deeper : around + 1 ≤ maxNesting := by omega
      cases leftFound : left.offence? (around + 1) (front ++ "(").length with
      | some first =>
        rw [leftFound] at found
        cases found
        obtain ⟨offence, first⟩ := leftIH deeper leftFound
        refine ⟨.left offence, fun other offending => ?_⟩
        cases offending with
        | nested full => omega
        | left inner => exact first other inner
        | right inner => exact Or.inr (offence.left_lt_right inner)
      | none =>
        rw [leftFound, Option.none_or] at found
        obtain ⟨unsigned, shallow⟩ := (offence?_eq_none_iff _ deeper).1 leftFound
        obtain ⟨offence, first⟩ := rightIH deeper found
        refine ⟨.right offence, fun other offending => ?_⟩
        cases offending with
        | nested full => omega
        | left inner => exact absurd inner (Offence.not_of_shallow unsigned shallow)
        | right inner => exact first other inner

/-- The sign of a literal is no operator, even where an operator stands in front of it. -/
example : offence? (binary .sub (literal ⟨1⟩) (literal (Word.ofInt 64 (-5)))) 0 0 =
    some (.unexpected (.operator .sub) 5) := by decide

end Expr
end Calculator
