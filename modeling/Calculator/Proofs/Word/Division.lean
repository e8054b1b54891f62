import Calculator.Proofs.Word.Exactness

/-! Division of words step by step. Main statement: applying an operator has one of three
outcomes, which exact arithmetic tells apart. A quotient overflows only where the least word is
divided by minus one, and on the way to any other quotient no step leaves the words. -/

namespace Calculator

namespace Word

variable {width : Nat} {left right : Word width}

def least (width : Nat) : Int := -Int.pow 2 (width - 1)

theorem bits_eq_intMin_iff (positive : 0 < width) (word : Word width) :
    word.bits = BitVec.intMin width ↔ word.toInt = least width := by
  have minimum : (BitVec.intMin width).toInt = least width := BitVec.toInt_intMin_of_pos positive
  rw [toInt, ← BitVec.toInt_inj, minimum]

theorem bits_eq_allOnes_iff (positive : 0 < width) (word : Word width) :
    word.bits = BitVec.allOnes width ↔ word.toInt = -1 := by
  have minusOne : (BitVec.allOnes width).toInt = -1 := by
    rw [BitVec.toInt_allOnes, if_pos positive]
  rw [toInt, ← BitVec.toInt_inj, minusOne]

theorem not_holds_fdiv_iff (positive : 0 < width) (left right : Word width) :
    ¬Holds width (left.toInt.fdiv right.toInt) ↔
      left.toInt = least width ∧ right.toInt = -1 := by
  rw [← sdivOverflow_iff, BitVec.sdivOverflow_eq, Bool.and_eq_true, Bool.and_eq_true,
    decide_eq_true_iff, decide_eq_true_iff, decide_eq_true_iff, bits_eq_intMin_iff positive,
    bits_eq_allOnes_iff positive]
  constructor
  · intro overflow
    exact ⟨overflow.1.2, overflow.2⟩
  · intro operands
    exact ⟨⟨positive, operands.1⟩, operands.2⟩

/-- The steps of a division, each of which comes to a word that holds its exact result: the
quotient rounded towards zero, the remainder, and the quotient lessened by one where it was
rounded up. -/
structure StaysInRange (left right : Word width) : Prop where
  quotient : (left.bits.sdiv right.bits).toInt = left.toInt.tdiv right.toInt
  remainder : (left.bits.srem right.bits).toInt = left.toInt.tmod right.toInt
  correction : roundedUp left right →
    (left.bits.sdiv right.bits - 1).toInt = left.toInt.tdiv right.toInt - 1

theorem toInt_sdiv_eq (positive : 0 < width)
    (other : ¬(left.toInt = least width ∧ right.toInt = -1)) :
    (left.bits.sdiv right.bits).toInt = left.toInt.tdiv right.toInt := by
  apply BitVec.toInt_sdiv_of_ne_or_ne
  rw [BitVec.neg_one_eq_allOnes, ne_eq, ne_eq, bits_eq_intMin_iff positive,
    bits_eq_allOnes_iff positive]
  exact Decidable.not_and_iff_not_or_not.1 other

/-- The correction does not pass the least word, since it leads to the quotient rounded down. -/
theorem toInt_sdiv_sub_one (positive : 0 < width) (nonzero : right.toInt ≠ 0)
    (other : ¬(left.toInt = least width ∧ right.toInt = -1)) (up : roundedUp left right) :
    (left.bits.sdiv right.bits - 1).toInt = left.toInt.tdiv right.toInt - 1 := by
  have holds : Holds width (left.toInt.fdiv right.toInt) :=
    Decidable.of_not_not (mt (not_holds_fdiv_iff positive left right).1 other)
  have fits : ¬left.bits.sdivOverflow right.bits := fun overflow =>
    (sdivOverflow_iff left right).1 overflow holds
  have corrected : floorDiv? left right = some ⟨left.bits.sdiv right.bits - 1⟩ := by
    rw [floorDiv?, if_neg fits, if_pos up]
  rw [floorDiv?_eq nonzero, if_pos holds] at corrected
  calc (left.bits.sdiv right.bits - 1).toInt
    _ = (ofInt width (left.toInt.fdiv right.toInt)).toInt :=
        congrArg toInt (Option.some.inj corrected).symm
    _ = left.toInt.fdiv right.toInt := toInt_ofInt positive holds
    _ = left.toInt.tdiv right.toInt - 1 := by
        rw [fdiv_eq_tdiv_sub nonzero, if_pos ((roundedUp_iff left right).1 up)]

theorem staysInRange (positive : 0 < width) (nonzero : right.toInt ≠ 0)
    (other : ¬(left.toInt = least width ∧ right.toInt = -1)) : StaysInRange left right where
  quotient := toInt_sdiv_eq positive other
  remainder := BitVec.toInt_srem left.bits right.bits
  correction := toInt_sdiv_sub_one positive nonzero other

end Word

namespace Operator

variable {width : Nat} {operator : Operator} {left right : Word width}

theorem apply_eq_divisionByZero_iff :
    operator.apply left right = .error .divisionByZero ↔
      operator = .div ∧ right.toInt = 0 := by
  rw [apply_eq]
  by_cases byZero : operator = .div ∧ right.toInt = 0
  · rw [if_pos byZero]
    exact iff_of_true rfl byZero
  · rw [if_neg byZero]
    split <;> simp [byZero]

theorem apply_eq_ok_iff (positive : 0 < width) {result : Word width} :
    operator.apply left right = .ok result ↔
      ¬(operator = .div ∧ right.toInt = 0) ∧
        Word.Holds width (operator.exact left.toInt right.toInt) ∧
          result.toInt = operator.exact left.toInt right.toInt := by
  rw [apply_eq]
  by_cases byZero : operator = .div ∧ right.toInt = 0
  · simp [byZero]
  · rw [if_neg byZero]
    by_cases holds : Word.Holds width (operator.exact left.toInt right.toInt)
    · have exact := Word.toInt_ofInt positive holds
      rw [if_pos holds, Except.ok.injEq]
      constructor
      · intro same
        exact ⟨byZero, holds, same ▸ exact⟩
      · intro found
        exact Word.toInt_injective (exact.trans found.2.2.symm)
    · simp [holds]

theorem apply_eq_overflow_iff {named : Operator} {first second : Word width} :
    operator.apply left right = .error (.overflow named first second) ↔
      ¬(operator = .div ∧ right.toInt = 0) ∧
        ¬Word.Holds width (operator.exact left.toInt right.toInt) ∧
          named = operator ∧ first = left ∧ second = right := by
  rw [apply_eq]
  by_cases byZero : operator = .div ∧ right.toInt = 0
  · simp [byZero]
  · rw [if_neg byZero]
    by_cases holds : Word.Holds width (operator.exact left.toInt right.toInt)
    · simp [holds]
    · rw [if_neg holds, Except.error.injEq, EvalError.overflow.injEq]
      constructor
      · rintro ⟨rfl, rfl, rfl⟩
        exact ⟨byZero, holds, rfl, rfl, rfl⟩
      · rintro ⟨-, -, rfl, rfl, rfl⟩
        exact ⟨rfl, rfl, rfl⟩

/-- What applying an operator to words comes to: the report of a zero divisor, the word of the
exact result, or an overflow that names the operator and both operands. Division overflows for
one pair of words only, and stays within the words on its way to any other quotient. -/
theorem apply_outcomes (wide : 2 ≤ width) (operator : Operator) (left right : Word width) :
    (operator.apply left right = .error .divisionByZero ↔
      operator = .div ∧ right.toInt = 0) ∧
    (∀ result, operator.apply left right = .ok result ↔
      ¬(operator = .div ∧ right.toInt = 0) ∧
        Word.Holds width (operator.exact left.toInt right.toInt) ∧
          result.toInt = operator.exact left.toInt right.toInt) ∧
    (∀ named first second, operator.apply left right = .error (.overflow named first second) ↔
      ¬(operator = .div ∧ right.toInt = 0) ∧
        ¬Word.Holds width (operator.exact left.toInt right.toInt) ∧
          named = operator ∧ first = left ∧ second = right) ∧
    (¬Word.Holds width (Operator.div.exact left.toInt right.toInt) ↔
      left.toInt = Word.least width ∧ right.toInt = -1) ∧
    (right.toInt ≠ 0 → ¬(left.toInt = Word.least width ∧ right.toInt = -1) →
      Word.StaysInRange left right) := by
  have positive : 0 < width := by omega
  exact ⟨apply_eq_divisionByZero_iff, fun _ => apply_eq_ok_iff positive,
    fun _ _ _ => apply_eq_overflow_iff, Word.not_holds_fdiv_iff positive left right,
    Word.staysInRange positive⟩

/-- The least byte has a quotient by every byte but minus one, and the one by three is rounded
down within the bytes. -/
theorem apply_outcomes_least_byte :
    let least := Word.ofInt 8 (-128)
    2 ≤ 8 ∧
      Operator.div.apply least (Word.ofInt 8 (-1)) =
        .error (.overflow .div least (Word.ofInt 8 (-1))) ∧
      Operator.div.apply least (Word.ofInt 8 3) = .ok (Word.ofInt 8 (-43)) ∧
      Word.StaysInRange least (Word.ofInt 8 3) := by
  intro least
  have wide : 2 ≤ 8 := by decide
  obtain ⟨-, -, overflows, -, -⟩ := apply_outcomes wide .div least (Word.ofInt 8 (-1))
  obtain ⟨-, succeeds, -, -, stays⟩ := apply_outcomes wide .div least (Word.ofInt 8 3)
  exact ⟨wide, (overflows _ _ _).2 (by decide), (succeeds _).2 (by decide),
    stays (by decide) (by decide)⟩

end Operator
end Calculator
