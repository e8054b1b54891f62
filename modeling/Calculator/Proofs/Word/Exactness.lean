import Calculator.Word

/-! Checked operations on words against exact whole numbers. Main statement: an operator
applied to words of any width gives the word of the exact result whenever that result has
one, and otherwise the error that names the operator and its operands. -/

namespace Calculator

def Word.Holds (width : Nat) (number : Int) : Prop :=
  -Int.pow 2 (width - 1) ≤ number ∧ number < Int.pow 2 (width - 1)

instance (width : Nat) (number : Int) : Decidable (Word.Holds width number) :=
  inferInstanceAs (Decidable (_ ∧ _))

namespace Word

variable {width : Nat}

theorem not_holds_iff {number : Int} :
    ¬Holds width number ↔
      Int.pow 2 (width - 1) ≤ number ∨ number < -Int.pow 2 (width - 1) := by
  unfold Holds
  omega

theorem holds_toInt (word : Word width) : Holds width word.toInt :=
  ⟨BitVec.le_toInt word.bits, BitVec.toInt_lt⟩

theorem toInt_ofInt (positive : 0 < width) {number : Int} (holds : Holds width number) :
    (ofInt width number).toInt = number :=
  BitVec.toInt_ofInt_eq_self positive holds.1 holds.2

theorem holds_natCast_iff {number : Nat} : Holds width number ↔ number ≤ largest width := by
  have power : Int.pow 2 (width - 1) = Nat.pow 2 (width - 1) :=
    (Int.natCast_pow 2 (width - 1)).symm
  have positive : 0 < Nat.pow 2 (width - 1) := Nat.two_pow_pos (width - 1)
  rw [Holds, largest, power]
  omega

theorem toInt_ofInt_natCast (positive : 0 < width) {number : Nat}
    (fits : number ≤ largest width) : (ofInt width number).toInt = number :=
  toInt_ofInt positive (holds_natCast_iff.2 fits)

theorem toNat_le_largest {word : Word width} (nonneg : 0 ≤ word.toInt) :
    word.toInt.toNat ≤ largest width := by
  rw [← holds_natCast_iff, Int.toNat_of_nonneg nonneg]
  exact holds_toInt word

theorem ofInt_toNat {word : Word width} (nonneg : 0 ≤ word.toInt) :
    ofInt width word.toInt.toNat = word := by
  rw [Int.toNat_of_nonneg nonneg]
  exact congrArg mk BitVec.ofInt_toInt

theorem toInt_injective {first second : Word width} (same : first.toInt = second.toInt) :
    first = second := by
  obtain ⟨first⟩ := first
  obtain ⟨second⟩ := second
  exact congrArg Word.mk (BitVec.eq_of_toInt_eq same)

/-- Rounding down differs from rounding towards zero where there is a remainder, which has the
sign of the dividend, and the divisor has the other sign. -/
theorem fdiv_eq_tdiv_sub {left right : Int} (nonzero : right ≠ 0) :
    left.fdiv right = left.tdiv right -
      if left.tmod right ≠ 0 ∧ (left.tmod right < 0) ≠ (right < 0) then 1 else 0 := by
  rw [Int.fdiv_eq_tdiv]
  simp only [Int.dvd_iff_tmod_eq_zero]
  by_cases divides : left.tmod right = 0
  · simp [divides]
  · have remainderSign : left.tmod right < 0 ↔ left < 0 := by
      have signs := Int.sign_tmod left right
      rw [if_neg (mt Int.dvd_iff_tmod_eq_zero.1 divides)] at signs
      rw [← Int.sign_eq_neg_one_iff_neg, ← Int.sign_eq_neg_one_iff_neg, signs]
    simp only [divides, remainderSign, ↓reduceIte, ne_eq, not_false_eq_true, true_and, eq_iff_iff]
    rcases Int.lt_or_lt_of_ne nonzero with negative | positive
    · have sign : right.sign = -1 := Int.sign_eq_neg_one_of_neg negative
      by_cases leftNegative : left < 0
      · simp [sign, negative, leftNegative, Int.not_le.2 leftNegative, Int.not_le.2 negative]
      · simp [negative, leftNegative, Int.not_lt.1 leftNegative, Int.not_le.2 negative]
    · have sign : right.sign = 1 := Int.sign_eq_one_of_pos positive
      have notNegative : ¬right < 0 := by omega
      by_cases leftNegative : left < 0
      · simp [sign, notNegative, leftNegative, Int.not_le.2 leftNegative, Int.le_of_lt positive]
      · simp [notNegative, leftNegative, Int.not_lt.1 leftNegative, Int.le_of_lt positive]

theorem roundedUp_iff (left right : Word width) :
    roundedUp left right ↔ left.toInt.tmod right.toInt ≠ 0 ∧
      (left.toInt.tmod right.toInt < 0) ≠ (right.toInt < 0) := by
  have remainder : (left.bits.srem right.bits).toInt = left.toInt.tmod right.toInt :=
    BitVec.toInt_srem left.bits right.bits
  have none : left.bits.srem right.bits = 0 ↔ left.toInt.tmod right.toInt = 0 := by
    rw [← remainder, ← BitVec.toInt_inj]
    simp
  simp only [roundedUp, Bool.and_eq_true, decide_eq_true_eq, ne_eq, none, bne_iff_ne,
    BitVec.msb_eq_toInt, remainder, decide_eq_decide, eq_iff_iff]
  exact Iff.rfl

/-- The quotients that overflow are those that have no word. Only the least word divided by
minus one has none, since every other quotient is closer to zero than some word. -/
theorem sdivOverflow_iff (left right : Word width) :
    left.bits.sdivOverflow right.bits ↔ ¬Holds width (left.toInt.fdiv right.toInt) := by
  have rounded : left.toInt.fdiv right.toInt = left.toInt / right.toInt -
      if 0 ≤ right.toInt ∨ right.toInt ∣ left.toInt then 0 else 1 := Int.fdiv_eq_ediv
  have range : left.bits.sdivOverflow right.bits ↔ ¬Holds width (left.toInt / right.toInt) := by
    simp only [BitVec.sdivOverflow, Bool.or_eq_true, decide_eq_true_eq]
    exact not_holds_iff.symm
  by_cases same : 0 ≤ right.toInt ∨ right.toInt ∣ left.toInt
  · rw [range, rounded, if_pos same, Int.sub_zero]
  · have fits : ¬left.bits.sdivOverflow right.bits := by
      intro overflow
      rw [BitVec.sdivOverflow_eq] at overflow
      simp only [Bool.and_eq_true, decide_eq_true_eq] at overflow
      have minusOne : right.toInt = -1 := by
        rw [toInt, overflow.2, BitVec.toInt_allOnes, if_pos overflow.1.1]
      exact same (Or.inr ⟨-left.toInt, by rw [minusOne]; omega⟩)
    have near := Int.natAbs_fdiv_le_natAbs left.toInt right.toInt
    have leftHolds := holds_toInt left
    rw [if_neg same] at rounded
    rw [range] at fits ⊢
    unfold Holds at leftHolds fits ⊢
    omega

theorem ofInt_toInt (word : Word width) : BitVec.ofInt width word.toInt = word.bits :=
  BitVec.ofInt_toInt

theorem ofInt_sub (left right : Int) :
    BitVec.ofInt width (left - right) = BitVec.ofInt width left - BitVec.ofInt width right := by
  calc BitVec.ofInt width (left - right)
    _ = BitVec.ofInt width (left + -right) := by rw [Int.sub_eq_add_neg]
    _ = BitVec.ofInt width left + BitVec.ofInt width (-right) := BitVec.ofInt_add left (-right)
    _ = BitVec.ofInt width left + -BitVec.ofInt width right := by rw [BitVec.ofInt_neg]
    _ = BitVec.ofInt width left - BitVec.ofInt width right := by rw [BitVec.sub_eq_add_neg]

theorem sdiv_eq_ofInt (left right : Word width) :
    left.bits.sdiv right.bits = BitVec.ofInt width (left.toInt.tdiv right.toInt) := by
  apply BitVec.eq_of_toInt_eq
  rw [BitVec.toInt_sdiv, BitVec.toInt_ofInt, toInt, toInt]

/-- Bits that are right up to overflow make a result that is right wherever there is one. -/
theorem checked_eq {overflow : Bool} {bits : BitVec width} {number : Int}
    (range : overflow ↔ ¬Holds width number) (same : bits = BitVec.ofInt width number) :
    (if overflow then none else some (⟨bits⟩ : Word width)) =
      if Holds width number then some (ofInt width number) else none := by
  by_cases holds : Holds width number
  · have fits : ¬overflow := fun overflows => range.1 overflows holds
    rw [if_neg fits, if_pos holds, same, ofInt]
  · rw [if_pos (range.2 holds), if_neg holds]

theorem floorDiv?_eq {left right : Word width} (nonzero : right.toInt ≠ 0) :
    floorDiv? left right =
      if Holds width (left.toInt.fdiv right.toInt)
      then some (ofInt width (left.toInt.fdiv right.toInt)) else none := by
  have joined : floorDiv? left right = if left.bits.sdivOverflow right.bits then none
      else some ⟨left.bits.sdiv right.bits - if roundedUp left right then 1 else 0⟩ := by
    unfold floorDiv?
    split
    · rfl
    · split
      · rfl
      · simp only [BitVec.ofNat_eq_ofNat, BitVec.sub_zero]
  rw [joined]
  apply checked_eq (sdivOverflow_iff left right)
  rw [fdiv_eq_tdiv_sub nonzero, ofInt_sub, sdiv_eq_ofInt]
  by_cases up : roundedUp left right
  · rw [if_pos up, if_pos ((roundedUp_iff left right).1 up)]
    rfl
  · rw [if_neg up, if_neg (mt (roundedUp_iff left right).2 up)]
    rfl

theorem result?_eq (operator : Operator) {left right : Word width}
    (defined : operator = .div → right.toInt ≠ 0) :
    result? operator left right =
      if Holds width (operator.exact left.toInt right.toInt)
      then some (ofInt width (operator.exact left.toInt right.toInt)) else none := by
  cases operator with
  | add =>
    have range : left.bits.saddOverflow right.bits ↔ ¬Holds width (left.toInt + right.toInt) := by
      simp only [BitVec.saddOverflow, Bool.or_eq_true, decide_eq_true_eq]
      exact not_holds_iff.symm
    apply checked_eq range
    rw [BitVec.ofInt_add, ofInt_toInt, ofInt_toInt]
  | sub =>
    have range : left.bits.ssubOverflow right.bits ↔ ¬Holds width (left.toInt - right.toInt) := by
      simp only [BitVec.ssubOverflow, Bool.or_eq_true, decide_eq_true_eq]
      exact not_holds_iff.symm
    apply checked_eq range
    rw [ofInt_sub, ofInt_toInt, ofInt_toInt]
  | mul =>
    have range : left.bits.smulOverflow right.bits ↔ ¬Holds width (left.toInt * right.toInt) := by
      simp only [BitVec.smulOverflow, Bool.or_eq_true, decide_eq_true_eq]
      exact not_holds_iff.symm
    apply checked_eq range
    rw [BitVec.ofInt_mul, ofInt_toInt, ofInt_toInt]
  | div => exact floorDiv?_eq (defined rfl)

theorem bits_eq_zero_iff (word : Word width) : word.bits = 0 ↔ word.toInt = 0 := by
  rw [toInt, ← BitVec.toInt_inj]
  simp

end Word

theorem Operator.apply_eq {width : Nat} (operator : Operator) (left right : Word width) :
    operator.apply left right =
      if operator = .div ∧ right.toInt = 0 then .error .divisionByZero
      else if Word.Holds width (operator.exact left.toInt right.toInt)
        then .ok (Word.ofInt width (operator.exact left.toInt right.toInt))
        else .error (.overflow operator left right) := by
  unfold apply
  simp only [Word.bits_eq_zero_iff]
  by_cases byZero : operator = .div ∧ right.toInt = 0
  · rw [if_pos byZero, if_pos byZero]
  · have defined : operator = .div → right.toInt ≠ 0 :=
      fun division isZero => byZero ⟨division, isZero⟩
    rw [if_neg byZero, if_neg byZero, Word.result?_eq operator defined]
    by_cases holds : Word.Holds width (operator.exact left.toInt right.toInt)
    · simp only [if_pos holds]
    · simp only [if_neg holds]

example : Operator.div.apply (Word.ofInt 8 (-7)) (Word.ofInt 8 2) = .ok (Word.ofInt 8 (-4)) := rfl

example : Operator.div.apply (Word.ofInt 8 (-128)) (Word.ofInt 8 (-1)) =
    .error (.overflow .div (Word.ofInt 8 (-128)) (Word.ofInt 8 (-1))) := rfl

end Calculator
