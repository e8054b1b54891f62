import Calculator.Operator
import Calculator.Text.Decimal

/-! Checked arithmetic on words, the whole numbers that a fixed number of bits holds in two's
complement. Every operation is total: where the exact result has no word there is an error
that names the operator and both operands. -/

namespace Calculator

structure Word (width : Nat) where
  bits : BitVec width
deriving DecidableEq, Repr

namespace Word

variable {width : Nat}

def toInt (word : Word width) : Int := word.bits.toInt

def ofInt (width : Nat) (number : Int) : Word width := ⟨BitVec.ofInt width number⟩

def largest (width : Nat) : Nat := Nat.pow 2 (width - 1) - 1

def text (word : Word width) : String := Text.Decimal.text word.toInt

def add? (left right : Word width) : Option (Word width) :=
  if left.bits.saddOverflow right.bits then none else some ⟨left.bits + right.bits⟩

def sub? (left right : Word width) : Option (Word width) :=
  if left.bits.ssubOverflow right.bits then none else some ⟨left.bits - right.bits⟩

def mul? (left right : Word width) : Option (Word width) :=
  if left.bits.smulOverflow right.bits then none else some ⟨left.bits * right.bits⟩

/-- The quotient rounded towards zero lies above the exact one: there is a remainder, and
its sign differs from that of the divisor. -/
def roundedUp (left right : Word width) : Bool :=
  let remainder := left.bits.srem right.bits
  remainder ≠ 0 && remainder.msb != right.bits.msb

/-- The quotient rounded down, made from the one rounded towards zero. The quotient of the
least word by minus one is the only one that has no word. -/
def floorDiv? (left right : Word width) : Option (Word width) :=
  if left.bits.sdivOverflow right.bits then none
  else if roundedUp left right then some ⟨left.bits.sdiv right.bits - 1⟩
  else some ⟨left.bits.sdiv right.bits⟩

def result? : Operator → Word width → Word width → Option (Word width)
  | .add => add?
  | .sub => sub?
  | .mul => mul?
  | .div => floorDiv?

end Word

inductive EvalError (width : Nat) where
  | divisionByZero
  | overflow (operator : Operator) (left right : Word width)
deriving DecidableEq, Repr

def EvalError.message {width : Nat} : EvalError width → String
  | divisionByZero => "Division by zero."
  | overflow operator left right =>
      "Integer overflow in " ++ left.text ++ " " ++ String.singleton operator.symbol ++ " "
        ++ right.text ++ "."

/-- Applies an operator to words. A zero divisor is reported as such, any other result
without a word as an overflow. -/
def Operator.apply {width : Nat} (operator : Operator) (left right : Word width) :
    Except (EvalError width) (Word width) :=
  if operator = .div ∧ right.bits = 0 then .error .divisionByZero
  else match Word.result? operator left right with
    | some result => .ok result
    | none => .error (.overflow operator left right)

/-- The words in which formulas are evaluated. -/
abbrev Value := Word 64

end Calculator
