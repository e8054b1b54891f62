/-! The four arithmetic operators: their symbols, how tightly they bind, and what they mean
on whole numbers. Main statement: an operator and its symbol determine each other. -/

namespace Calculator

inductive Operator where
  | add
  | sub
  | mul
  | div
deriving DecidableEq, Repr

/-- Factors joined by `*` and `/` bind more tightly than summands joined by `+` and `-`. -/
inductive Tier where
  | sum
  | product
deriving DecidableEq, Repr

namespace Operator

def symbol : Operator → Char
  | add => '+'
  | sub => '-'
  | mul => '*'
  | div => '/'

def ofSymbol? : Char → Option Operator
  | '+' => some add
  | '-' => some sub
  | '*' => some mul
  | '/' => some div
  | _ => none

def tier : Operator → Tier
  | add | sub => .sum
  | mul | div => .product

def exact : Operator → Int → Int → Int
  | add, left, right => left + right
  | sub, left, right => left - right
  | mul, left, right => left * right
  | div, left, right => left.fdiv right

theorem ofSymbol?_eq_some_iff {character : Char} {operator : Operator} :
    ofSymbol? character = some operator ↔ operator.symbol = character := by
  constructor
  · intro known
    unfold ofSymbol? at known
    split at known <;> simp_all [symbol] <;> subst known <;> rfl
  · rintro rfl
    cases operator <;> rfl

@[simp] theorem ofSymbol?_symbol (operator : Operator) :
    ofSymbol? operator.symbol = some operator :=
  ofSymbol?_eq_some_iff.2 rfl

theorem symbol_injective {first second : Operator} (same : first.symbol = second.symbol) :
    first = second :=
  Option.some.inj ((ofSymbol?_symbol first).symm.trans (same ▸ ofSymbol?_symbol second))

end Operator
end Calculator
