/-! Decimal notation of numbers: digits that are read and digits that are written.
Main statements: reading up to a limit gives the exact value of the digits whenever it
does not pass the limit, and digits that were written read back as their number. -/

namespace Calculator.Text.Decimal

def value (digits : List Char) : Nat := Nat.ofDigitChars 10 digits 0

def extend? (limit high : Nat) (digit : Char) : Option Nat :=
  let next := 10 * high + (digit.toNat - '0'.toNat)
  if next ≤ limit then some next else none

/-- The value of the digits if it is at most the limit. Reading stops as soon as the limit
is passed, because more digits never bring the value down again. -/
def valueUpTo? (limit : Nat) (digits : List Char) : Option Nat :=
  digits.foldlM (extend? limit) 0

private theorem le_ofDigitChars (digits : List Char) (high : Nat) :
    high ≤ Nat.ofDigitChars 10 digits high := by
  induction digits generalizing high with
  | nil => simp
  | cons digit rest ih =>
    rw [Nat.ofDigitChars_cons]
    exact Nat.le_trans (by omega) (ih _)

private theorem foldlM_extend? (limit : Nat) (digits : List Char) (high : Nat)
    (within : high ≤ limit) :
    digits.foldlM (extend? limit) high =
      if Nat.ofDigitChars 10 digits high ≤ limit
      then some (Nat.ofDigitChars 10 digits high) else none := by
  induction digits generalizing high with
  | nil => simp [within]
  | cons digit rest ih =>
    rw [List.foldlM_cons, Nat.ofDigitChars_cons]
    by_cases fits : 10 * high + (digit.toNat - '0'.toNat) ≤ limit
    · have step : extend? limit high digit = some (10 * high + (digit.toNat - '0'.toNat)) :=
        if_pos fits
      rw [step]
      exact ih _ fits
    · have step : extend? limit high digit = none := if_neg fits
      have beyond := le_ofDigitChars rest (10 * high + (digit.toNat - '0'.toNat))
      rw [step, if_neg (by omega)]
      rfl

theorem valueUpTo?_eq (limit : Nat) (digits : List Char) :
    valueUpTo? limit digits = if value digits ≤ limit then some (value digits) else none :=
  foldlM_extend? limit digits 0 (Nat.zero_le _)

def text (number : Int) : String := number.repr

theorem isDigit_of_mem_toDigits (number : Nat) :
    ∀ character ∈ Nat.toDigits 10 number, character.isDigit :=
  fun _ member => Nat.isDigit_of_mem_toDigits (by decide) (by decide) member

theorem value_toDigits (number : Nat) : value (Nat.toDigits 10 number) = number := by
  simp [value]

end Calculator.Text.Decimal
