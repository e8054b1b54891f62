/-! Blanks, the characters that separate tokens and are otherwise without meaning. They
are the characters with the Unicode property White_Space. Main statement: no digit is a
blank. -/

namespace Calculator.Text

/-- The code points of the property White_Space, as ranges with both ends included. -/
def blankRanges : List (Nat × Nat) :=
  [(0x0009, 0x000D), (0x0020, 0x0020), (0x0085, 0x0085), (0x00A0, 0x00A0), (0x1680, 0x1680),
   (0x2000, 0x200A), (0x2028, 0x2029), (0x202F, 0x202F), (0x205F, 0x205F), (0x3000, 0x3000)]

def isBlank (character : Char) : Bool :=
  blankRanges.any fun range => range.1 ≤ character.toNat && character.toNat ≤ range.2

def isBlankText (text : String) : Bool := text.toList.all isBlank

theorem isBlank_eq_false_of_isDigit {character : Char} (digit : character.isDigit) :
    isBlank character = false := by
  have bounds : 48 ≤ character.toNat ∧ character.toNat ≤ 57 := by
    simpa [Char.isDigit, UInt32.le_iff_toNat_le] using digit
  simp only [isBlank, blankRanges, List.any_cons, List.any_nil, Bool.or_false,
    Bool.or_eq_false_iff, Bool.and_eq_false_iff, decide_eq_false_iff_not]
  omega

theorem isDigit_eq_false_of_isBlank {character : Char} (blank : isBlank character) :
    character.isDigit = false :=
  Bool.eq_false_iff.2 fun digit =>
    Bool.false_ne_true ((isBlank_eq_false_of_isDigit digit).symm.trans blank)

end Calculator.Text
