import Calculator.Text.Blank
import Calculator.Token

/-! A cursor stands in a text and reads one token after the other. Main statement: whatever
is read, except for the end of the input, leaves less of the text to read. -/

namespace Calculator

structure Cursor where
  rest : List Char
  position : Nat
deriving DecidableEq, Repr

namespace Cursor

def start (text : String) : Cursor := ⟨text.toList, 0⟩

def skipWhile (condition : Char → Bool) (cursor : Cursor) : Cursor :=
  ⟨cursor.rest.dropWhile condition,
    cursor.position + (cursor.rest.takeWhile condition).length⟩

def ofDigits (digits : List Char) (position : Nat) : Outcome :=
  match Text.Decimal.valueUpTo? (Word.largest 64) digits with
  | some number => .ok ⟨.integer (Word.ofInt 64 number), position⟩
  | none => .error (.integerTooLarge (String.ofList digits) position)

def ofSymbol (character : Char) (position : Nat) : Outcome :=
  match Token.Kind.ofSymbol? character with
  | some kind => .ok ⟨kind, position⟩
  | none => .error (.unexpectedCharacter character position)

/-- Reads a token in front of which no blank stands: a whole run of digits, or else a
single character. An error leaves the cursor behind what it complains about. -/
def readLexeme (cursor : Cursor) : Outcome × Cursor :=
  match cursor.rest with
  | [] => (.ok ⟨.endOfInput, cursor.position⟩, cursor)
  | character :: rest =>
      if character.isDigit then
        (ofDigits (cursor.rest.takeWhile Char.isDigit) cursor.position,
          cursor.skipWhile Char.isDigit)
      else (ofSymbol character cursor.position, ⟨rest, cursor.position + 1⟩)

def nextToken (cursor : Cursor) : Outcome × Cursor :=
  (cursor.skipWhile Text.isBlank).readLexeme

private theorem length_dropWhile_le (condition : Char → Bool) (text : List Char) :
    (text.dropWhile condition).length ≤ text.length :=
  (List.dropWhile_suffix condition).length_le

theorem readLexeme_passes (cursor : Cursor) : ∃ passed,
    cursor.rest = passed ++ cursor.readLexeme.2.rest ∧
      cursor.readLexeme.2.position = cursor.position + passed.length := by
  unfold readLexeme
  split
  · exact ⟨[], rfl, rfl⟩
  · rename_i character rest shape
    split
    · exact ⟨_, List.takeWhile_append_dropWhile.symm, rfl⟩
    · exact ⟨[character], shape, rfl⟩

theorem nextToken_passes (cursor : Cursor) : ∃ passed,
    cursor.rest = passed ++ cursor.nextToken.2.rest ∧
      cursor.nextToken.2.position = cursor.position + passed.length := by
  obtain ⟨passed, split, place⟩ := (cursor.skipWhile Text.isBlank).readLexeme_passes
  refine ⟨cursor.rest.takeWhile Text.isBlank ++ passed, ?_, ?_⟩
  · rw [List.append_assoc, nextToken, ← split]
    exact List.takeWhile_append_dropWhile.symm
  · rw [List.length_append, ← Nat.add_assoc]
    exact place

theorem readLexeme_shorter (cursor : Cursor) (more : cursor.readLexeme.1.isLast = false) :
    cursor.readLexeme.2.rest.length < cursor.rest.length := by
  unfold readLexeme at more ⊢
  split at more
  · simp [Outcome.isLast] at more
  · rename_i character rest shape
    rw [shape]
    split
    · rename_i digit
      have behind := length_dropWhile_le Char.isDigit rest
      simp only [skipWhile, shape, List.dropWhile_cons_of_pos digit, List.length_cons]
      omega
    · simp

theorem nextToken_shorter (cursor : Cursor) (more : cursor.nextToken.1.isLast = false) :
    cursor.nextToken.2.rest.length < cursor.rest.length :=
  Nat.lt_of_lt_of_le (readLexeme_shorter _ more) (length_dropWhile_le _ _)

end Cursor
end Calculator
