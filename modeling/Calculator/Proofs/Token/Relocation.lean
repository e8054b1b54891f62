import Calculator.Proofs.Token.Lexeme

/-! Positions that are moved while everything else stays. Main statements: a text that begins at
another position is read as the same tokens at other positions, and so is a text into which
blanks are inserted, unless they cut a run of digits in two. -/

namespace Calculator

def inserted (place count position : Nat) : Nat :=
  if position < place then position else position + count

section Relocate

variable (move : Nat → Nat)

def LexicalError.relocate : LexicalError → LexicalError
  | unexpectedCharacter character position => unexpectedCharacter character (move position)
  | integerTooLarge digits position => integerTooLarge digits (move position)

def Token.relocate (token : Token) : Token := ⟨token.kind, move token.position⟩

def Outcome.relocate : Outcome → Outcome
  | .ok token => .ok (token.relocate move)
  | .error error => .error (error.relocate move)

def Ending.relocate : Ending → Ending
  | endOfInput position => endOfInput (move position)
  | failed error => failed (error.relocate move)

def TokenStream.relocate (stream : TokenStream) : TokenStream :=
  ⟨stream.tokens.map (Token.relocate move), stream.ending.relocate move⟩

theorem Ending.outcome_relocate (ending : Ending) :
    (ending.relocate move).outcome = ending.outcome.relocate move := by
  cases ending <;> rfl

theorem Outcome.followedBy_relocate (outcome : Outcome) (later : TokenStream) :
    (outcome.relocate move).followedBy (later.relocate move) =
      (outcome.followedBy later).relocate move := by
  cases outcome <;> rfl

theorem Lexeme.relocate {lexeme rest : List Char} {reading : Nat → Outcome}
    (read : Lexeme lexeme rest reading) (position : Nat) :
    reading (move position) = (reading position).relocate move := by
  cases read with
  | digits more digits ends =>
    simp only [Cursor.ofDigits]
    split <;> rfl
  | symbol visible other =>
    simp only [Cursor.ofSymbol]
    split <;> rfl

end Relocate

namespace Cursor

variable {move : Nat → Nat}

theorem stream_moved (distance : Nat) (text : List Char) (position : Nat)
    (further : ∀ place, position ≤ place → move place = place + distance) :
    stream ⟨text, position + distance⟩ = (stream ⟨text, position⟩).relocate move := by
  induction text using Lexeme.text_induction generalizing position with
  | blank text blank =>
    have last := further (position + text.length) (Nat.le_add_right _ _)
    have order : position + distance + text.length = position + text.length + distance := by
      omega
    rw [stream_all_blank blank, stream_all_blank blank, order, ← last]
    rfl
  | lexeme blanks lexeme rest reading blank read ih =>
    have begins : position + distance + blanks.length = move (position + blanks.length) := by
      have here := further (position + blanks.length) (Nat.le_add_right _ _)
      omega
    have goesOn : position + distance + blanks.length + lexeme.length =
        position + blanks.length + lexeme.length + distance := by omega
    have later := ih (position + blanks.length + lexeme.length)
      fun place within => further place (by omega)
    rw [read.stream_eq blank, read.stream_eq blank, goesOn, later, begins,
      read.relocate move, Outcome.followedBy_relocate]

theorem stream_inserted {gap : List Char} (blank : ∀ character ∈ gap, Text.isBlank character)
    (front back : List Char) (position : Nat) (apart : Text.Apart front back)
    (below : ∀ place, place < position + front.length → move place = place)
    (beyond : ∀ place, position + front.length ≤ place → move place = place + gap.length) :
    stream ⟨front ++ (gap ++ back), position⟩ =
      (stream ⟨front ++ back, position⟩).relocate move := by
  -- As long as the text in front has a lexeme, both texts begin with that same lexeme.
  induction front using Lexeme.text_induction generalizing position with
  | blank front inFront =>
    rw [stream_blanks inFront, stream_blanks inFront, stream_blanks blank]
    exact stream_moved gap.length back _ beyond
  | lexeme blanks lexeme rest reading inFront read ih =>
    simp only [List.length_append] at below beyond
    have cut : Text.Apart (lexeme ++ rest) back := apart.of_shorter
    have later := ih (position + blanks.length + lexeme.length) cut.of_shorter
      (fun place within => below place (by omega)) (fun place within => beyond place (by omega))
    have something : 0 < lexeme.length := List.length_pos_iff.2 read.ne_nil
    have begins : move (position + blanks.length) = position + blanks.length :=
      below _ (by omega)
    simp only [List.append_assoc]
    rw [(read.append (cut.before_blanks blank)).stream_eq inFront,
      (read.append cut).stream_eq inFront, later, ← Outcome.followedBy_relocate,
      ← read.relocate move, begins]

end Cursor
end Calculator
