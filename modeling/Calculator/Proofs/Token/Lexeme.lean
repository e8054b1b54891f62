import Calculator.Token.Stream

/-! Lexemes, the pieces of a text that are read in one go. Main statements: in front of a cursor
there is a lexeme behind some blanks, or nothing but blanks; reading takes exactly these blanks
and this lexeme; and the stream of a text is what its lexemes are read as, up to an error. -/

namespace Calculator

namespace Text

def endsInDigit (text : List Char) : Bool := text.getLast?.any Char.isDigit

def beginsWithDigit (text : List Char) : Bool := text.head?.any Char.isDigit

def Apart (front back : List Char) : Prop := ¬(endsInDigit front ∧ beginsWithDigit back)

instance (front back : List Char) : Decidable (Apart front back) :=
  inferInstanceAs (Decidable (¬_))

theorem endsInDigit_append {front back : List Char} (more : back ≠ []) :
    endsInDigit (front ++ back) = endsInDigit back := by
  obtain ⟨last, found⟩ := Option.ne_none_iff_exists'.1 (mt List.getLast?_eq_none_iff.1 more)
  rw [endsInDigit, endsInDigit, List.getLast?_append, found, Option.some_or]

theorem endsInDigit_of_digits {run : List Char} (more : run ≠ [])
    (digits : ∀ character ∈ run, character.isDigit) : endsInDigit run := by
  rw [endsInDigit, List.getLast?_eq_some_getLast more]
  exact digits _ (List.getLast_mem more)

theorem beginsWithDigit_dropWhile (text : List Char) :
    beginsWithDigit (text.dropWhile Char.isDigit) = false := by
  have stopped := List.head?_dropWhile_not Char.isDigit text
  rw [beginsWithDigit]
  cases first : (text.dropWhile Char.isDigit).head? with
  | none => rfl
  | some character =>
    rw [first] at stopped
    exact stopped

theorem takeWhile_isDigit {run rest : List Char} (digits : ∀ character ∈ run, character.isDigit)
    (ends : beginsWithDigit rest = false) : (run ++ rest).takeWhile Char.isDigit = run := by
  have stops : rest.takeWhile Char.isDigit = [] := by
    cases rest with
    | nil => rfl
    | cons next rest => exact List.takeWhile_cons_of_neg (Bool.eq_false_iff.1 ends)
  rw [List.takeWhile_append_of_pos digits, stops, List.append_nil]

/-- Of the text in front only the end counts. -/
theorem Apart.of_shorter {front middle back : List Char} (apart : Apart (front ++ middle) back) :
    Apart middle back := by
  intro both
  refine apart ⟨?_, both.2⟩
  rw [endsInDigit_append]
  · exact both.1
  · rintro rfl
    exact absurd both.1 Bool.false_ne_true

theorem Apart.before_blanks {front blanks back : List Char} (apart : Apart front back)
    (blank : ∀ character ∈ blanks, isBlank character) : Apart front (blanks ++ back) := by
  cases blanks with
  | nil => exact apart
  | cons first others =>
    intro both
    have other := isDigit_eq_false_of_isBlank (blank first List.mem_cons_self)
    exact Bool.false_ne_true (other.symm.trans both.2)

theorem Apart.behind_blanks {front blanks back : List Char} (apart : Apart front (blanks ++ back))
    (blank : ∀ character ∈ blanks, isBlank character) : Apart (front ++ blanks) back := by
  rcases List.eq_nil_or_concat blanks with rfl | ⟨others, last, rfl⟩
  · rwa [List.append_nil]
  · intro both
    rw [List.concat_eq_append, ← List.append_assoc,
      endsInDigit_append (List.cons_ne_nil _ _)] at both
    have other := isDigit_eq_false_of_isBlank (blank last (by simp))
    exact Bool.false_ne_true (other.symm.trans both.1)

end Text

/-- A lexeme in front of the rest of a text, and what it is read as wherever it begins. -/
inductive Lexeme : List Char → List Char → (Nat → Outcome) → Prop
  | digits {run rest : List Char} : run ≠ [] → (∀ character ∈ run, character.isDigit) →
      Text.beginsWithDigit rest = false → Lexeme run rest (Cursor.ofDigits run)
  | symbol {character : Char} {rest : List Char} : Text.isBlank character = false →
      character.isDigit = false → Lexeme [character] rest (Cursor.ofSymbol character)

namespace Cursor

theorem skipWhile_append {condition : Char → Bool} {run : List Char}
    (satisfied : ∀ character ∈ run, condition character) (rest : List Char) (position : Nat) :
    skipWhile condition ⟨run ++ rest, position⟩ =
      skipWhile condition ⟨rest, position + run.length⟩ := by
  simp only [skipWhile, List.takeWhile_append_of_pos satisfied,
    List.dropWhile_append_of_pos satisfied, List.length_append, Nat.add_assoc]

theorem skipWhile_eq_self {condition : Char → Bool} {text : List Char}
    (other : text.head?.any condition = false) (position : Nat) :
    skipWhile condition ⟨text, position⟩ = ⟨text, position⟩ := by
  cases text with
  | nil => rfl
  | cons first rest =>
    have stops : condition first = false := other
    simp [skipWhile, stops]

theorem nextToken_blanks {blanks : List Char}
    (blank : ∀ character ∈ blanks, Text.isBlank character) (rest : List Char) (position : Nat) :
    nextToken ⟨blanks ++ rest, position⟩ = nextToken ⟨rest, position + blanks.length⟩ := by
  rw [nextToken, nextToken, skipWhile_append blank]

theorem nextToken_nil (position : Nat) :
    nextToken ⟨[], position⟩ = (.ok ⟨.endOfInput, position⟩, ⟨[], position⟩) := rfl

theorem nextToken_all_blank {blanks : List Char}
    (blank : ∀ character ∈ blanks, Text.isBlank character) (position : Nat) :
    nextToken ⟨blanks, position⟩ =
      (.ok ⟨.endOfInput, position + blanks.length⟩, ⟨[], position + blanks.length⟩) := by
  have skipped := nextToken_blanks blank [] position
  rwa [List.append_nil, nextToken_nil] at skipped

/-- In front of a cursor stand blanks alone, or a lexeme behind some blanks. -/
theorem exists_lexeme (text : List Char) :
    (∀ character ∈ text, Text.isBlank character) ∨
    ∃ blanks lexeme rest reading, text = blanks ++ (lexeme ++ rest) ∧
      (∀ character ∈ blanks, Text.isBlank character) ∧ Lexeme lexeme rest reading := by
  induction text with
  | nil => exact Or.inl (by simp)
  | cons first text ih =>
    by_cases blank : Text.isBlank first
    · rcases ih with all | ⟨blanks, lexeme, rest, reading, rfl, inFront, read⟩
      · exact Or.inl (List.forall_mem_cons.2 ⟨blank, all⟩)
      · exact Or.inr ⟨first :: blanks, lexeme, rest, reading, rfl,
          List.forall_mem_cons.2 ⟨blank, inFront⟩, read⟩
    · refine Or.inr ⟨[], ?_⟩
      by_cases digit : first.isDigit
      · refine ⟨(first :: text).takeWhile Char.isDigit, (first :: text).dropWhile Char.isDigit,
          _, List.takeWhile_append_dropWhile.symm, by simp, .digits ?_ ?_ ?_⟩
        · simp [digit]
        · exact List.all_eq_true.1 List.all_takeWhile
        · exact Text.beginsWithDigit_dropWhile _
      · exact ⟨[first], text, _, rfl, by simp,
          .symbol (Bool.eq_false_iff.2 blank) (Bool.eq_false_iff.2 digit)⟩

end Cursor

namespace Lexeme

open Cursor

variable {lexeme rest : List Char} {reading : Nat → Outcome}

theorem ne_nil (read : Lexeme lexeme rest reading) : lexeme ≠ [] := by
  cases read with
  | digits more digits ends => exact more
  | symbol visible other => exact List.cons_ne_nil _ _

@[elab_as_elim]
theorem text_induction {motive : List Char → Prop}
    (blank : ∀ text, (∀ character ∈ text, Text.isBlank character) → motive text)
    (lexeme : ∀ blanks lexeme rest reading, (∀ character ∈ blanks, Text.isBlank character) →
      Lexeme lexeme rest reading → motive rest → motive (blanks ++ (lexeme ++ rest)))
    (text : List Char) : motive text := by
  induction size : text.length using Nat.strongRecOn generalizing text with
  | ind count ih =>
    rcases exists_lexeme text with all | ⟨blanks, first, rest, reading, rfl, inFront, read⟩
    · exact blank text all
    · have something : 0 < first.length := List.length_pos_iff.2 read.ne_nil
      rw [List.length_append, List.length_append] at size
      exact lexeme blanks first rest reading inFront read (ih rest.length (by omega) rest rfl)

theorem nextToken_eq (read : Lexeme lexeme rest reading) (position : Nat) :
    nextToken ⟨lexeme ++ rest, position⟩ =
      (reading position, ⟨rest, position + lexeme.length⟩) := by
  cases read with
  | digits more digits ends =>
    obtain ⟨first, others, rfl⟩ := List.exists_cons_of_ne_nil more
    have digit : first.isDigit := digits first List.mem_cons_self
    have visible : (first :: others ++ rest).head?.any Text.isBlank = false :=
      Text.isBlank_eq_false_of_isDigit digit
    rw [nextToken, skipWhile_eq_self visible]
    simp only [readLexeme, List.cons_append, digit, if_true]
    rw [← List.cons_append, Text.takeWhile_isDigit digits ends, skipWhile_append digits,
      skipWhile_eq_self ends]
  | @symbol character _ visible other =>
    rw [nextToken, skipWhile_eq_self (by exact visible)]
    simp [readLexeme, other]

theorem nextToken_behind (read : Lexeme lexeme rest reading) {blanks : List Char}
    (blank : ∀ character ∈ blanks, Text.isBlank character) (position : Nat) :
    nextToken ⟨blanks ++ (lexeme ++ rest), position⟩ =
      (reading (position + blanks.length),
        ⟨rest, position + blanks.length + lexeme.length⟩) := by
  rw [nextToken_blanks blank, read.nextToken_eq]

/-- A lexeme stays one when its text goes on, unless a run of digits goes on. -/
theorem append (read : Lexeme lexeme rest reading) {back : List Char}
    (apart : Text.Apart (lexeme ++ rest) back) : Lexeme lexeme (rest ++ back) reading := by
  cases read with
  | digits more digits ends =>
    refine .digits more digits ?_
    cases rest with
    | nil =>
      rw [List.append_nil] at apart
      exact Bool.eq_false_iff.2 fun begins =>
        apart ⟨Text.endsInDigit_of_digits more digits, begins⟩
    | cons next rest => exact ends
  | symbol visible other => exact .symbol visible other

theorem kind_ne_endOfInput (read : Lexeme lexeme rest reading) {position : Nat} {token : Token}
    (success : reading position = .ok token) : token.kind ≠ .endOfInput := by
  cases read with
  | digits more digits ends =>
    rw [ofDigits] at success
    split at success
    · cases success
      exact Token.Kind.noConfusion
    · cases success
  | @symbol character _ visible other =>
    rw [ofSymbol] at success
    split at success
    · rename_i kind found
      cases success
      rintro rfl
      exact absurd (Token.Kind.ofSymbol?_eq_some_iff.1 found) (by simp [Token.Kind.symbol?])
    · cases success

theorem position_eq (read : Lexeme lexeme rest reading) {position : Nat} {token : Token}
    (success : reading position = .ok token) : token.position = position := by
  cases read with
  | digits more digits ends =>
    rw [ofDigits] at success
    split at success
    · cases success
      rfl
    · cases success
  | symbol visible other =>
    rw [ofSymbol] at success
    split at success
    · cases success
      rfl
    · cases success

end Lexeme

/-- An outcome and what is read behind it. Behind an error nothing is read. -/
def Outcome.followedBy : Outcome → TokenStream → TokenStream
  | .ok token, later => later.cons token
  | .error error, _ => ⟨[], .failed error⟩

namespace Cursor

theorem stream_eq_of_nextToken {cursor next : Cursor} {outcome : Outcome}
    (step : cursor.nextToken = (outcome, next))
    (more : ∀ token, outcome = .ok token → token.kind ≠ .endOfInput) :
    cursor.stream = outcome.followedBy next.stream := by
  rw [stream, readAll_eq, step]
  cases outcome with
  | error error => rfl
  | ok token =>
    have other := more token rfl
    simp only [other, if_false]
    rfl

theorem stream_blanks {blanks : List Char}
    (blank : ∀ character ∈ blanks, Text.isBlank character) (rest : List Char) (position : Nat) :
    stream ⟨blanks ++ rest, position⟩ = stream ⟨rest, position + blanks.length⟩ := by
  rw [stream, stream, readAll_eq, nextToken_blanks blank, ← readAll_eq]

theorem stream_all_blank {blanks : List Char}
    (blank : ∀ character ∈ blanks, Text.isBlank character) (position : Nat) :
    stream ⟨blanks, position⟩ = ⟨[], .endOfInput (position + blanks.length)⟩ := by
  rw [stream, readAll_eq, nextToken_all_blank blank]
  rfl

end Cursor

theorem Lexeme.stream_eq {lexeme rest : List Char} {reading : Nat → Outcome}
    (read : Lexeme lexeme rest reading) {blanks : List Char}
    (blank : ∀ character ∈ blanks, Text.isBlank character) (position : Nat) :
    Cursor.stream ⟨blanks ++ (lexeme ++ rest), position⟩ =
      (reading (position + blanks.length)).followedBy
        (Cursor.stream ⟨rest, position + blanks.length + lexeme.length⟩) :=
  Cursor.stream_eq_of_nextToken (read.nextToken_behind blank position)
    fun _ success => read.kind_ne_endOfInput success

theorem Token.Kind.visible_of_symbol? {kind : Token.Kind} {character : Char}
    (symbol : kind.symbol? = some character) :
    Text.isBlank character = false ∧ character.isDigit = false := by
  cases kind with
  | operator operator =>
    cases symbol
    cases operator <;> decide
  | leftParen => cases symbol; decide
  | rightParen => cases symbol; decide
  | integer value => cases symbol
  | endOfInput => cases symbol

namespace Cursor

theorem nextToken_symbol {kind : Token.Kind} {character : Char}
    (symbol : kind.symbol? = some character) {blanks : List Char}
    (blank : ∀ character ∈ blanks, Text.isBlank character) (rest : List Char) (position : Nat) :
    nextToken ⟨blanks ++ character :: rest, position⟩ =
      (.ok ⟨kind, position + blanks.length⟩, ⟨rest, position + blanks.length + 1⟩) := by
  have visible := Token.Kind.visible_of_symbol? symbol
  have read : Lexeme [character] rest (ofSymbol character) := .symbol visible.1 visible.2
  have known : ofSymbol character (position + blanks.length) =
      .ok ⟨kind, position + blanks.length⟩ := by
    rw [ofSymbol, Token.Kind.ofSymbol?_eq_some_iff.2 symbol]
  rw [← known]
  exact read.nextToken_behind blank position

theorem forall_mem_stream {property : Token → Prop}
    (lexemes : ∀ {lexeme rest : List Char} {reading : Nat → Outcome} {position : Nat}
      {token : Token}, Lexeme lexeme rest reading → reading position = .ok token → property token)
    (text : List Char) (position : Nat) :
    ∀ token ∈ (stream ⟨text, position⟩).tokens, property token := by
  induction text using Lexeme.text_induction generalizing position with
  | blank text blank =>
    rw [stream_all_blank blank]
    exact List.forall_mem_nil _
  | lexeme blanks lexeme rest reading blank read ih =>
    rw [read.stream_eq blank]
    cases outcome : reading (position + blanks.length) with
    | error error => exact List.forall_mem_nil _
    | ok token => exact List.forall_mem_cons.2 ⟨lexemes read outcome, ih _⟩

theorem length_stream_le (text : List Char) (position : Nat) :
    (stream ⟨text, position⟩).tokens.length ≤ text.length := by
  induction text using Lexeme.text_induction generalizing position with
  | blank text blank =>
    rw [stream_all_blank blank]
    exact Nat.zero_le _
  | lexeme blanks lexeme rest reading blank read ih =>
    have something : 0 < lexeme.length := List.length_pos_iff.2 read.ne_nil
    have behind := ih (position + blanks.length + lexeme.length)
    rw [read.stream_eq blank, List.length_append, List.length_append]
    cases reading (position + blanks.length) with
    | error error => exact Nat.zero_le _
    | ok token =>
      change (stream _).tokens.length + 1 ≤ _
      omega

theorem position_add_le {text : List Char} {position : Nat} {front back : List Token}
    {token : Token} (split : (stream ⟨text, position⟩).tokens = front ++ token :: back) :
    token.position + (back.length + 1) ≤ position + text.length := by
  induction text using Lexeme.text_induction generalizing position front with
  | blank text blank =>
    rw [stream_all_blank blank] at split
    exact absurd split.symm (by simp)
  | lexeme blanks lexeme rest reading blank read ih =>
    rw [List.length_append, List.length_append]
    rw [read.stream_eq blank] at split
    cases outcome : reading (position + blanks.length) with
    | error error =>
      rw [outcome] at split
      exact absurd split.symm (by simp [Outcome.followedBy])
    | ok first =>
      rw [outcome] at split
      cases front with
      | nil =>
        obtain ⟨rfl, rfl⟩ := List.cons.inj split
        have here := read.position_eq outcome
        have something : 0 < lexeme.length := List.length_pos_iff.2 read.ne_nil
        have behind := length_stream_le rest (position + blanks.length + lexeme.length)
        omega
      | cons _ front =>
        have behind := ih (List.cons.inj split).2
        omega

end Cursor
end Calculator
