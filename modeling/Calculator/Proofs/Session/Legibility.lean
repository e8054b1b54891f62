import Calculator.Proofs.Session.Conservation
import Mathlib.Algebra.Group.Int.Defs
import Mathlib.Order.WellFounded

/-! What of a text can be read. Main statement: every run of digits is read as its exact value, or
is reported as it stands if no value holds it, and a text is read up to the first of its runs that
is too large and of its characters that mean nothing, or else to its end. -/

namespace Calculator

namespace Text

def Legible (character : Char) : Prop :=
  isBlank character ∨ character.isDigit ∨ character ∈ marks

/-- A run of digits between two texts that goes on into neither of them. -/
structure Run (front run back : List Char) : Prop where
  ne_nil : run ≠ []
  digits : ∀ character ∈ run, character.isDigit
  front : endsInDigit front = false
  back : beginsWithDigit back = false

structure Readable (text : List Char) : Prop where
  legible : ∀ character ∈ text, Legible character
  bounded : ∀ front run back, text = front ++ (run ++ back) → Run front run back →
    Decimal.value run ≤ 2 ^ 63 - 1

inductive Fault (text : List Char) : LexicalError → Prop
  | illegible {front back : List Char} {character : Char} : text = front ++ character :: back →
      ¬Legible character → Fault text (.unexpectedCharacter character front.length)
  | tooLarge {front run back : List Char} : text = front ++ (run ++ back) →
      Run front run back → 2 ^ 63 - 1 < Decimal.value run →
      Fault text (.integerTooLarge (String.ofList run) front.length)

theorem endsInDigit_of_blank {blanks : List Char}
    (blank : ∀ character ∈ blanks, isBlank character) : endsInDigit blanks = false := by
  cases last : blanks.getLast? with
  | none => rw [endsInDigit, last, Option.any_none]
  | some character =>
    rw [endsInDigit, last, Option.any_some]
    exact isDigit_eq_false_of_isBlank (blank character (List.mem_of_getLast? last))

namespace Run

variable {front run back : List Char}

theorem beginsWithDigit (isRun : Run front run back) (rest : List Char) :
    Text.beginsWithDigit (run ++ rest) := by
  obtain ⟨first, others, rfl⟩ := List.exists_cons_of_ne_nil isRun.ne_nil
  exact isRun.digits first List.mem_cons_self

theorem apart (isRun : Run front run back) : Apart front (run ++ back) :=
  fun both => Bool.false_ne_true (isRun.front.symm.trans both.1)

theorem lexeme (isRun : Run front run back) : Lexeme run back (Cursor.ofDigits run) :=
  .digits isRun.ne_nil isRun.digits isRun.back

theorem behind {before : List Char} (isRun : Run front run back)
    (apart : Apart before (front ++ (run ++ back))) : Run (before ++ front) run back := by
  refine { isRun with front := Bool.eq_false_iff.2 fun ends => ?_ }
  cases front with
  | nil =>
    rw [List.append_nil] at ends
    exact apart ⟨ends, isRun.beginsWithDigit back⟩
  | cons first others =>
    rw [endsInDigit_append (List.cons_ne_nil _ _)] at ends
    exact Bool.false_ne_true (isRun.front.symm.trans ends)

theorem before {behind : List Char} (isRun : Run front run back)
    (apart : Apart (front ++ (run ++ back)) behind) : Run front run (back ++ behind) := by
  refine { isRun with back := Bool.eq_false_iff.2 fun begins => ?_ }
  cases back with
  | nil =>
    rw [List.append_nil] at apart
    exact apart.of_shorter ⟨endsInDigit_of_digits isRun.ne_nil isRun.digits, begins⟩
  | cons first others => exact Bool.false_ne_true (isRun.back.symm.trans begins)

end Run

theorem Readable.of_append {front back : List Char} (readable : Readable (front ++ back))
    (apart : Apart front back) : Readable back where
  legible := fun character member => readable.legible character (List.mem_append_right _ member)
  bounded := by
    rintro before run behind rfl isRun
    exact readable.bounded (front ++ before) run behind (by rw [List.append_assoc])
      (isRun.behind apart)

theorem exists_fault {text : List Char} (unreadable : ¬Readable text) :
    ∃ error, Fault text error := by
  by_contra none
  refine unreadable ⟨fun character member => ?_, fun front run back split isRun => ?_⟩
  · obtain ⟨front, back, split⟩ := List.append_of_mem member
    by_contra illegible
    exact none ⟨_, .illegible split illegible⟩
  · by_contra beyond
    exact none ⟨_, .tooLarge split isRun (Nat.lt_of_not_le beyond)⟩

namespace Fault

variable {text : List Char} {error : LexicalError}

theorem append (fault : Fault text error) {back : List Char} (apart : Apart text back) :
    Fault (text ++ back) error := by
  cases fault with
  | illegible split illegible =>
    subst split
    exact .illegible (by rw [List.append_assoc, List.cons_append]) illegible
  | tooLarge split isRun beyond =>
    subst split
    exact .tooLarge (by rw [List.append_assoc, List.append_assoc]) (isRun.before apart) beyond

theorem position_lt (fault : Fault text error) : error.position < text.length := by
  cases fault with
  | illegible split illegible =>
    rw [split, List.length_append, List.length_cons, LexicalError.position]
    omega
  | tooLarge split isRun beyond =>
    have something := List.length_pos_iff.2 isRun.ne_nil
    rw [split, List.length_append, List.length_append, LexicalError.position]
    omega

theorem exists_first (fault : Fault text error) :
    ∃ first, Fault text first ∧ ∀ other, Fault text other → first.position ≤ other.position := by
  obtain ⟨first, isFault, least⟩ :=
    (measure LexicalError.position).wf.has_min {other | Fault text other} ⟨error, fault⟩
  exact ⟨first, isFault, fun other isOther => Nat.le_of_not_lt (least other isOther)⟩

end Fault
end Text

open Text

theorem Token.Kind.isSome_ofSymbol?_iff {character : Char} :
    (ofSymbol? character).isSome ↔ character ∈ marks := by
  constructor
  · intro known
    obtain ⟨kind, found⟩ := Option.isSome_iff_exists.1 known
    have written := ofSymbol?_eq_some_iff.1 found
    cases kind with
    | operator operator =>
      cases written
      exact operator.symbol_mem_marks
    | leftParen =>
      cases written
      decide
    | rightParen =>
      cases written
      decide
    | integer value => cases written
    | endOfInput => cases written
  · intro isMark
    by_contra unknown
    exact not_mem_symbols (Option.not_isSome_iff_eq_none.1 unknown) isMark

namespace Cursor

theorem ofDigits_of_le {digits : List Char} (fits : Decimal.value digits ≤ 2 ^ 63 - 1)
    (position : Nat) : ∃ value : Value, value.toInt = Decimal.value digits ∧
      ofDigits digits position = .ok ⟨.integer value, position⟩ := by
  refine ⟨Word.ofInt 64 (Decimal.value digits), Word.toInt_ofInt_natCast (by decide) fits, ?_⟩
  rw [ofDigits_eq]
  exact if_pos fits

theorem ofDigits_of_lt {digits : List Char} (beyond : 2 ^ 63 - 1 < Decimal.value digits)
    (position : Nat) :
    ofDigits digits position = .error (.integerTooLarge (String.ofList digits) position) := by
  rw [ofDigits_eq]
  exact if_neg (Nat.not_le.2 beyond)

theorem ofSymbol_of_illegible {character : Char} (illegible : ¬Legible character)
    (position : Nat) :
    ofSymbol character position = .error (.unexpectedCharacter character position) := by
  have unknown : Token.Kind.ofSymbol? character = none := by
    refine Option.not_isSome_iff_eq_none.1 fun known => illegible ?_
    exact .inr (.inr (Token.Kind.isSome_ofSymbol?_iff.1 known))
  rw [ofSymbol, unknown]

end Cursor

theorem Lexeme.exists_token {blanks lexeme rest : List Char} {reading : Nat → Outcome}
    (read : Lexeme lexeme rest reading) (blank : ∀ character ∈ blanks, isBlank character)
    (readable : Readable (blanks ++ (lexeme ++ rest))) (position : Nat) :
    ∃ token, reading position = .ok token := by
  cases read with
  | digits more digits ends =>
    have isRun : Run blanks lexeme rest := ⟨more, digits, endsInDigit_of_blank blank, ends⟩
    obtain ⟨value, -, reads⟩ :=
      Cursor.ofDigits_of_le (readable.bounded blanks lexeme rest rfl isRun) position
    exact ⟨_, reads⟩
  | @symbol character _ visible other =>
    have legible : Legible character := readable.legible character (by simp)
    rcases legible with blank' | digit | isMark
    · exact absurd (visible.symm.trans blank') Bool.false_ne_true
    · exact absurd (other.symm.trans digit) Bool.false_ne_true
    · obtain ⟨kind, found⟩ :=
        Option.isSome_iff_exists.1 (Token.Kind.isSome_ofSymbol?_iff.2 isMark)
      exact ⟨⟨kind, position⟩, by rw [Cursor.ofSymbol, found]⟩

theorem Text.Readable.ending_eq {text : List Char} (readable : Readable text) (position : Nat) :
    (Cursor.stream ⟨text, position⟩).ending = .endOfInput (position + text.length) := by
  induction text using Lexeme.text_induction generalizing position with
  | blank text blank => rw [Cursor.stream_all_blank blank]
  | lexeme blanks lexeme rest reading blank read ih =>
    obtain ⟨token, reads⟩ := read.exists_token blank readable (position + blanks.length)
    have later : Readable rest := by
      rw [← List.append_assoc] at readable
      exact readable.of_append (read.apart blanks)
    rw [read.stream_eq blank, reads, Outcome.followedBy, TokenStream.cons, ih later,
      List.length_append, List.length_append, Nat.add_assoc, Nat.add_assoc]

theorem Text.Fault.exists_lexeme {text : List Char} {error : LexicalError}
    (fault : Fault text error) :
    ∃ front lexeme rest reading, text = front ++ (lexeme ++ rest) ∧
      Apart front (lexeme ++ rest) ∧ Lexeme lexeme rest reading ∧
      reading front.length = .error error ∧ error.position = front.length := by
  cases fault with
  | @illegible front back character split illegible =>
    have visible : isBlank character = false :=
      Bool.eq_false_iff.2 fun blank => illegible (.inl blank)
    have other : character.isDigit = false :=
      Bool.eq_false_iff.2 fun digit => illegible (.inr (.inl digit))
    exact ⟨front, [character], back, _, split, fun both => Bool.false_ne_true
      (other.symm.trans both.2), .symbol visible other, Cursor.ofSymbol_of_illegible illegible _,
      rfl⟩
  | @tooLarge front run back split isRun beyond =>
    exact ⟨front, run, back, _, split, isRun.apart, isRun.lexeme,
      Cursor.ofDigits_of_lt beyond _, rfl⟩

/-- Reading a text ends at the first thing that is wrong with it, since what stands in front is
readable. -/
theorem Text.Fault.ending_eq {text : List Char} {error : LexicalError} (fault : Fault text error)
    (first : ∀ other, Fault text other → error.position ≤ other.position) :
    (Cursor.stream ⟨text, 0⟩).ending = .failed error := by
  obtain ⟨front, lexeme, rest, reading, rfl, apart, read, failed, place⟩ := fault.exists_lexeme
  have readable : Readable front := by
    -- what is wrong with the front alone would be wrong with the whole text, and come first there
    by_contra unreadable
    obtain ⟨other, isOther⟩ := exists_fault unreadable
    have notBefore := first other (isOther.append apart)
    have before := isOther.position_lt
    omega
  have step := read.stream_eq (List.forall_mem_nil _) front.length
  rw [List.nil_append, List.length_nil, Nat.add_zero, failed] at step
  rw [Cursor.stream_append apart, TokenStream.append, readable.ending_eq, Nat.zero_add, step]
  rfl

/-- A cursor with nothing but blanks between it and what follows a beginning of a text. -/
def Cursor.Faces (front rest : List Char) (cursor : Cursor) : Prop :=
  ∃ blanks place, (∀ character ∈ blanks, isBlank character) ∧ cursor = ⟨blanks ++ rest, place⟩ ∧
    place + blanks.length = front.length

namespace Scanner

theorem exists_facing {passed front back : List Char} {scanner : Scanner}
    (stands : scanner.cursor = ⟨front ++ back, passed.length⟩) (apart : Apart front back) :
    ∃ number, (scanner.after number).cursor.Faces (passed ++ front) back := by
  induction front using Lexeme.text_induction generalizing passed scanner with
  | blank front blank =>
    exact ⟨0, front, passed.length, blank, stands, List.length_append.symm⟩
  | lexeme blanks lexeme rest reading blank read ih =>
    have cut : Apart (lexeme ++ rest) back := apart.of_shorter
    have next : scanner.nextToken.2.cursor =
        ⟨rest ++ back, (passed ++ blanks ++ lexeme).length⟩ := by
      rw [cursor_nextToken, stands, List.append_assoc, List.append_assoc,
        (read.append cut).nextToken_behind blank, List.length_append, List.length_append]
    obtain ⟨number, faces⟩ := ih next cut.of_shorter
    rw [List.append_assoc, List.append_assoc] at faces
    exact ⟨number + 1, faces⟩

theorem nextToken_of_faces {scanner : Scanner} {front lexeme rest : List Char}
    {reading : Nat → Outcome} (faces : scanner.cursor.Faces front (lexeme ++ rest))
    (read : Lexeme lexeme rest reading) :
    scanner.nextToken.1 = reading front.length ∧
      scanner.nextToken.2.cursor = ⟨rest, front.length + lexeme.length⟩ := by
  obtain ⟨blanks, place, blank, stands, length⟩ := faces
  rw [cursor_nextToken, nextToken, stands, read.nextToken_behind blank, length]
  exact ⟨rfl, rfl⟩

theorem getLast?_drain (text : String) :
    (start text).drain.1.getLast? = some (Cursor.stream ⟨text.toList, 0⟩).ending.outcome :=
  List.getLast?_concat

/-- Requests for tokens come to every run of digits of a text, and there the whole run is read, as
exactly its value or as too large. Reading comes to the end of the text exactly if every character
means something and every run has a value, and the literals of a tree are such values. Otherwise
reading ends at what is wrong first. -/
theorem reads_numbers_exactly (text : String) :
    (∀ front run back, text.toList = front ++ (run ++ back) → Run front run back →
      (∃ number, ((start text).after number).cursor.Faces front (run ++ back)) ∧
      ∀ scanner : Scanner, scanner.cursor.Faces front (run ++ back) →
        (Decimal.value run ≤ 2 ^ 63 - 1 → ∃ value : Value, value.toInt = Decimal.value run ∧
          scanner.nextToken.1 = .ok ⟨.integer value, front.length⟩) ∧
        (2 ^ 63 - 1 < Decimal.value run →
          scanner.nextToken.1 = .error (.integerTooLarge (String.ofList run) front.length)) ∧
        scanner.nextToken.2.cursor = ⟨back, front.length + run.length⟩) ∧
    ((start text).drain.1.getLast? = some (.ok ⟨.endOfInput, text.length⟩) ↔
      Readable text.toList) ∧
    (∀ tree, Calculator.parse text = .ok tree →
      ∀ value ∈ tree.literals, 0 ≤ value.toInt ∧ value.toInt ≤ 2 ^ 63 - 1) ∧
    (¬Readable text.toList → ∃ error, (start text).drain.1.getLast? = some (.error error) ∧
      Fault text.toList error ∧
      ∀ other, Fault text.toList other → error.position ≤ other.position) := by
  have stops (unreadable : ¬Readable text.toList) :
      ∃ error, (start text).drain.1.getLast? = some (.error error) ∧ Fault text.toList error ∧
        ∀ other, Fault text.toList other → error.position ≤ other.position := by
    obtain ⟨fault, isFault⟩ := exists_fault unreadable
    obtain ⟨error, isError, first⟩ := isFault.exists_first
    exact ⟨error, by rw [getLast?_drain, isError.ending_eq first]; rfl, isError, first⟩
  refine ⟨fun front run back split isRun => ⟨?reached, fun scanner faces => ?read⟩, ⟨?ends, ?end'⟩,
    fun tree parsed value member => ?literal, stops⟩
  case reached =>
    have stands : (start text).cursor = ⟨front ++ (run ++ back), ([] : List Char).length⟩ := by
      rw [← split]
      rfl
    exact exists_facing stands isRun.apart
  case read =>
    obtain ⟨reads, moved⟩ := nextToken_of_faces faces isRun.lexeme
    rw [reads]
    exact ⟨fun fits => Cursor.ofDigits_of_le fits _, fun beyond => Cursor.ofDigits_of_lt beyond _,
      moved⟩
  case ends =>
    intro ends
    by_contra unreadable
    obtain ⟨error, failed, -⟩ := stops unreadable
    cases ends.symm.trans failed
  case end' =>
    intro readable
    rw [getLast?_drain, readable.ending_eq, Nat.zero_add, String.length_toList]
    rfl
  case literal =>
    have bound := (Word.holds_toInt value).2
    exact ⟨Expr.nonneg_of_parse parsed value member, Int.le_sub_one_of_lt bound⟩

example : (start "0009223372036854775807 9223372036854775808").drain.1 =
    [.ok ⟨.integer ⟨9223372036854775807⟩, 0⟩,
      .error (.integerTooLarge "9223372036854775808" 23)] := by decide +kernel

end Scanner
end Calculator
