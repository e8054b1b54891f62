import Calculator.Proofs.Token.Lexeme
import Calculator.Proofs.Word.Exactness
import Calculator.Token.Scanner

/-! Where the lexemes of a text stand. Main statement: asking a scanner for one token after the
other, also behind errors, cuts its text into spans with nothing but blanks around them, every
outcome tells the place and the characters of its span, and behind the last span the end of the
input is read for ever. -/

namespace Calculator

structure Span where
  start : Nat
  stop : Nat
deriving DecidableEq, Repr

namespace Span

def Covers (span : Span) (place : Nat) : Prop := span.start ≤ place ∧ place < span.stop

def characters (text : List Char) (span : Span) : List Char :=
  (text.drop span.start).take (span.stop - span.start)

theorem characters_between (front middle back : List Char) :
    characters (front ++ (middle ++ back)) ⟨front.length, front.length + middle.length⟩ =
      middle := by
  rw [characters, List.drop_left, Nat.add_sub_cancel_left, List.take_left]

/-- Digits that are a whole run: there is no further one in front of them or behind them. -/
structure DigitRun (text : List Char) (span : Span) : Prop where
  digits : ∀ character ∈ span.characters text, character.isDigit
  front : Text.endsInDigit (text.take span.start) = false
  back : Text.beginsWithDigit (text.drop span.stop) = false

end Span

inductive Spells (text : List Char) (span : Span) : Outcome → Prop
  | integer (value : Value) : span.DigitRun text →
      value.toInt = Text.Decimal.value (span.characters text) →
      Spells text span (.ok ⟨.integer value, span.start⟩)
  | tooLarge : span.DigitRun text →
      Spells text span
        (.error (.integerTooLarge (String.ofList (span.characters text)) span.start))
  | symbol (kind : Token.Kind) (character : Char) : kind.symbol? = some character →
      span.characters text = [character] → Spells text span (.ok ⟨kind, span.start⟩)
  | unexpected (character : Char) : span.characters text = [character] →
      Text.isBlank character = false → character.isDigit = false →
      character ∉ ['+', '-', '*', '/', '(', ')'] →
      Spells text span (.error (.unexpectedCharacter character span.start))

namespace Scanner

def after (scanner : Scanner) : Nat → Scanner
  | 0 => scanner
  | requests + 1 => scanner.nextToken.2.after requests

end Scanner

/-- Requests for tokens cut the text in front of a scanner into spans, one for each outcome
up to the end of the input. -/
structure Cuts (text : List Char) (scanner : Scanner) (spans : List Span) : Prop where
  ordered : spans.Pairwise fun earlier later => earlier.stop ≤ later.start
  inside : ∀ span ∈ spans,
    scanner.cursor.position ≤ span.start ∧ span.start < span.stop ∧ span.stop ≤ text.length
  blank : ∀ place character, scanner.cursor.position ≤ place →
    text[place]? = some character → (∀ span ∈ spans, ¬span.Covers place) →
      Text.isBlank character
  spelled : ∀ number span, spans[number]? = some span →
    Spells text span (scanner.after number).nextToken.1
  behind : ∀ number span, spans[number]? = some span →
    (scanner.after (number + 1)).cursor = ⟨text.drop span.stop, span.stop⟩
  ended : ∀ number, spans.length ≤ number →
    (scanner.after number).nextToken.1 = .ok ⟨.endOfInput, text.length⟩

theorem Cursor.ofDigits_eq (digits : List Char) (position : Nat) :
    ofDigits digits position =
      if Text.Decimal.value digits ≤ Word.largest 64
      then .ok ⟨.integer (Word.ofInt 64 (Text.Decimal.value digits)), position⟩
      else .error (.integerTooLarge (String.ofList digits) position) := by
  rw [ofDigits, Text.Decimal.valueUpTo?_eq]
  by_cases fits : Text.Decimal.value digits ≤ Word.largest 64
  · simp only [if_pos fits]
  · simp only [if_neg fits]

theorem Token.Kind.not_mem_symbols {character : Char} (unknown : ofSymbol? character = none) :
    character ∉ ['+', '-', '*', '/', '(', ')'] := by
  intro member
  simp only [List.mem_cons, List.not_mem_nil, or_false] at member
  rcases member with rfl | rfl | rfl | rfl | rfl | rfl <;> cases unknown

namespace Lexeme

variable {lexeme rest : List Char} {reading : Nat → Outcome}

theorem spells (read : Lexeme lexeme rest reading) {front : List Char}
    (apart : Text.Apart front (lexeme ++ rest)) :
    Spells (front ++ (lexeme ++ rest)) ⟨front.length, front.length + lexeme.length⟩
      (reading front.length) := by
  have characters := Span.characters_between front lexeme rest
  cases read with
  | digits more digits ends =>
    have run : Span.DigitRun (front ++ (lexeme ++ rest))
        ⟨front.length, front.length + lexeme.length⟩ := by
      refine ⟨characters.symm ▸ digits, ?_, ?_⟩
      · rw [List.take_left]
        refine Bool.eq_false_iff.2 fun before => apart ⟨before, ?_⟩
        obtain ⟨first, others, rfl⟩ := List.exists_cons_of_ne_nil more
        exact digits first List.mem_cons_self
      · rw [← List.append_assoc, ← List.length_append, List.drop_left]
        exact ends
    rw [Cursor.ofDigits_eq]
    split
    · rename_i fits
      exact .integer _ run (by rw [characters]; exact Word.toInt_ofInt_natCast (by decide) fits)
    · have reported := Spells.tooLarge run
      rwa [characters] at reported
  | @symbol character _ visible other =>
    rw [Cursor.ofSymbol]
    split
    · rename_i kind found
      exact .symbol kind character (Token.Kind.ofSymbol?_eq_some_iff.1 found) characters
    · rename_i unknown
      exact .unexpected character characters visible other
        (Token.Kind.not_mem_symbols unknown)

theorem apart (read : Lexeme lexeme rest reading) (front : List Char) :
    Text.Apart (front ++ lexeme) rest := by
  intro both
  cases read with
  | digits more digits ends => exact Bool.false_ne_true (ends.symm.trans both.2)
  | symbol visible other =>
    rw [Text.endsInDigit_append (List.cons_ne_nil _ _)] at both
    exact Bool.false_ne_true (other.symm.trans both.1)

end Lexeme

namespace Scanner

theorem after_end {scanner : Scanner} {position : Nat}
    (atEnd : scanner.cursor = ⟨[], position⟩) (requests : Nat) :
    (scanner.after requests).cursor = ⟨[], position⟩ := by
  induction requests generalizing scanner with
  | zero => exact atEnd
  | succ requests ih =>
    apply ih
    rw [cursor_nextToken, atEnd]
    rfl

theorem cuts_of_blank {scanner : Scanner} {front blanks : List Char}
    (blank : ∀ character ∈ blanks, Text.isBlank character)
    (stands : scanner.cursor = ⟨blanks, front.length⟩) :
    Cuts (front ++ blanks) scanner [] where
  ordered := List.Pairwise.nil
  inside := fun _ member => nomatch member
  blank := by
    intro place character within found _
    rw [stands] at within
    rw [List.getElem?_append_right within] at found
    exact blank character (List.mem_of_getElem? found)
  spelled := fun _ _ found => nomatch found
  behind := fun _ _ found => nomatch found
  ended := by
    have first : scanner.cursor.nextToken = (.ok ⟨.endOfInput, (front ++ blanks).length⟩,
        ⟨[], (front ++ blanks).length⟩) := by
      rw [stands, Cursor.nextToken_all_blank blank, List.length_append]
    have atEnd : scanner.nextToken.2.cursor = ⟨[], (front ++ blanks).length⟩ := by
      rw [cursor_nextToken, first]
    intro number _
    cases number with
    | zero => exact congrArg Prod.fst first
    | succ number =>
      rw [after, nextToken, after_end atEnd]
      rfl

theorem cuts_cons {scanner : Scanner} {front blanks lexeme rest : List Char}
    {reading : Nat → Outcome} {spans : List Span}
    (blank : ∀ character ∈ blanks, Text.isBlank character) (read : Lexeme lexeme rest reading)
    (apart : Text.Apart (front ++ blanks) (lexeme ++ rest))
    (stands : scanner.cursor = ⟨blanks ++ (lexeme ++ rest), front.length⟩)
    (later : Cuts (front ++ (blanks ++ (lexeme ++ rest))) scanner.nextToken.2 spans) :
    Cuts (front ++ (blanks ++ (lexeme ++ rest))) scanner
      (⟨(front ++ blanks).length, (front ++ blanks).length + lexeme.length⟩ :: spans) := by
  have step : scanner.cursor.nextToken = (reading (front ++ blanks).length,
      ⟨rest, (front ++ blanks).length + lexeme.length⟩) := by
    rw [stands, read.nextToken_behind blank, List.length_append]
  have given : scanner.nextToken.1 = reading (front ++ blanks).length := congrArg Prod.fst step
  have moved : scanner.nextToken.2.cursor =
      ⟨rest, (front ++ blanks).length + lexeme.length⟩ := by
    rw [cursor_nextToken, step]
  have split : front ++ (blanks ++ (lexeme ++ rest)) = (front ++ blanks) ++ (lexeme ++ rest) :=
    (List.append_assoc _ _ _).symm
  have begun : ∀ span ∈ spans,
      (front ++ blanks).length + lexeme.length ≤ span.start := by
    intro span member
    have bounds := (later.inside span member).1
    rwa [moved] at bounds
  have something : 0 < lexeme.length := List.length_pos_iff.2 read.ne_nil
  refine ⟨?ordered, ?inside, ?blank, ?spelled, ?behind, ?ended⟩
  case ordered => exact List.pairwise_cons.2 ⟨begun, later.ordered⟩
  case inside =>
    have place : scanner.cursor.position = front.length := congrArg Cursor.position stands
    refine List.forall_mem_cons.2 ⟨?_, fun span member => ?_⟩
    · simp only [List.length_append]
      omega
    · have bounds := later.inside span member
      have begins := begun span member
      rw [List.length_append] at begins
      exact ⟨by omega, bounds.2⟩
  case blank =>
    intro place character within found uncovered
    obtain ⟨notHere, notLater⟩ := List.forall_mem_cons.1 uncovered
    rw [stands] at within
    by_cases before : place < (front ++ blanks).length
    · rw [split, List.getElem?_append_left before,
        List.getElem?_append_right within] at found
      exact blank character (List.mem_of_getElem? found)
    · refine later.blank place character ?_ found notLater
      rw [moved]
      exact Nat.le_of_not_lt fun inside => notHere ⟨Nat.le_of_not_lt before, inside⟩
  case spelled =>
    intro number span found
    cases number with
    | zero =>
      cases found
      rw [after, given, split]
      exact read.spells apart
    | succ number => exact later.spelled number span found
  case behind =>
    intro number span found
    cases number with
    | zero =>
      cases found
      rw [after, after, moved, split, ← List.append_assoc, ← List.length_append, List.drop_left]
    | succ number => exact later.behind number span found
  case ended =>
    intro number beyond
    cases number with
    | zero => exact absurd beyond (Nat.not_succ_le_zero _)
    | succ number => exact later.ended number (Nat.le_of_succ_le_succ beyond)

theorem exists_cuts_behind (front rest : List Char) (scanner : Scanner)
    (apart : Text.Apart front rest) (stands : scanner.cursor = ⟨rest, front.length⟩) :
    ∃ spans, spans.length ≤ rest.length ∧ Cuts (front ++ rest) scanner spans := by
  -- No run of digits goes on from what lies behind, so that each run met here is a whole one.
  induction rest using Lexeme.text_induction generalizing front scanner with
  | blank rest blank => exact ⟨[], Nat.zero_le _, cuts_of_blank blank stands⟩
  | lexeme blanks lexeme rest reading blank read ih =>
    have next : scanner.nextToken.2.cursor = ⟨rest, (front ++ blanks ++ lexeme).length⟩ := by
      rw [cursor_nextToken, stands, read.nextToken_behind blank, List.length_append,
        List.length_append]
    obtain ⟨spans, fewer, later⟩ := ih (front ++ blanks ++ lexeme) _ (read.apart _) next
    rw [List.append_assoc, List.append_assoc] at later
    refine ⟨_ :: spans, ?_, cuts_cons blank read (apart.behind_blanks blank) stands later⟩
    have something : 0 < lexeme.length := List.length_pos_iff.2 read.ne_nil
    rw [List.length_cons, List.length_append, List.length_append]
    omega

/-- Every text is cut into at most as many spans as it has characters. -/
theorem exists_cuts (text : String) :
    ∃ spans, spans.length ≤ text.length ∧ Cuts text.toList (start text) spans := by
  have apart : Text.Apart [] text.toList := fun both => Bool.false_ne_true both.1
  obtain ⟨spans, fewer, cuts⟩ := exists_cuts_behind [] text.toList (start text) apart rfl
  exact ⟨spans, String.length_toList ▸ fewer, cuts⟩

end Scanner
end Calculator
