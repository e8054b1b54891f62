import Calculator.Proofs.Token.Span
import Mathlib.Data.List.Chain

/-! Tokens that are written down, with zeros in front of their digits and blanks between them.
Main statement: the text is read as exactly the tokens that were written, each at the place where
it was written, unless the digits of two integers run together. -/

namespace Calculator

/-- A token as it stands in a text, with the blanks behind it. There is no way to write the end
of the input or an integer with a sign. -/
structure Inscription where
  kind : Token.Kind
  zeros : Nat := 0
  gap : String := ""
  inner : kind ≠ .endOfInput := by decide
  unsigned : ∀ value ∈ kind.value?, 0 ≤ value.toInt := by decide
  blank : Text.isBlankText gap := by decide

namespace Inscription

def isInteger (inscription : Inscription) : Bool := inscription.kind.value?.isSome

def lexeme (inscription : Inscription) : List Char :=
  match inscription.kind with
  | .integer value => List.replicate inscription.zeros '0' ++ Nat.toDigits 10 value.toInt.toNat
  | kind => kind.symbol?.toList

def written (inscriptions : List Inscription) : List Char :=
  inscriptions.flatMap fun inscription => inscription.lexeme ++ inscription.gap.toList

def Separated (inscriptions : List Inscription) : Prop :=
  inscriptions.IsChain fun first second => first.isInteger → second.isInteger → first.gap ≠ ""

/-- The tokens of inscriptions behind so many characters, each where its lexeme begins. -/
def tokens (count : Nat) (inscriptions : List Inscription) : List Token :=
  inscriptions.mapIdx fun number inscription =>
    ⟨inscription.kind, count + (written (inscriptions.take number)).length⟩

theorem written_cons (inscription : Inscription) (later : List Inscription) :
    written (inscription :: later) =
      inscription.lexeme ++ (inscription.gap.toList ++ written later) := by
  rw [written, List.flatMap_cons, List.append_assoc]
  rfl

theorem tokens_cons (count : Nat) (inscription : Inscription) (later : List Inscription) :
    tokens count (inscription :: later) =
      ⟨inscription.kind, count⟩ ::
        tokens (count + inscription.lexeme.length + inscription.gap.length) later := by
  simp only [tokens, List.mapIdx_cons, List.take_succ_cons, written_cons, List.length_append,
    String.length_toList, Nat.add_assoc]
  rfl

end Inscription

theorem Text.Decimal.value_zeros (zeros : Nat) (digits : List Char) :
    value (List.replicate zeros '0' ++ digits) = value digits := by
  rw [value, value, Nat.ofDigitChars_append, Nat.ofDigitChars_replicate_zero, Nat.mul_zero]

namespace Inscription

/-- What is written is one lexeme, and is read as its own kind, where no further digit lengthens
it. -/
theorem exists_reading (inscription : Inscription) {rest : List Char}
    (ends : inscription.isInteger → Text.beginsWithDigit rest = false) :
    ∃ reading, Lexeme inscription.lexeme rest reading ∧
      ∀ position, reading position = .ok ⟨inscription.kind, position⟩ := by
  obtain ⟨kind, zeros, gap, inner, unsigned, blank⟩ := inscription
  have symbol {kind : Token.Kind} {character : Char} (known : kind.symbol? = some character) :
      ∃ reading, Lexeme [character] rest reading ∧
        ∀ position, reading position = .ok ⟨kind, position⟩ := by
    have visible := Token.Kind.visible_of_symbol? known
    refine ⟨_, .symbol visible.1 visible.2, fun position => ?_⟩
    rw [Cursor.ofSymbol, Token.Kind.ofSymbol?_eq_some_iff.2 known]
  cases kind with
  | integer value =>
    have nonneg : 0 ≤ value.toInt := unsigned value rfl
    refine ⟨_, .digits ?more ?digits (ends rfl), fun position => ?value⟩
    case more => exact List.append_ne_nil_of_right_ne_nil _ Nat.toDigits_ne_nil
    case digits =>
      intro character member
      rcases List.mem_append.1 member with zero | digit
      · rw [List.eq_of_mem_replicate zero]
        rfl
      · exact Text.Decimal.isDigit_of_mem_toDigits _ character digit
    case value =>
      show Cursor.ofDigits (List.replicate zeros '0' ++ Nat.toDigits 10 value.toInt.toNat) _ = _
      rw [Cursor.ofDigits_eq, Text.Decimal.value_zeros, Text.Decimal.value_toDigits,
        if_pos (Word.toNat_le_largest nonneg), Word.ofInt_toNat nonneg]
  | operator operator => exact symbol rfl
  | leftParen => exact symbol rfl
  | rightParen => exact symbol rfl
  | endOfInput => exact absurd rfl inner

theorem beginsWithDigit_lexeme {inscription : Inscription}
    (symbol : inscription.isInteger = false) (rest : List Char) :
    Text.beginsWithDigit (inscription.lexeme ++ rest) = false := by
  obtain ⟨kind, zeros, gap, inner, unsigned, blank⟩ := inscription
  cases kind with
  | integer value => cases symbol
  | operator operator =>
    have known : (Token.Kind.operator operator).symbol? = some operator.symbol := rfl
    exact (Token.Kind.visible_of_symbol? known).2
  | leftParen => rfl
  | rightParen => rfl
  | endOfInput => exact absurd rfl inner

theorem isBlank_of_mem_gap (inscription : Inscription) :
    ∀ character ∈ inscription.gap.toList, Text.isBlank character :=
  List.all_eq_true.1 inscription.blank

theorem beginsWithDigit_behind {inscription : Inscription} {later : List Inscription}
    (separated : Separated (inscription :: later)) (integer : inscription.isInteger) :
    Text.beginsWithDigit (inscription.gap.toList ++ written later) = false := by
  cases gap : inscription.gap.toList with
  | cons first others =>
    exact Text.isDigit_eq_false_of_isBlank (inscription.isBlank_of_mem_gap first (by simp [gap]))
  | nil =>
    cases later with
    | nil => rfl
    | cons next later =>
      have apart := (List.isChain_cons_cons.1 separated).1 integer
      have symbol : next.isInteger = false :=
        Bool.eq_false_iff.2 fun integer' => apart integer' (String.toList_eq_nil_iff.1 gap)
      rw [List.nil_append, written_cons]
      exact beginsWithDigit_lexeme symbol _

end Inscription

open Inscription

theorem Cursor.stream_written {inscriptions : List Inscription}
    (separated : Separated inscriptions) (position : Nat) :
    stream ⟨written inscriptions, position⟩ =
      ⟨tokens position inscriptions,
        .endOfInput (position + (written inscriptions).length)⟩ := by
  induction inscriptions generalizing position with
  | nil => exact stream_all_blank (List.forall_mem_nil _) position
  | cons inscription later ih =>
    obtain ⟨reading, read, known⟩ :=
      inscription.exists_reading (beginsWithDigit_behind separated)
    have step := read.stream_eq (List.forall_mem_nil _) position
    rw [List.nil_append, List.length_nil, Nat.add_zero, known,
      stream_blanks inscription.isBlank_of_mem_gap, ih separated.tail, String.length_toList] at step
    rw [written_cons, step, tokens_cons, List.length_append, List.length_append,
      String.length_toList, ← Nat.add_assoc, ← Nat.add_assoc]
    rfl

namespace Scanner

/-- Reading undoes writing: every token is handed out as it was written, with the number of
characters in front of it as its position. -/
theorem drain_written {blanks : String} (blank : Text.isBlankText blanks)
    {inscriptions : List Inscription} (separated : Separated inscriptions) :
    let text := blanks ++ String.ofList (written inscriptions)
    (start text).drain.1 =
      (inscriptions.mapIdx fun number inscription =>
        .ok ⟨inscription.kind, blanks.length + (written (inscriptions.take number)).length⟩) ++
      [.ok ⟨.endOfInput, text.length⟩] := by
  intro text
  have stream : (Cursor.start text).stream =
      ⟨tokens blanks.length inscriptions, .endOfInput text.length⟩ := by
    rw [Cursor.start, String.toList_append, String.toList_ofList,
      Cursor.stream_blanks (List.all_eq_true.1 blank), Cursor.stream_written separated,
      Nat.zero_add, String.length_toList, String.length_append, String.length_ofList]
  show (Cursor.start text).stream.outcomes = _
  simp only [stream, TokenStream.outcomes, tokens, List.mapIdx_eq_zipIdx_map, List.map_map]
  rfl

/-- Zeros and a symbol may touch, and a blank keeps two integers apart. -/
theorem drain_written_zeros :
    let inscriptions : List Inscription :=
      [{ kind := .integer ⟨7⟩, zeros := 2, gap := " " }, { kind := .integer ⟨0⟩ },
        { kind := .operator .sub }, { kind := .integer ⟨10⟩, zeros := 1, gap := "\n" }]
    Text.isBlankText "\t" ∧ Separated inscriptions ∧
      (start "\t007 0-010\n").drain.1 =
        [.ok ⟨.integer ⟨7⟩, 1⟩, .ok ⟨.integer ⟨0⟩, 5⟩, .ok ⟨.operator .sub, 6⟩,
          .ok ⟨.integer ⟨10⟩, 7⟩, .ok ⟨.endOfInput, 11⟩] := by
  intro inscriptions
  have blank : Text.isBlankText "\t" := by decide
  have separated : Separated inscriptions := by
    unfold Separated
    decide
  have text : "\t" ++ String.ofList (written inscriptions) = "\t007 0-010\n" := by
    decide +kernel
  have handed := drain_written blank separated
  rw [text] at handed
  exact ⟨blank, separated, handed⟩

end Scanner
end Calculator
