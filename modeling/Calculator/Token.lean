import Calculator.Word

/-! Tokens, the words of a formula, and the errors met where a text holds none. A position
counts characters from the start of the text. Main statement: a token of one character is
known by its symbol. -/

namespace Calculator

/-- What a token is, without its place; the end of the input counts as a token. -/
inductive Token.Kind where
  | integer (value : Value)
  | operator (operator : Operator)
  | leftParen
  | rightParen
  | endOfInput
deriving DecidableEq, Repr

structure Token where
  kind : Token.Kind
  position : Nat
deriving DecidableEq, Repr

namespace Token.Kind

def symbol? : Kind → Option Char
  | operator op => some op.symbol
  | leftParen => some '('
  | rightParen => some ')'
  | integer _ | endOfInput => none

def ofSymbol? : Char → Option Kind
  | '(' => some leftParen
  | ')' => some rightParen
  | character => (Operator.ofSymbol? character).map operator

def value? : Kind → Option Value
  | integer value => some value
  | _ => none

def operator? : Kind → Option Operator
  | operator op => some op
  | _ => none

/-- Two integers are of the same kind whatever their values; otherwise kinds have to agree. -/
def same : Kind → Kind → Bool
  | integer _, integer _ => true
  | first, second => first = second

def text : Kind → String
  | integer value => "integer " ++ value.text
  | operator op => "'" ++ String.singleton op.symbol ++ "'"
  | leftParen => "'('"
  | rightParen => "')'"
  | endOfInput => "end of input"

theorem ofSymbol?_eq_some_iff {character : Char} {kind : Kind} :
    ofSymbol? character = some kind ↔ kind.symbol? = some character := by
  constructor
  · intro known
    unfold ofSymbol? at known
    split at known
    · obtain rfl := Option.some.inj known
      rfl
    · obtain rfl := Option.some.inj known
      rfl
    · obtain ⟨op, found, rfl⟩ := Option.map_eq_some_iff.1 known
      rw [symbol?, Operator.ofSymbol?_eq_some_iff.1 found]
  · intro known
    cases kind with
    | operator op =>
      obtain rfl := Option.some.inj known
      cases op <;> rfl
    | leftParen =>
      obtain rfl := Option.some.inj known
      rfl
    | rightParen =>
      obtain rfl := Option.some.inj known
      rfl
    | integer value => cases known
    | endOfInput => cases known

end Token.Kind

def located (position : Nat) (text : String) : String :=
  "[pos " ++ Text.Decimal.text position ++ "] " ++ text

inductive LexicalError where
  | unexpectedCharacter (character : Char) (position : Nat)
  | integerTooLarge (digits : String) (position : Nat)
deriving DecidableEq, Repr

namespace LexicalError

def position : LexicalError → Nat
  | unexpectedCharacter _ position | integerTooLarge _ position => position

def message : LexicalError → String
  | unexpectedCharacter character position =>
      located position ("Unexpected character '" ++ String.singleton character ++ "'.")
  | integerTooLarge digits position =>
      located position ("Integer literal " ++ digits ++ " is too large.")

end LexicalError

abbrev Outcome := Except LexicalError Token

namespace Outcome

/-- The end of the input and any error are the last thing that is read. -/
def isLast : Outcome → Bool
  | .ok token => token.kind = .endOfInput
  | .error _ => true

end Outcome
end Calculator
