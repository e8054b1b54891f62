import Calculator.Expr
import Calculator.Token.Scanner

/-! Reading a formula as a tree. A sum is a chain of products joined by `+` and `-`, a product
a chain of factors joined by `*` and `/`, and a factor an integer or a sum in parentheses.
Chains lean to the left, and parentheses leave no trace in the tree. Whatever is read
successfully takes at least one token, which is why reading ends. Main statement: sums,
products and factors are defined in terms of each other as this grammar says. -/

namespace Calculator

inductive ParseError where
  | lexical (error : LexicalError)
  | expected (expected found : Token.Kind) (position : Nat)
  | unexpected (found : Token.Kind) (position : Nat)
  | tooDeep (limit position : Nat)
deriving DecidableEq, Repr

namespace ParseError

def message : ParseError → String
  | lexical error => error.message
  | expected wanted found position =>
      located position ("Expected " ++ wanted.text ++ " but got " ++ found.text ++ ".")
  | unexpected found position =>
      located position ("Unexpected " ++ found.text ++ ", expected an integer or '('.")
  | tooDeep limit position =>
      located position ("Parentheses nested deeper than " ++ Text.Decimal.text limit ++ ".")

end ParseError

def maxNesting : Nat := 256

structure Parser where
  tokens : List Token
  ending : Ending
  nesting : Nat
deriving DecidableEq, Repr

namespace Parser

def start (stream : TokenStream) : Parser := ⟨stream.tokens, stream.ending, 0⟩

def lookahead (parser : Parser) : Outcome :=
  match parser.tokens with
  | [] => parser.ending.outcome
  | token :: _ => .ok token

/-- Takes a token of a given kind. The end of the input is seen and not taken. -/
def expect (kind : Token.Kind) (parser : Parser) : Except ParseError Parser :=
  match parser.lookahead with
  | .error error => .error (.lexical error)
  | .ok token =>
      if token.kind.same kind then .ok { parser with tokens := parser.tokens.tail }
      else .error (.expected kind token.kind token.position)

theorem expect_le {kind : Token.Kind} {parser after : Parser}
    (success : parser.expect kind = .ok after) :
    after.tokens.length ≤ parser.tokens.length := by
  unfold expect at success
  split at success
  · cases success
  · split at success
    · obtain rfl := Except.ok.inj success
      simp
    · cases success

/-- A tree that was read from the tokens of a parser, and where reading goes on. -/
structure Parsed (before : Parser) where
  tree : Expr
  after : Parser
  shorter : after.tokens.length < before.tokens.length

structure Taken (before : Parser) where
  operator : Operator
  after : Parser
  shorter : after.tokens.length < before.tokens.length

def operator? (tier : Tier) (parser : Parser) : Option (Taken parser) :=
  match shape : parser.tokens with
  | ⟨.operator operator, _⟩ :: rest =>
      if operator.tier = tier then
        some ⟨operator, { parser with tokens := rest }, by simp [shape]⟩
      else none
  | _ => none

def Parsed.join {before : Parser} (left : Parsed before) (taken : Taken left.after)
    (right : Parsed taken.after) : Parsed before where
  tree := .binary taken.operator left.tree right.tree
  after := right.after
  shorter := Nat.lt_trans (Nat.lt_trans right.shorter taken.shorter) left.shorter

def chainRest (tier : Tier) {before : Parser}
    (operand : (parser : Parser) → parser.tokens.length ≤ before.tokens.length →
      Except ParseError (Parsed parser))
    (left : Parsed before) : Except ParseError (Parsed before) :=
  match operator? tier left.after with
  | none => .ok left
  | some taken =>
      match operand taken.after
          (Nat.le_of_lt (Nat.lt_trans taken.shorter left.shorter)) with
      | .error error => .error error
      | .ok right => chainRest tier operand (left.join taken right)
termination_by left.after.tokens.length
decreasing_by exact Nat.lt_trans right.shorter taken.shorter

def chain (tier : Tier) (parser : Parser)
    (operand : (inner : Parser) → inner.tokens.length ≤ parser.tokens.length →
      Except ParseError (Parsed inner)) : Except ParseError (Parsed parser) :=
  match operand parser (Nat.le_refl _) with
  | .error error => .error error
  | .ok first => chainRest tier operand first

/-- Reads an integer, or what stands between parentheses. The limit is tested before the
opening parenthesis is taken, so that nothing behind it matters. -/
def atom (parser : Parser)
    (inside : (inner : Parser) → inner.tokens.length < parser.tokens.length →
      Except ParseError (Parsed inner)) : Except ParseError (Parsed parser) :=
  match shape : parser.tokens with
  | [] =>
      match parser.ending with
      | .failed error => .error (.lexical error)
      | .endOfInput position => .error (.unexpected .endOfInput position)
  | token :: rest =>
      have fewer : rest.length < parser.tokens.length := by simp [shape]
      match token.kind with
      | .integer value => .ok ⟨.literal value, { parser with tokens := rest }, fewer⟩
      | .leftParen =>
          if parser.nesting = maxNesting then .error (.tooDeep maxNesting token.position)
          else
            match inside { parser with tokens := rest, nesting := parser.nesting + 1 } fewer with
            | .error error => .error error
            | .ok inner =>
                match closed : expect .rightParen
                    { inner.after with nesting := inner.after.nesting - 1 } with
                | .error error => .error error
                | .ok after =>
                    .ok ⟨inner.tree, after,
                      Nat.lt_of_le_of_lt (expect_le closed) (Nat.lt_trans inner.shorter fewer)⟩
      | kind => .error (.unexpected kind token.position)

def sum (parser : Parser) : Except ParseError (Parsed parser) :=
  chain .sum parser fun summand within =>
    chain .product summand fun factor inner =>
      atom factor fun inside fewer =>
        have := Nat.lt_of_lt_of_le fewer (Nat.le_trans inner within)
        sum inside
termination_by parser.tokens.length

def factor (parser : Parser) : Except ParseError (Parsed parser) :=
  atom parser fun inside _ => sum inside

def product (parser : Parser) : Except ParseError (Parsed parser) :=
  chain .product parser fun inner _ => factor inner

theorem sum_eq (parser : Parser) :
    parser.sum = chain .sum parser fun summand _ => product summand := by
  rw [sum]
  rfl

def formula (parser : Parser) : Except ParseError Expr :=
  match parser.sum with
  | .error error => .error error
  | .ok parsed =>
      match parsed.after.expect .endOfInput with
      | .error error => .error error
      | .ok _ => .ok parsed.tree

end Parser

def Cursor.parse (cursor : Cursor) : Except ParseError Expr :=
  (Parser.start cursor.stream).formula

/-- The tree of the text that a scanner has in front of it. It does not matter what the scanner has
handed out already. -/
def Scanner.parse (scanner : Scanner) : Except ParseError Expr := scanner.cursor.parse

def parse (text : String) : Except ParseError Expr := (Scanner.start text).parse

end Calculator
