import Calculator.Proofs.Parser.Refusal
import Calculator.Proofs.Token.Relocation

/-! The parser and the positions of its tokens. Main statement: where tokens stand makes no
difference to the tree that is read or to the kind of error, and the position in an error
moves with the token that it reports. -/

namespace Calculator
open Grammar Standing

variable (move : Nat → Nat)

def ParseError.relocate : ParseError → ParseError
  | lexical error => lexical (error.relocate move)
  | expected wanted found position => expected wanted found (move position)
  | unexpected found position => unexpected found (move position)
  | tooDeep limit position => tooDeep limit (move position)

theorem Token.map_kind_relocate (tokens : List Token) :
    (tokens.map (Token.relocate move)).map Token.kind = tokens.map Token.kind := by
  rw [List.map_map]
  rfl

theorem Outcome.behind_relocate (outcome : Outcome) (front : List Token) :
    (outcome.relocate move).behind (front.map (Token.relocate move)) =
      (outcome.behind front).map (Outcome.relocate move) := by
  simp only [behind, List.map_append, List.map_map, List.map_cons, List.map_nil]
  rfl

namespace Grammar.Standing

theorem accepts_relocate (standing : Standing) (outcome : Outcome) :
    standing.Accepts (outcome.relocate move) ↔ standing.Accepts outcome := by
  cases outcome with
  | error error => exact Iff.rfl
  | ok token =>
    obtain ⟨kind, position⟩ := token
    cases kind <;> exact Iff.rfl

theorem blame_relocate (standing : Standing) (outcome : Outcome) :
    standing.blame (outcome.relocate move) = (standing.blame outcome).relocate move := by
  cases outcome with
  | error error => rfl
  | ok token =>
    obtain ⟨kind, position⟩ := token
    obtain ⟨due, opened⟩ := standing
    cases due with
    | false => rfl
    | true =>
      simp only [blame, Outcome.relocate, Token.relocate, if_true]
      split <;> rfl

end Grammar.Standing

namespace Parser

theorem Refuses.relocate {stream : TokenStream} {error : ParseError}
    (refuses : Refuses (Parser.start stream) error) :
    Refuses (Parser.start (stream.relocate move)) (error.relocate move) := by
  obtain ⟨front, outcome, standing, begins, walked, refused, rfl⟩ := refuses
  refine ⟨front.map (Token.relocate move), outcome.relocate move, standing, ?_, ?_,
    mt (accepts_relocate move standing outcome).1 refused, blame_relocate move standing outcome⟩
  · have moved : (Parser.start (stream.relocate move)).outcomes =
        (Parser.start stream).outcomes.map (Outcome.relocate move) := by
      simp only [outcomes, Parser.start, TokenStream.relocate]
      rw [Ending.outcome_relocate, Outcome.behind_relocate]
    rw [moved, Outcome.behind_relocate]
    exact begins.map _
  · rw [Token.map_kind_relocate]
    exact walked

theorem formula_relocate {stream : TokenStream}
    (inner : ∀ token ∈ stream.tokens, token.kind ≠ .endOfInput) :
    (Parser.start (stream.relocate move)).formula =
      (Parser.start stream).formula.mapError (ParseError.relocate move) := by
  have met := formula_meets inner
  cases answer : (Parser.start stream).formula with
  | ok tree =>
    rw [answer] at met
    obtain ⟨⟨position, last⟩, sentence⟩ := met
    rw [← Token.map_kind_relocate move] at sentence
    rw [TokenStream.relocate, last]
    exact formula_of_sentence (move position) sentence
  | error error =>
    rw [answer] at met
    refine formula_of_refuses (fun token member => ?_) (met.relocate move)
    obtain ⟨original, found, rfl⟩ := List.mem_map.1 member
    exact inner original found

end Parser

theorem Cursor.parse_relocate {cursor moved : Cursor}
    (same : moved.stream = cursor.stream.relocate move) :
    moved.parse = cursor.parse.mapError (ParseError.relocate move) := by
  rw [parse, same]
  exact Parser.formula_relocate move cursor.kind_ne_endOfInput

end Calculator
