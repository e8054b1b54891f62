import Calculator.Proofs.Parser.Acceptance
import Calculator.Proofs.Token.Parentheses

/-! How deeply parentheses may be nested. Main statements: a phrase is refused nowhere but at an
opening parenthesis that is one too many, so that a text that denotes a tree is read as it, or
is reported as nested too deeply, according to its deepest place. -/

namespace Calculator
open Grammar Standing

namespace Grammar

/-- Nothing but an opening parenthesis stands in the way of walking on through a phrase. By
induction on the derivation, where each part that is walked through completes an operand. -/
theorem Derives.leftParen_of_stuck {phrase : Phrase} {kinds front : List Token.Kind}
    {kind : Token.Kind} {tree : Expr} (derived : Derives phrase kinds tree) {opened : Nat}
    {standing : Standing} (begins : front ++ [kind] <+: kinds)
    (walked : walk? ⟨true, opened⟩ front = some standing) (stuck : standing.step? kind = none) :
    kind = .leftParen ∧ standing.operandDue := by
  induction derived generalizing front opened with
  | integer value =>
    obtain rfl : front = [] := by
      have short := begins.length_le
      simpa using short
    obtain ⟨rfl, -⟩ := List.cons_prefix_cons.1 begins
    cases walked
    cases stuck
  | parentheses inner ih =>
    rcases List.prefix_concat_iff.1 begins with whole | within
    · obtain ⟨rfl, rfl⟩ := List.append_singleton_inj.1 whole
      obtain rfl := inner.standing_eq (walk?_leftParen.1 walked).2
      cases stuck
    · cases front with
      | nil =>
        obtain ⟨rfl, -⟩ := List.cons_prefix_cons.1 within
        cases walked
        exact ⟨rfl, rfl⟩
      | cons first front =>
        obtain ⟨rfl, inside⟩ := List.cons_prefix_cons.1 within
        exact ih inside (walk?_leftParen.1 walked).2
  | single inner ih => exact ih begins walked
  | @joined left right leftTree rightTree operator leftPart rightPart leftIH rightIH =>
    rcases prefix_append_iff.1 begins with inLeft | ⟨begun, within, split⟩
    · exact leftIH inLeft walked
    rcases List.prefix_cons_iff.1 within with rfl | ⟨begun, rfl, inRight⟩
    · rw [List.append_nil] at split
      exact leftIH (split ▸ List.prefix_refl _) walked
    rcases List.eq_nil_or_concat begun with rfl | ⟨begun, last, rfl⟩
    · obtain ⟨rfl, rfl⟩ := List.append_singleton_inj.1 split
      obtain rfl := leftPart.standing_eq walked
      cases stuck
    · rw [List.concat_eq_append] at inRight split
      have split' : front ++ [kind] = left ++ .operator operator :: begun ++ [last] := by
        rw [split, List.append_assoc, List.cons_append]
      obtain ⟨rfl, rfl⟩ := List.append_singleton_inj.1 split'
      obtain ⟨between, passed, walked⟩ := walk?_append_eq_some walked
      obtain rfl := leftPart.standing_eq passed
      exact rightIH inRight walked

end Grammar

theorem Parser.tooDeep_of_refuses {phrase : Phrase} {tokens : List Token} {tree : Expr}
    {last : Nat} {error : ParseError} (derived : Derives phrase (tokens.map Token.kind) tree)
    (refuses : Refuses (Parser.start ⟨tokens, .endOfInput last⟩) error) :
    ∃ position, error = .tooDeep maxNesting position := by
  obtain ⟨front, outcome, standing, begins, walked, refused, rfl⟩ := refuses
  rcases Outcome.last_or_token begins with ⟨rfl, rfl⟩ | ⟨token, rfl, inside⟩
  · exact absurd (derived.standing_eq walked) refused
  · have begins' := inside.map Token.kind
    rw [List.map_append, List.map_singleton] at begins'
    obtain ⟨opening, due⟩ := derived.leftParen_of_stuck begins' walked
      (step?_eq_none_of_not_accepts refused)
    exact ⟨token.position, by simp only [blame, opening, due, if_true]⟩

theorem Scans.parse_eq {text : String} {kinds : List Token.Kind} {tree : Expr}
    (scans : Scans text.toList kinds) (sentence : Sentence kinds tree) : parse text = .ok tree := by
  obtain ⟨tokens, last, stream, rfl⟩ := scans 0
  exact parse_of_sentence stream sentence

theorem scans_of_parse {text : String} {tree : Expr} (success : parse text = .ok tree) :
    let kinds := (Cursor.start text).stream.tokens.map Token.kind
    Scans text.toList kinds ∧ Sentence kinds tree := by
  obtain ⟨⟨last, ending⟩, sentence⟩ := sentence_of_parse success
  have whole : (Cursor.start text).stream = ⟨_, .endOfInput last⟩ :=
    congrArg (TokenStream.mk _) ending
  exact ⟨.of_stream whole, sentence⟩

/-- A text has a tree by the rules of the grammar, which do not limit the depth of parentheses. -/
def Denotes (text : String) (tree : Expr) : Prop :=
  ∃ kinds, Scans text.toList kinds ∧ Derives (.chain .sum) kinds tree

theorem denotes_of_parse {text : String} {tree : Expr} (success : parse text = .ok tree) :
    Denotes text tree ∧ Text.deepest text.toList ≤ maxNesting := by
  obtain ⟨scans, derived, within⟩ := scans_of_parse success
  exact ⟨⟨_, scans, derived⟩, scans.within_iff.1 within⟩

namespace Denotes

variable {text : String} {tree : Expr}

theorem parse_eq (denotes : Denotes text tree)
    (bounded : Text.deepest text.toList ≤ maxNesting) : parse text = .ok tree := by
  obtain ⟨kinds, scans, derived⟩ := denotes
  exact scans.parse_eq ⟨derived, scans.within_iff.2 bounded⟩

theorem parse_tooDeep (denotes : Denotes text tree)
    (deep : maxNesting < Text.deepest text.toList) :
    ∃ position, parse text = .error (.tooDeep maxNesting position) := by
  cases answer : parse text with
  | ok other =>
    have bounded := (denotes_of_parse answer).2
    omega
  | error error =>
    obtain ⟨kinds, scans, derived⟩ := denotes
    obtain ⟨tokens, last, stream, rfl⟩ := scans 0
    have stream' : (Cursor.start text).stream = ⟨tokens, .endOfInput last⟩ := stream
    have refuses := refuses_of_parse answer
    rw [stream'] at refuses
    obtain ⟨position, rfl⟩ := Parser.tooDeep_of_refuses derived refuses
    exact ⟨position, rfl⟩

end Denotes
end Calculator
