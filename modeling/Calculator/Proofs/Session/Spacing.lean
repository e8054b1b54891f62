import Calculator.Proofs.Parser.Relocation
import Calculator.Session
import Mathlib.Control.Monad.Basic

/-! Blanks in a text. Main statement: blanks may be inserted anywhere but inside a run of digits,
and then a session answers the same, except that the positions of errors behind them move. -/

namespace Calculator

def RunError.relocate (move : Nat → Nat) : RunError → RunError
  | lexical error => lexical (error.relocate move)
  | parse error => parse (error.relocate move)
  | eval error => eval error

theorem RunError.relocate_ofParse (move : Nat → Nat) (error : ParseError) :
    (ofParse error).relocate move = ofParse (error.relocate move) := by
  cases error <;> rfl

theorem parse_inserted {front blanks back : String} (blank : Text.isBlankText blanks)
    (apart : Text.Apart front.toList back.toList) :
    parse (front ++ blanks ++ back) =
      (parse (front ++ back)).mapError
        (ParseError.relocate (inserted front.length blanks.length)) := by
  show (Cursor.start (front ++ blanks ++ back)).parse =
    (Cursor.start (front ++ back)).parse.mapError _
  apply Cursor.parse_relocate
  simp only [Cursor.start, String.toList_append, List.append_assoc]
  apply Cursor.stream_inserted (List.all_eq_true.1 blank) _ _ _ apart
  · intro place below
    rw [Nat.zero_add, String.length_toList] at below
    exact if_pos below
  · intro place beyond
    rw [Nat.zero_add, String.length_toList] at beyond
    rw [String.length_toList]
    exact if_neg (Nat.not_lt.2 beyond)

namespace Session

/-- Blanks in a text do not change its value, its trace or the kind of its error, and move the
position of an error exactly if they stand in front of it. -/
theorem run_inserted (session : Session) (front blanks back : String)
    (blank : Text.isBlankText blanks) (apart : Text.Apart front.toList back.toList) :
    (session.run (front ++ blanks ++ back)).1 =
      (session.run (front ++ back)).1.mapError
        (RunError.relocate (inserted front.length blanks.length)) := by
  rw [run_eq, run_eq, parse_inserted blank apart]
  cases parse (front ++ back) with
  | error error =>
    exact congrArg Except.error (RunError.relocate_ofParse _ error).symm
  | ok tree =>
    show (tree.value.map fun value => Evaluation.mk value tree.emitted).mapError RunError.eval =
      ((tree.value.map fun value => Evaluation.mk value tree.emitted).mapError
        RunError.eval).mapError _
    cases tree.value <;> rfl

/-- A closing parenthesis in the place of a summand is reported two characters further on. -/
theorem run_inserted_behind_summand :
    Text.isBlankText "\t " ∧ Text.Apart "12".toList "+)".toList ∧
      (({} : Session).run ("12" ++ "\t " ++ "+)")).1 =
        .error (.parse (.unexpected .rightParen 5)) := by
  have plain : (({} : Session).run ("12" ++ "+)")).1 =
      .error (.parse (.unexpected .rightParen 3)) := by decide +kernel
  refine ⟨by decide, by decide, ?_⟩
  rw [run_inserted {} "12" "\t " "+)" (by decide) (by decide), plain]
  rfl

end Session
end Calculator
