import Calculator.Proofs.Parser.Nesting
import Calculator.Session
import Mathlib.Data.List.Infix

/-! Chains of texts in parentheses, joined by operators that bind equally tightly. Main
statement: a chain is run as its pieces are, one after the other from the left, each operator as
soon as the piece behind it has a value. -/

namespace Calculator
open Grammar Standing

structure Piece where
  operator : Operator
  text : String

def Piece.written (piece : Piece) : String :=
  String.singleton piece.operator.symbol ++ "(" ++ piece.text ++ ")"

def chained (first : String) (pieces : List Piece) : String :=
  "(" ++ first ++ ")" ++ String.join (pieces.map Piece.written)

/-- A text with a tree that leaves room for parentheses around it. -/
def Enclosable (text : String) : Prop :=
  (parse text).isOk ∧ Within (maxNesting - 1) ((Cursor.start text).stream.tokens.map Token.kind)

instance (limit : Nat) (kinds : List Token.Kind) : Decidable (Within limit kinds) :=
  decidable_of_iff (∀ front ∈ kinds.inits, balance front ≤ limit) <| by
    simp only [List.mem_inits, Within]

instance : DecidablePred Enclosable := fun _ => inferInstanceAs (Decidable (_ ∧ _))

/-- Runs one more piece in a new session, and applies its operator to the value of what stands in
front and to that of the piece. -/
def Piece.join (left : Evaluation) (piece : Piece) : Except RunError Evaluation := do
  let right ← (({} : Session).run piece.text).1
  let value ← (piece.operator.apply left.value right.value).mapError .eval
  return ⟨value,
    String.singleton piece.operator.symbol ++ "(" ++ left.trace ++ right.trace ++ ")"⟩

def Expr.ran (tree : Expr) : Except RunError Evaluation :=
  (tree.value.map fun value => ⟨value, tree.emitted⟩).mapError .eval

theorem Expr.ran_binary (left : Expr) {right : Expr} (operator : Operator) {text : String}
    (parsed : parse text = .ok right) :
    (binary operator left right).ran =
      left.ran.bind fun evaluation => Piece.join evaluation ⟨operator, text⟩ := by
  simp only [Piece.join, Session.run_of_parse _ parsed, ran, value, emitted]
  cases leftValue : left.value with
  | error failure => rfl
  | ok first =>
    cases rightValue : right.value with
    | error failure => rfl
    | ok second =>
      simp only [bind, Except.bind, Except.map, Except.mapError, String.append_assoc]
      cases operator.apply first second <;> rfl

def Forms (phrase : Phrase) (text : String) (tree : Expr) : Prop :=
  ∃ kinds, Scans text.toList kinds ∧ Derives phrase kinds tree ∧
    start.walk? kinds = some ⟨false, 0⟩

namespace Forms

theorem parse_eq {tier : Tier} {text : String} {tree : Expr}
    (forms : Forms (.chain tier) text tree) : parse text = .ok tree := by
  obtain ⟨kinds, scans, derived, walked⟩ := forms
  exact scans.parse_eq (sentence_iff.2 ⟨derived.sum, walked⟩)

theorem parentheses {text : String} {kinds : List Token.Kind} {tree : Expr}
    (scans : Scans text.toList kinds) (derived : Derives (.chain .sum) kinds tree)
    (within : Within (maxNesting - 1) kinds) : Forms .factor ("(" ++ text ++ ")") tree := by
  have inside : walk? ⟨true, 1⟩ kinds = some ⟨false, 1⟩ := derived.walk?_eq fun front begins => by
    have bounded := within front begins
    have room : maxNesting - 1 + 1 = maxNesting := rfl
    omega
  refine ⟨.leftParen :: kinds ++ [.rightParen], ?_, .parentheses derived, ?_⟩
  · have characters : ("(" ++ text ++ ")").toList = '(' :: text.toList ++ [')'] := by simp
    rw [characters]
    exact scans.parentheses
  · have opened : start.walk? (.leftParen :: kinds) = some ⟨false, 1⟩ :=
      walk?_leftParen.2 ⟨by decide, inside⟩
    rw [walk?_append, opened]
    rfl

theorem joined {left right : String} {leftTree rightTree : Expr} (operator : Operator)
    (front : Forms (.chain operator.tier) left leftTree)
    (behind : Forms .factor right rightTree) :
    Forms (.chain operator.tier) (left ++ (String.singleton operator.symbol ++ right))
      (.binary operator leftTree rightTree) := by
  obtain ⟨leftKinds, leftScans, leftDerived, leftWalked⟩ := front
  obtain ⟨rightKinds, rightScans, rightDerived, rightWalked⟩ := behind
  have sign : Scans [operator.symbol] [.operator operator] := .symbol rfl
  have other : operator.symbol.isDigit = false := by cases operator <;> rfl
  refine ⟨leftKinds ++ .operator operator :: rightKinds, ?_,
    .joined operator leftDerived (rightDerived.operand _), ?_⟩
  · have characters : (left ++ (String.singleton operator.symbol ++ right)).toList =
        left.toList ++ ([operator.symbol] ++ right.toList) := by simp
    rw [characters]
    exact leftScans.append (sign.append rightScans fun both =>
      Bool.false_ne_true (other.symm.trans both.1)) fun both =>
        Bool.false_ne_true (other.symm.trans both.2)
  · rw [walk?_append, leftWalked]
    exact rightWalked

end Forms

theorem Enclosable.exists_tree {text : String} (enclosable : Enclosable text) :
    ∃ tree, parse text = .ok tree ∧ Forms .factor ("(" ++ text ++ ")") tree := by
  obtain ⟨accepted, within⟩ := enclosable
  cases parsed : parse text with
  | error error =>
    rw [parsed] at accepted
    cases accepted
  | ok tree =>
    obtain ⟨scans, derived, -⟩ := scans_of_parse parsed
    exact ⟨tree, rfl, .parentheses scans derived within⟩

/-- Further pieces go on with what stands in front of them. By induction on the pieces, each of
which becomes the root of the tree. -/
theorem Forms.chain {tier : Tier} {front : String} {frontTree : Expr}
    (forms : Forms (.chain tier) front frontTree) (pieces : List Piece)
    (fit : ∀ piece ∈ pieces, piece.operator.tier = tier ∧ Enclosable piece.text) :
    ∃ tree, Forms (.chain tier) (front ++ String.join (pieces.map Piece.written)) tree ∧
      tree.ran = frontTree.ran.bind fun evaluation => pieces.foldlM Piece.join evaluation := by
  induction pieces generalizing front frontTree with
  | nil =>
    refine ⟨frontTree, ?_, ?_⟩
    · rw [List.map_nil, String.join_nil, String.append_empty]
      exact forms
    · cases frontTree.ran <;> rfl
  | cons piece pieces ih =>
    obtain ⟨⟨same, enclosable⟩, others⟩ := List.forall_mem_cons.1 fit
    obtain ⟨operator, text⟩ := piece
    cases same
    obtain ⟨right, parsed, behind⟩ := enclosable.exists_tree
    obtain ⟨tree, longer, ran⟩ := ih (forms.joined operator behind) others
    refine ⟨tree, ?_, ?_⟩
    · simp only [String.append_assoc] at longer
      simp only [List.map_cons, String.join_cons, Piece.written, String.append_assoc]
      exact longer
    · rw [ran, Expr.ran_binary frontTree operator parsed]
      cases frontTree.ran <;> rfl

namespace Session

/-- A chain comes to what its pieces come to, taken from the left. -/
theorem run_chained (session : Session) {tier : Tier} {first : String} {pieces : List Piece}
    (enclosable : Enclosable first)
    (fit : ∀ piece ∈ pieces, piece.operator.tier = tier ∧ Enclosable piece.text) :
    (session.run (chained first pieces)).1 = (do
      let start ← (({} : Session).run first).1
      pieces.foldlM Piece.join start) ∧
    ∀ error, (session.run (chained first pieces)).1 = .error error →
      ∃ failure, error = .eval failure := by
  obtain ⟨firstTree, parsed, kinds, scans, derived, walked⟩ := enclosable.exists_tree
  have front : Forms (.chain tier) ("(" ++ first ++ ")") firstTree :=
    ⟨kinds, scans, .single (derived.operand tier), walked⟩
  obtain ⟨tree, forms, ran⟩ := front.chain pieces fit
  have result : (session.run (chained first pieces)).1 = tree.ran :=
    session.run_of_parse forms.parse_eq
  have start : (({} : Session).run first).1 = firstTree.ran := run_of_parse {} parsed
  rw [result, start]
  refine ⟨ran, fun error failed => ?_⟩
  rw [Expr.ran] at failed
  cases reached : tree.value with
  | error failure =>
    rw [reached] at failed
    cases failed
    exact ⟨failure, rfl⟩
  | ok value =>
    rw [reached] at failed
    cases failed

/-- The second piece is divided by although it stands in parentheses of its own, and the quotient
is rounded down. -/
theorem run_chained_products :
    let pieces : List Piece := [⟨.mul, "04"⟩, ⟨.div, "(1+1)-7"⟩]
    Enclosable " 2-5 " ∧
      (∀ piece ∈ pieces, piece.operator.tier = .product ∧ Enclosable piece.text) ∧
      (({} : Session).run (chained " 2-5 " pieces)).1 =
        .ok ⟨Word.ofInt 64 2, "/(*(-(25)4)-(+(11)7))"⟩ := by
  intro pieces
  have enclosable : Enclosable " 2-5 " := by decide +kernel
  have fit : ∀ piece ∈ pieces, piece.operator.tier = .product ∧ Enclosable piece.text := by
    decide +kernel
  refine ⟨enclosable, fit, ?_⟩
  rw [(run_chained {} enclosable fit).1]
  decide +kernel

end Session
end Calculator
