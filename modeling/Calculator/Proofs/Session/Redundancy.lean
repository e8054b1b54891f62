import Calculator.Proofs.Parser.Nesting
import Calculator.Session
import Mathlib.Logic.Relation

/-! Parentheses around operands. Main statement: parentheses that are put around operands of a
text, anywhere and any number of times, leave its tree as it is, and with it its value and its
trace, unless they are nested too deeply, which is reported. -/

namespace Calculator
open Grammar

namespace Text

/-- A run of digits that goes on to neither side, or a parenthesis with everything up to the one
that matches it. -/
inductive Operand : List Char → List Char → List Char → Prop
  | digits {front run back : List Char} : run ≠ [] → (∀ character ∈ run, character.isDigit) →
      endsInDigit front = false → beginsWithDigit back = false → Operand front run back
  | group {front inside back : List Char} : opened inside = 0 → Nested inside →
      Operand front ('(' :: inside ++ [')']) back

/-- Around a part that closes all that it opens, parentheses count at its deepest place. -/
theorem deepest_enclosed {operand : List Char} (closed : opened operand = 0)
    (front back : List Char) :
    deepest (front ++ (('(' :: operand ++ [')']) ++ back)) =
      max (deepest (front ++ (operand ++ back))) (opened front + deepest operand + 1) := by
  have opening : opened ['('] = 1 ∧ deepest ['('] = 1 := ⟨rfl, rfl⟩
  have closing : opened [')'] = -1 ∧ deepest [')'] = 0 := ⟨rfl, rfl⟩
  have inOperand := deepest_nonneg operand
  have inBack := deepest_nonneg back
  have whole : front ++ (('(' :: operand ++ [')']) ++ back) =
      front ++ (['('] ++ (operand ++ ([')'] ++ back))) := by simp
  rw [whole]
  simp only [deepest_append, opening, closing, closed]
  omega

end Text

theorem Scans.of_digits {run : List Char} {kinds : List Token.Kind} (scans : Scans run kinds)
    (more : run ≠ []) (digits : ∀ character ∈ run, character.isDigit) :
    ∃ value, kinds = [.integer value] := by
  have read : Lexeme run [] (Cursor.ofDigits run) := .digits more digits rfl
  have step := read.stream_eq (List.forall_mem_nil _) 0
  obtain ⟨tokens, last, whole, rfl⟩ := scans 0
  rw [List.nil_append, List.append_nil, whole, Cursor.stream_all_blank (List.forall_mem_nil _),
    Cursor.ofDigits] at step
  split at step
  · obtain ⟨rfl, -⟩ := TokenStream.mk.inj step
    exact ⟨_, rfl⟩
  · cases step

namespace Text.Operand

variable {front operand back : List Char}

theorem opened_eq_zero (isOperand : Operand front operand back) : opened operand = 0 := by
  cases isOperand with
  | digits more digits begins ends =>
    have absent {character : Char} (other : character.isDigit = false) :
        operand.count character = 0 :=
      List.count_eq_zero.2 fun member =>
        Bool.false_ne_true (other.symm.trans (digits character member))
    rw [opened, absent (by rfl : '('.isDigit = false), absent (by rfl : ')'.isDigit = false)]
    rfl
  | group closed nested =>
    rw [List.cons_append, opened_cons, opened_append, closed]
    rfl

theorem nested (isOperand : Operand front operand back) : Nested operand := by
  cases isOperand with
  | digits more digits begins ends =>
    exact .of_notMem fun member => Bool.false_ne_true (digits ')' member)
  | group closed nested => exact nested.parentheses

theorem enclosed (isOperand : Operand front operand back) :
    Operand front ('(' :: operand ++ [')']) back :=
  .group isOperand.opened_eq_zero isOperand.nested

theorem apart_front (isOperand : Operand front operand back) :
    Apart front (operand ++ back) := by
  intro both
  cases isOperand with
  | digits more digits begins ends => exact Bool.false_ne_true (begins.symm.trans both.1)
  | group closed nested => exact Bool.false_ne_true both.2

theorem apart_back (isOperand : Operand front operand back) : Apart operand back := by
  intro both
  cases isOperand with
  | digits more digits begins ends => exact Bool.false_ne_true (ends.symm.trans both.2)
  | group closed nested =>
    rw [endsInDigit_append (List.cons_ne_nil _ _)] at both
    exact Bool.false_ne_true both.1

theorem isOperand_of_scans {kinds : List Token.Kind} (isOperand : Operand front operand back)
    (scans : Scans operand kinds) : Grammar.Operand kinds := by
  cases isOperand with
  | digits more digits begins ends =>
    obtain ⟨value, rfl⟩ := scans.of_digits more digits
    exact .integer value
  | group closed nested =>
    obtain ⟨inside, within, rfl⟩ := scans.of_parentheses
    exact .group (within.opened_eq.symm.trans closed) fun _ => within.balance_nonneg nested

end Text.Operand

inductive Encloses : String → String → Prop
  | around {front operand back : String} :
      Text.Operand front.toList operand.toList back.toList →
      Encloses (front ++ operand ++ back) (front ++ "(" ++ operand ++ ")" ++ back)

theorem toList_enclosed (front operand back : String) :
    (front ++ "(" ++ operand ++ ")" ++ back).toList =
      front.toList ++ (('(' :: operand.toList ++ [')']) ++ back.toList) := by
  simp

/-- Parentheses around an operand do not change what a text denotes: in its place they are a
phrase with the same tree. -/
theorem Encloses.denotes {text other : String} {tree : Expr} (encloses : Encloses text other)
    (denotes : Denotes text tree) : Denotes other tree := by
  obtain @⟨front, operand, back, isOperand⟩ := encloses
  obtain ⟨kinds, scans, derived⟩ := denotes
  rw [String.toList_append, String.toList_append, List.append_assoc] at scans
  obtain ⟨first, rest, inFront, behind, rfl⟩ := scans.of_append isOperand.apart_front
  obtain ⟨middle, last, within, inBack, rfl⟩ := behind.of_append isOperand.apart_back
  obtain ⟨inner, whole, replaced⟩ :=
    derived.replaceable (isOperand.isOperand_of_scans within) rfl
  refine ⟨_, ?_, replaced _ (.parentheses (.single (whole.operand .sum)))⟩
  rw [toList_enclosed]
  exact inFront.append (within.parentheses.append inBack isOperand.enclosed.apart_back)
    isOperand.enclosed.apart_front

theorem Denotes.of_encloses {text other : String} {tree : Expr} (denotes : Denotes text tree)
    (steps : Relation.ReflTransGen Encloses text other) : Denotes other tree := by
  induction steps with
  | refl => exact denotes
  | tail earlier step ih => exact step.denotes ih

theorem Session.run_congr (session : Session) {first second : String} {tree : Expr}
    (parsed : parse first = .ok tree) (parsed' : parse second = .ok tree) :
    session.run first = session.run second := by
  rw [run_eq, run_eq, parsed, parsed']

/-- Parentheses around an operand are read past if the limit leaves room for one more of them
where the operand is nested most deeply, and otherwise they are nested too deeply. However many
are added, the tree, the value and the trace stay the same within the limit. -/
theorem parse_enclosed {text : String} {tree : Expr} (accepted : parse text = .ok tree) :
    (∀ front operand back : String, text = front ++ operand ++ back →
      Text.Operand front.toList operand.toList back.toList →
      let enclosed := front ++ "(" ++ operand ++ ")" ++ back
      let depth := Text.opened front.toList + Text.deepest operand.toList + 1
      (depth ≤ maxNesting → parse enclosed = .ok tree) ∧
      (maxNesting < depth →
        ∃ position, parse enclosed = .error (.tooDeep maxNesting position))) ∧
    ∀ other, Relation.ReflTransGen Encloses text other →
      (Text.deepest other.toList ≤ maxNesting →
        parse other = .ok tree ∧ ∀ session : Session, session.run other = session.run text) ∧
      (maxNesting < Text.deepest other.toList →
        ∃ position, parse other = .error (.tooDeep maxNesting position)) := by
  obtain ⟨denotes, bounded⟩ := denotes_of_parse accepted
  refine ⟨?once, ?often⟩
  case once =>
    intro front operand back split isOperand enclosed depth
    subst split
    have denotes' : Denotes enclosed tree := Encloses.denotes (.around isOperand) denotes
    have deeper : Text.deepest enclosed.toList =
        max (Text.deepest (front ++ operand ++ back).toList) depth := calc
      _ = Text.deepest (front.toList ++ (('(' :: operand.toList ++ [')']) ++ back.toList)) :=
        congrArg Text.deepest (toList_enclosed front operand back)
      _ = max (Text.deepest (front.toList ++ (operand.toList ++ back.toList))) depth :=
        Text.deepest_enclosed isOperand.opened_eq_zero front.toList back.toList
      _ = max (Text.deepest (front ++ operand ++ back).toList) depth := by
        rw [String.toList_append, String.toList_append, List.append_assoc]
    constructor
    · intro room
      exact denotes'.parse_eq (by omega)
    · intro full
      exact denotes'.parse_tooDeep (by omega)
  case often =>
    intro other steps
    have denotes' := denotes.of_encloses steps
    constructor
    · intro room
      have parsed := denotes'.parse_eq room
      exact ⟨parsed, fun session => session.run_congr parsed accepted⟩
    · exact denotes'.parse_tooDeep

/-- One pair goes around what already stands in parentheses, and another one around the digits
within. -/
theorem parse_enclosed_twice :
    let tree := Expr.binary .mul (.literal ⟨2⟩) (.binary .sub (.literal ⟨3⟩) (.literal ⟨14⟩))
    parse "2*(3-14)" = .ok tree ∧
      Text.Operand "2*".toList "(3-14)".toList "".toList ∧
      Text.Operand "2*((3-".toList "14".toList "))".toList ∧
      parse "2*((3-14))" = .ok tree ∧
      parse "2*((3-(14)))" = .ok tree ∧
      ∀ session : Session, session.run "2*((3-(14)))" = session.run "2*(3-14)" := by
  intro tree
  have accepted : parse "2*(3-14)" = .ok tree := by decide +kernel
  have nested : Nested ['3', '-', '1', '4'] := .of_notMem (by decide)
  have group : Text.Operand "2*".toList "(3-14)".toList "".toList := .group (by decide) nested
  have digits : Text.Operand "2*((3-".toList "14".toList "))".toList :=
    .digits (by decide) (List.all_eq_true.1 (by decide)) (by decide) (by decide)
  have steps : Relation.ReflTransGen Encloses "2*(3-14)" "2*((3-(14)))" :=
    .tail (.single (.around group)) (.around digits)
  obtain ⟨once, often⟩ := parse_enclosed accepted
  obtain ⟨twice, same⟩ := (often _ steps).1 (by decide)
  exact ⟨accepted, group, digits, (once "2*" "(3-14)" "" rfl group).1 (by decide), twice, same⟩

end Calculator
