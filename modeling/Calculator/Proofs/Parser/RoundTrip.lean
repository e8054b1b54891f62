import Calculator.Expr.Infix
import Calculator.Expr.Levels
import Calculator.Proofs.Expr.Notation
import Calculator.Proofs.Expr.Offence
import Calculator.Proofs.Grammar.Operand
import Calculator.Proofs.Parser.Refusal
import Calculator.Proofs.Token.Span

/-! Reading the infix text of a tree. Main statement: the text is read as the tree itself if no
literal is negative and the parentheses keep within the limit, and otherwise the error is the
first place in the text that no formula has. -/

namespace Calculator
open Grammar Standing

namespace Grammar

variable {kinds left right : List Token.Kind} {tree leftTree rightTree : Expr}

theorem Derives.operation (operator : Operator) (leftPart : Derives .factor left leftTree)
    (rightPart : Derives .factor right rightTree) :
    Derives .factor (.leftParen :: (left ++ .operator operator :: right) ++ [.rightParen])
      (.binary operator leftTree rightTree) :=
  .parentheses (.sum (.joined operator (.single (leftPart.operand _)) (rightPart.operand _)))

end Grammar

namespace Cursor

theorem nextToken_toDigits {number : Nat} (fits : number ≤ Word.largest 64) {rest : List Char}
    (ends : Text.beginsWithDigit rest = false) (position : Nat) :
    nextToken ⟨Nat.toDigits 10 number ++ rest, position⟩ =
      (.ok ⟨.integer (Word.ofInt 64 number), position⟩,
        ⟨rest, position + (Nat.toDigits 10 number).length⟩) := by
  have read : Lexeme (Nat.toDigits 10 number) rest (ofDigits (Nat.toDigits 10 number)) :=
    .digits Nat.toDigits_ne_nil (Text.Decimal.isDigit_of_mem_toDigits number) ends
  rw [read.nextToken_eq, ofDigits_eq, Text.Decimal.value_toDigits, if_pos fits]

end Cursor

namespace Parser

def ahead (cursor : Cursor) (nesting : Nat) : Parser :=
  ⟨cursor.stream.tokens, cursor.stream.ending, nesting⟩

section Ahead

variable {before : Parser} {taken : List Token} {standing next : Standing}
  {cursor after : Cursor} {nesting : Nat} {token : Token}

theorem lookahead_ahead (cursor : Cursor) (nesting : Nat) :
    (ahead cursor nesting).lookahead = cursor.nextToken.1 := by
  rw [ahead, Cursor.stream, Cursor.readAll_eq]
  obtain ⟨outcome, after⟩ := cursor.nextToken
  cases outcome with
  | error error => rfl
  | ok token =>
    obtain ⟨kind, position⟩ := token
    by_cases last : kind = .endOfInput
    · subst last
      rfl
    · simp only [last, if_false]
      rfl

theorem Takes.nextToken (takes : Takes before taken standing (ahead cursor nesting))
    (step : cursor.nextToken = (.ok token, after)) (goesOn : standing.step? token.kind = some next)
    (nesting' : Nat) : Takes before (taken ++ [token]) next (ahead after nesting') := by
  have walked : walk? ⟨true, before.nesting⟩ ((taken ++ [token]).map Token.kind) = some next := by
    rw [List.map_append, walk?_append, takes.walked, Option.bind_some, List.map_singleton,
      walk?_cons, goesOn]
    rfl
  have inner : token.kind ≠ .endOfInput :=
    ne_endOfInput_of_walk? walked _ (List.mem_map_of_mem (by simp))
  have stream : cursor.stream = after.stream.cons token :=
    Cursor.stream_eq_of_nextToken step fun _ same => Except.ok.inj same ▸ inner
  refine ⟨?_, ?_, walked⟩
  · rw [takes.tokens, ahead, stream, List.append_assoc]
    rfl
  · rw [takes.ending, ahead, stream]
    rfl

theorem Takes.symbol (gap : List Char) {rest : List Char} {position place : Nat}
    {kind : Token.Kind} {character : Char}
    (takes : Takes before taken standing
      (ahead ⟨gap ++ character :: (gap ++ rest), position⟩ nesting))
    (symbol : kind.symbol? = some character)
    (blank : ∀ character ∈ gap, Text.isBlank character)
    (goesOn : standing.step? kind = some next) (further : position + 2 * gap.length + 1 = place)
    (nesting' : Nat) : ∃ token, token.kind = kind ∧
      Takes before (taken ++ [token]) next (ahead ⟨rest, place⟩ nesting') := by
  have step := Cursor.nextToken_symbol symbol blank (gap ++ rest) position
  have takes' := takes.nextToken step goesOn nesting'
  have skipped : position + gap.length + 1 + gap.length = place := by omega
  rw [ahead, Cursor.stream_blanks blank, skipped] at takes'
  exact ⟨_, rfl, takes'⟩

theorem takes_nil (cursor : Cursor) (nesting : Nat) :
    Takes (ahead cursor nesting) [] ⟨true, nesting⟩ (ahead cursor nesting) :=
  ⟨rfl, rfl, rfl⟩

theorem refuses_ahead {outcome : Outcome} (step : cursor.nextToken = (outcome, after))
    (wrong : ¬Accepts ⟨true, nesting⟩ outcome) :
    Refuses (ahead cursor nesting) (blame ⟨true, nesting⟩ outcome) := by
  have next := lookahead_ahead cursor nesting
  rw [step] at next
  have refused := (takes_nil cursor nesting).refuses_next (next.symm ▸ wrong)
  rwa [next] at refused

end Ahead

/-- What reading the text of a tree comes to where a factor is due, behind tokens already taken:
the tree is derived from further tokens, or its first offence is refused. -/
def ReadsText (before : Parser) (taken : List Token) (tree : Expr) (position nesting : Nat)
    (rest : List Char) : Prop :=
  match tree.offence? nesting position with
  | none => ∃ more, Derives .factor (more.map Token.kind) tree ∧
      Takes before (taken ++ more) ⟨false, nesting⟩
        (ahead ⟨rest, position + tree.text.length⟩ nesting)
  | some error => Refuses before error

theorem ReadsText.behind {before : Parser} {taken : List Token} {tree : Expr}
    {position nesting : Nat} {rest : List Char}
    (takes : Takes before taken ⟨true, nesting⟩
      (ahead ⟨tree.text.toList ++ rest, position⟩ nesting))
    (reads : ReadsText (ahead ⟨tree.text.toList ++ rest, position⟩ nesting) [] tree position
      nesting rest) : ReadsText before taken tree position nesting rest := by
  unfold ReadsText at reads ⊢
  cases found : tree.offence? nesting position with
  | none =>
    rw [found] at reads
    obtain ⟨more, derived, later⟩ := reads
    exact ⟨more, derived, takes.trans later⟩
  | some error =>
    rw [found] at reads
    exact takes.refuses reads

theorem readsText_literal (value : Value) (position nesting : Nat) {rest : List Char}
    (ends : Text.beginsWithDigit rest = false) :
    ReadsText (ahead ⟨value.text.toList ++ rest, position⟩ nesting) [] (.literal value) position
      nesting rest := by
  rw [ReadsText, Expr.offence?, Expr.text]
  by_cases negative : value.toInt < 0
  · rw [if_pos negative]
    have written := Word.toList_text_of_neg negative
    have symbol : Token.Kind.symbol? (.operator .sub) = some '-' := rfl
    have sign (digits : List Char) : Cursor.nextToken ⟨'-' :: digits ++ rest, position⟩ =
        (.ok ⟨.operator .sub, position⟩, ⟨digits ++ rest, position + 1⟩) :=
      Cursor.nextToken_symbol symbol (List.forall_mem_nil _) _ _
    rw [written]
    exact refuses_ahead (sign _) Bool.false_ne_true
  · rw [if_neg negative]
    have nonneg : 0 ≤ value.toInt := Int.not_lt.1 negative
    have written := Word.toList_text_of_nonneg nonneg
    have step := Cursor.nextToken_toDigits (Word.toNat_le_largest nonneg) ends position
    rw [Word.ofInt_toNat nonneg, ← written, String.length_toList] at step
    exact ⟨[⟨.integer value, position⟩], .integer value,
      (takes_nil _ nesting).nextToken step rfl nesting⟩

theorem readsText_binary {operator : Operator} {left right : Expr} {position nesting : Nat}
    {rest : List Char} (more : nesting ≠ maxNesting) {before : Parser} {paren : Token}
    (opening : paren.kind = .leftParen)
    (first : ReadsText before [paren] left (position + 1) (nesting + 1)
      ([' '] ++ operator.symbol :: ([' '] ++ (right.text.toList ++ ')' :: rest))))
    (second : ∀ taken, Takes before taken ⟨true, nesting + 1⟩
        (ahead ⟨right.text.toList ++ ')' :: rest, position + left.text.length + 4⟩
          (nesting + 1)) →
      ReadsText before taken right (position + left.text.length + 4) (nesting + 1)
        (')' :: rest)) :
    ReadsText before [] (.binary operator left right) position nesting rest := by
  unfold ReadsText at first second ⊢
  rw [Expr.offence?, if_neg more]
  cases leftFound : left.offence? (nesting + 1) (position + 1) with
  | some error =>
    rw [leftFound] at first
    exact first
  | none =>
    rw [leftFound] at first
    obtain ⟨leftTaken, leftDerived, passed⟩ := first
    have symbol : Token.Kind.symbol? (.operator operator) = some operator.symbol := rfl
    have place : position + 1 + left.text.length + 2 * [' '].length + 1 =
        position + left.text.length + 4 := by
      rw [List.length_singleton]
      omega
    obtain ⟨sign, signKind, due⟩ :=
      passed.symbol [' '] symbol (List.forall_mem_singleton.2 (by decide)) rfl place (nesting + 1)
    have read := second _ due
    rw [Option.none_or]
    cases rightFound : right.offence? (nesting + 1) (position + left.text.length + 4) with
    | some error =>
      rw [rightFound] at read
      exact read
    | none =>
      rw [rightFound] at read
      obtain ⟨rightTaken, rightDerived, both⟩ := read
      have symbol : Token.Kind.symbol? .rightParen = some ')' := rfl
      have place : position + left.text.length + 4 + right.text.length + 2 * 0 + 1 =
          position + (Expr.binary operator left right).text.length := by
        rw [Expr.length_text_binary]
        omega
      obtain ⟨close, closeKind, closed⟩ :=
        Takes.symbol [] both symbol (List.forall_mem_nil _) rfl place nesting
      refine ⟨paren :: (leftTaken ++ sign :: rightTaken) ++ [close], ?_, ?_⟩
      · simpa [opening, signKind, closeKind] using
          Derives.operation operator leftDerived rightDerived
      · simpa using closed

theorem readsText (tree : Expr) (position nesting : Nat) (rest : List Char)
    (within : nesting ≤ maxNesting) (ends : Text.beginsWithDigit rest = false) :
    ReadsText (ahead ⟨tree.text.toList ++ rest, position⟩ nesting) [] tree position nesting
      rest := by
  induction tree generalizing position nesting rest with
  | literal value => exact readsText_literal value position nesting ends
  | binary operator left right leftIH rightIH =>
    rw [Expr.toList_text_binary]
    generalize inner : left.text.toList ++ ([' '] ++ operator.symbol ::
      ([' '] ++ (right.text.toList ++ ')' :: rest))) = behind
    have symbol : Token.Kind.symbol? .leftParen = some '(' := rfl
    by_cases full : nesting = maxNesting
    · have opening := Cursor.nextToken_symbol symbol (List.forall_mem_nil _) behind position
      rw [ReadsText, Expr.offence?, if_pos full]
      exact refuses_ahead opening (by simp [Accepts, step?, full])
    · obtain ⟨paren, opening, due⟩ :=
        Takes.symbol [] (takes_nil ⟨'(' :: behind, position⟩ nesting) symbol
          (List.forall_mem_nil _) (if_neg full) rfl (nesting + 1)
      subst inner
      refine readsText_binary full opening ?_ fun taken takes => ?_
      · exact (leftIH (position + 1) (nesting + 1) _ (by omega) rfl).behind due
      · exact (rightIH _ (nesting + 1) _ (by omega) rfl).behind takes

end Parser

theorem parse_text (tree : Expr) :
    parse tree.text =
      match tree.offence? 0 0 with
      | none => .ok tree
      | some error => .error error := by
  have reads := Parser.readsText tree 0 0 [] (Nat.zero_le _) rfl
  rw [Parser.ReadsText, List.append_nil] at reads
  cases found : tree.offence? 0 0 with
  | some error =>
    rw [found] at reads
    exact Parser.formula_of_refuses (Cursor.start tree.text).kind_ne_endOfInput reads
  | none =>
    rw [found] at reads
    obtain ⟨taken, derived, takes⟩ := reads
    have last : Cursor.stream ⟨[], 0 + tree.text.length⟩ =
        ⟨[], .endOfInput (0 + tree.text.length)⟩ :=
      Cursor.stream_all_blank (List.forall_mem_nil _) _
    have tokens : (Cursor.start tree.text).stream.tokens = taken := by
      have split := takes.tokens
      rw [Parser.ahead, Parser.ahead, last] at split
      exact split.trans (List.append_nil taken)
    have ending : (Cursor.start tree.text).stream.ending =
        .endOfInput (0 + tree.text.length) := by
      have same := takes.ending
      rw [Parser.ahead, Parser.ahead, last] at same
      exact same
    have sentence : Sentence ((Cursor.start tree.text).stream.tokens.map Token.kind) tree := by
      rw [tokens]
      exact sentence_iff.2 ⟨.single (derived.operand .sum), takes.walked⟩
    have read := Parser.formula_of_sentence (0 + tree.text.length) sentence
    rw [← ending] at read
    exact read

/-- A tree that is written and read is the same tree, exactly if no literal is negative and its
depth is at most one more than the parentheses that may be open. Otherwise the error is the
first offence in what was written, which is too deep a parenthesis or the sign of a literal. -/
theorem parse_render (tree : Expr) :
    (∀ other, parse tree.render = .ok other ↔
      other = tree ∧ tree.Unsigned ∧ tree.levels ≤ maxNesting + 1) ∧
    (tree.Unsigned → maxNesting + 1 < tree.levels →
      ∃ position, parse tree.render = .error (.tooDeep maxNesting position)) ∧
    (¬tree.Unsigned →
      ∃ error, tree.FirstOffence error ∧ parse tree.render = .error error) := by
  have sound := @Expr.offence?_eq_none_iff tree 0 0 (Nat.zero_le _)
  rw [Nat.zero_add] at sound
  rw [Expr.render_eq_text, Expr.levels_eq_depth, parse_text]
  cases found : tree.offence? 0 0 with
  | none =>
    obtain ⟨unsigned, shallow⟩ := sound.1 found
    refine ⟨fun other => ?_, fun _ deep => ?_, fun signed => absurd unsigned signed⟩
    · constructor
      · intro same
        exact ⟨(Except.ok.inj same).symm, unsigned, shallow⟩
      · rintro ⟨rfl, -⟩
        rfl
    · omega
  | some error =>
    have bad : ¬(tree.Unsigned ∧ tree.depth ≤ maxNesting + 1) := fun good =>
      Option.some_ne_none error (found.symm.trans (sound.2 good))
    have first : tree.FirstOffence error :=
      Expr.first_of_offence? (Nat.zero_le _) found
    refine ⟨fun other => ?_, fun unsigned _ => ?_, fun _ => ⟨error, first, rfl⟩⟩
    · constructor
      · intro impossible
        cases impossible
      · intro good
        exact absurd good.2 bad
    · obtain ⟨position, rfl⟩ := first.1.tooDeep_of_unsigned unsigned
      exact ⟨position, rfl⟩

end Calculator
