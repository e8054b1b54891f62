import Calculator.Expr.Infix
import Calculator.Proofs.Token.Lexeme
import Calculator.Proofs.Word.Exactness

/-! What the infix notation of a tree tells about it. Main statement: writing adds what the pending
pieces stand for, one behind the other, and no two trees are written alike, although the sign of
a negative literal is the character of an operator too. -/

namespace Calculator

namespace Text

theorem run_append_inj {run run' rest rest' : List Char} (same : run ++ rest = run' ++ rest')
    (digits : ∀ character ∈ run, character.isDigit)
    (digits' : ∀ character ∈ run', character.isDigit) (ends : beginsWithDigit rest = false)
    (ends' : beginsWithDigit rest' = false) : run = run' ∧ rest = rest' := by
  have runs : run = run' := by
    rw [← takeWhile_isDigit digits ends, same, takeWhile_isDigit digits' ends']
  subst runs
  exact ⟨rfl, List.append_cancel_left same⟩

namespace Decimal

theorem beginsWithDigit_toDigits (number : Nat) (rest : List Char) :
    beginsWithDigit (Nat.toDigits 10 number ++ rest) := by
  obtain ⟨first, others, digits⟩ :=
    List.exists_cons_of_ne_nil (Nat.toDigits_ne_nil (n := number) (b := 10))
  have digit := isDigit_of_mem_toDigits number first (digits ▸ List.mem_cons_self)
  rw [digits]
  exact digit

theorem toDigits_append_inj {number number' : Nat} {rest rest' : List Char}
    (same : Nat.toDigits 10 number ++ rest = Nat.toDigits 10 number' ++ rest')
    (ends : beginsWithDigit rest = false) (ends' : beginsWithDigit rest' = false) :
    number = number' ∧ rest = rest' := by
  obtain ⟨runs, rests⟩ := run_append_inj same (isDigit_of_mem_toDigits number)
    (isDigit_of_mem_toDigits number') ends ends'
  refine ⟨?_, rests⟩
  rw [← value_toDigits number, runs, value_toDigits]

end Decimal
end Text

namespace Word

variable {width : Nat} {word other : Word width}

theorem toList_text (word : Word width) :
    word.text.toList =
      (if word.toInt < 0 then ['-'] else []) ++ Nat.toDigits 10 word.toInt.natAbs := by
  unfold text
  cases word.toInt with
  | ofNat number =>
    have sign : ¬Int.ofNat number < 0 := Int.not_lt.2 (Int.natCast_nonneg number)
    rw [if_neg sign]
    exact String.toList_ofList
  | negSucc number =>
    rw [if_pos (Int.negSucc_lt_zero number)]
    calc (Text.Decimal.text (Int.negSucc number)).toList
      _ = "-".toList ++ (Nat.repr (number + 1)).toList := String.toList_append
      _ = ['-'] ++ Nat.toDigits 10 (number + 1) := congrArg _ String.toList_ofList

theorem toList_text_of_nonneg (nonneg : 0 ≤ word.toInt) :
    word.text.toList = Nat.toDigits 10 word.toInt.toNat := by
  have amount : word.toInt.natAbs = word.toInt.toNat := by omega
  rw [toList_text, if_neg (Int.not_lt.2 nonneg), amount, List.nil_append]

theorem toList_text_of_neg (negative : word.toInt < 0) :
    word.text.toList = '-' :: Nat.toDigits 10 word.toInt.natAbs := by
  rw [toList_text, if_pos negative, List.singleton_append]

theorem beginsWithDigit_text (word : Word width) (rest : List Char) :
    Text.beginsWithDigit (word.text.toList ++ rest) ↔ 0 ≤ word.toInt := by
  by_cases nonneg : 0 ≤ word.toInt
  · rw [toList_text_of_nonneg nonneg]
    exact iff_of_true (Text.Decimal.beginsWithDigit_toDigits _ rest) nonneg
  · rw [toList_text_of_neg (Int.not_le.1 nonneg)]
    exact iff_of_false Bool.false_ne_true nonneg

theorem text_append_inj {rest rest' : List Char}
    (same : word.text.toList ++ rest = other.text.toList ++ rest')
    (ends : Text.beginsWithDigit rest = false) (ends' : Text.beginsWithDigit rest' = false) :
    word = other ∧ rest = rest' := by
  have signs : 0 ≤ word.toInt ↔ 0 ≤ other.toInt := by
    rw [← beginsWithDigit_text word rest, same, beginsWithDigit_text]
  by_cases nonneg : 0 ≤ word.toInt
  · rw [toList_text_of_nonneg nonneg, toList_text_of_nonneg (signs.1 nonneg)] at same
    obtain ⟨amounts, rests⟩ := Text.Decimal.toDigits_append_inj same ends ends'
    exact ⟨toInt_injective (by omega), rests⟩
  · rw [toList_text_of_neg (by omega), toList_text_of_neg (by omega)] at same
    obtain ⟨amounts, rests⟩ :=
      Text.Decimal.toDigits_append_inj (List.cons.inj same).2 ends ends'
    exact ⟨toInt_injective (by omega), rests⟩

theorem text_append_ne_leftParen (word : Word width) (rest rest' : List Char) :
    word.text.toList ++ rest ≠ '(' :: rest' := by
  intro same
  by_cases nonneg : 0 ≤ word.toInt
  · have digit := (beginsWithDigit_text word rest).2 nonneg
    rw [same] at digit
    exact Bool.false_ne_true digit
  · rw [toList_text_of_neg (Int.not_le.1 nonneg)] at same
    exact absurd (List.cons.inj same).1 (by decide)

end Word

namespace Expr

theorem toList_text_binary (operator : Operator) (left right : Expr) (rest : List Char) :
    (binary operator left right).text.toList ++ rest =
      '(' :: (left.text.toList ++
        ([' '] ++ operator.symbol :: ([' '] ++ (right.text.toList ++ ')' :: rest)))) := by
  simp [text]

/-- The notation of a tree tells the tree and where it ends, if no digit follows. By induction on
the tree: in an operation a blank follows the left operand and a parenthesis the right one. -/
theorem text_append_inj {tree other : Expr} {rest rest' : List Char}
    (same : tree.text.toList ++ rest = other.text.toList ++ rest')
    (ends : Text.beginsWithDigit rest = false) (ends' : Text.beginsWithDigit rest' = false) :
    tree = other ∧ rest = rest' := by
  induction tree generalizing other rest rest' with
  | literal value =>
    cases other with
    | literal value' =>
      obtain ⟨rfl, rests⟩ := Word.text_append_inj same ends ends'
      exact ⟨rfl, rests⟩
    | binary operator' left' right' =>
      rw [toList_text_binary] at same
      exact absurd same (Word.text_append_ne_leftParen value rest _)
  | binary operator left right leftIH rightIH =>
    cases other with
    | literal value' =>
      rw [toList_text_binary] at same
      exact absurd same.symm (Word.text_append_ne_leftParen value' rest' _)
    | binary operator' left' right' =>
      rw [toList_text_binary, toList_text_binary] at same
      obtain ⟨rfl, behindLeft⟩ := leftIH (List.cons.inj same).2 rfl rfl
      obtain ⟨symbols, behindSymbol⟩ := List.cons.inj (List.cons.inj behindLeft).2
      obtain rfl := Operator.symbol_injective symbols
      obtain ⟨rfl, behindRight⟩ := rightIH (List.cons.inj behindSymbol).2 rfl rfl
      exact ⟨rfl, (List.cons.inj behindRight).2⟩

theorem text_injective {tree other : Expr} (same : tree.text = other.text) : tree = other := by
  have characters : tree.text.toList ++ [] = other.text.toList ++ [] := by rw [same]
  exact (text_append_inj characters rfl rfl).1

theorem write_eq (pieces : List Piece) (written : String) :
    write pieces written = written ++ String.join (pieces.map Piece.text) := by
  induction pieces generalizing written with
  | nil =>
    rw [write]
    exact (String.append_empty).symm
  | cons piece pieces ih =>
    rw [List.map_cons, String.join_cons, ← String.append_assoc, ← ih]
    cases piece with
    | operand tree => exact write_tree tree pieces written
    | sign op =>
      rw [write]
      congr 1
      simp only [Piece.text, String.push_eq_append, String.append_assoc]
      rfl
    | close =>
      rw [write, String.push_eq_append]
      rfl

/-- Whatever pieces are pending, what each of them stands for is written, one behind the other. So
a literal is written in digits with its sign, an operation in parentheses with its symbol between
its operands, and no two trees are written alike. -/
theorem render_unambiguous :
    (∀ pieces written,
      write pieces written = written ++ String.join (pieces.map Piece.text)) ∧
    (∀ value : Value, (literal value).render =
      (if value.toInt < 0 then "-" else "") ++
        String.ofList (Nat.toDigits 10 value.toInt.natAbs)) ∧
    (∀ operator left right, (binary operator left right).render =
      "(" ++ left.render ++ " " ++ String.singleton operator.symbol ++ " " ++ right.render ++
        ")") ∧
    ∀ tree other : Expr, tree.render = other.render → tree = other := by
  refine ⟨write_eq, ?literals, ?operations, ?injective⟩
  case literals =>
    intro value
    apply String.toList_injective
    rw [render_eq_text, text, Word.toList_text, String.toList_append, String.toList_ofList]
    split <;> rfl
  case operations =>
    intro operator left right
    rw [render_eq_text, render_eq_text, render_eq_text, text]
  case injective =>
    intro tree other same
    rw [render_eq_text, render_eq_text] at same
    exact text_injective same

/-- A sign and an operator with the same character are told apart by the blanks around it. -/
example : (binary .sub (literal ⟨1⟩) (literal (Word.ofInt 64 (-2)))).render = "(1 - -2)" := by
  decide +kernel

end Expr
end Calculator
