import Calculator.Expr

/-! Infix notation of a tree, written piece by piece from a list of what is still to be
written. Main statement: what is written is the infix text of the tree. -/

namespace Calculator.Expr

inductive Piece where
  | operand (tree : Expr)
  | sign (operator : Operator)
  | close

namespace Piece

def text : Piece → String
  | operand tree => tree.text
  | sign op => " " ++ String.singleton op.symbol ++ " "
  | close => ")"

/-- An operation counts for itself and for the operator and parenthesis that replace it. -/
def weight : Piece → Nat
  | operand tree => 3 * tree.size
  | sign _ => 1
  | close => 1

end Piece

def write : List Piece → String → String
  | [], written => written
  | .operand (.literal value) :: pieces, written => write pieces (written ++ value.text)
  | .operand (.binary operator left right) :: pieces, written =>
      write (.operand left :: .sign operator :: .operand right :: .close :: pieces)
        (written.push '(')
  | .sign op :: pieces, written =>
      write pieces (((written.push ' ').push op.symbol).push ' ')
  | .close :: pieces, written => write pieces (written.push ')')
termination_by pieces => pieces.foldr (fun piece total => piece.weight + total) 0
decreasing_by
  all_goals
    simp only [List.foldr_cons, Piece.weight, size]
    omega

def render (tree : Expr) : String := write [.operand tree] ""

theorem write_tree (tree : Expr) (pieces : List Piece) (written : String) :
    write (.operand tree :: pieces) written = write pieces (written ++ tree.text) := by
  induction tree generalizing pieces written with
  | literal value => rw [write, text]
  | binary operator left right leftIH rightIH =>
    rw [write, leftIH, write, rightIH, write]
    congr 1
    simp only [text, String.push_eq_append, String.append_assoc]
    rfl

theorem render_eq_text (tree : Expr) : tree.render = tree.text := by
  rw [render, write_tree, write, String.empty_append]

end Calculator.Expr
