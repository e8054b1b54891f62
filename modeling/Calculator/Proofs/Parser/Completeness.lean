import Calculator.Proofs.Parser.Soundness

/-! The parser reads what the grammar derives. A chain is read from the left, so that the
tree of its front part is at hand when the loop takes the next operator. Main statement: a
phrase is read as its tree if its parentheses keep within the limit and nothing follows that
would belong to it. -/

namespace Calculator.Parser
open Grammar Standing

/-- Goes on behind what has been read of a phrase. Only a chain can be read in parts. -/
def resume : (phrase : Phrase) → {before : Parser} → Parsed before →
    Except ParseError (Parsed before)
  | .factor, _, left => .ok left
  | .chain tier, _, left => chainRest tier (fun inner _ => read (operand tier) inner) left

theorem resume_of_stops {phrase : Phrase} {before : Parser} (left : Parsed before)
    (stops : Stops phrase left.after) : resume phrase left = .ok left := by
  cases phrase with
  | factor => rfl
  | chain tier =>
    have none := ((stops_chain_iff tier left.after).1 stops).2
    rw [resume, chainRest, none]

/-- The phrases that a phrase is made of, and that end wherever its parts end. -/
def part : Phrase → Phrase
  | .factor => .factor
  | .chain tier => operand tier

theorem Stops.part {phrase : Phrase} {parser : Parser} (stops : Stops phrase parser) :
    Stops (part phrase) parser := by
  cases phrase with
  | factor => trivial
  | chain tier => exact ((stops_chain_iff tier parser).1 stops).1

section Next

variable (tokens : List Token) (ending : Ending) (nesting position : Nat)

theorem stops_rightParen :
    Stops (.chain .sum) ⟨⟨.rightParen, position⟩ :: tokens, ending, nesting⟩ :=
  ⟨rfl, rfl⟩

theorem operator?_operator (operator : Operator) :
    operator? operator.tier ⟨⟨.operator operator, position⟩ :: tokens, ending, nesting⟩ =
      some ⟨operator, ⟨tokens, ending, nesting⟩, Nat.lt_succ_self _⟩ :=
  if_pos rfl

theorem stops_operator (operator : Operator) :
    Stops (operand operator.tier)
      ⟨⟨.operator operator, position⟩ :: tokens, ending, nesting⟩ := by
  cases operator with
  | add => rfl
  | sub => rfl
  | mul => trivial
  | div => trivial

end Next

theorem read_leftParen {tokens : List Token} {ending : Ending} {nesting position : Nat}
    {inside : Parsed ⟨tokens, ending, nesting + 1⟩} {rest : List Token} {position' : Nat}
    (more : nesting ≠ maxNesting)
    (success : read (.chain .sum) ⟨tokens, ending, nesting + 1⟩ = .ok inside)
    (closed : inside.after = ⟨⟨.rightParen, position'⟩ :: rest, ending, nesting + 1⟩) :
    ∃ shorter, read .factor ⟨⟨.leftParen, position⟩ :: tokens, ending, nesting⟩ =
      .ok ⟨inside.tree, ⟨rest, ending, nesting⟩, shorter⟩ := by
  obtain ⟨tree, after, shorter⟩ := inside
  subst closed
  have fewer : rest.length < tokens.length + 1 := by
    simp only [List.length_cons] at shorter
    omega
  refine ⟨fewer, ?_⟩
  simp only [read_factor, atom, if_neg more]
  rw [success]
  rfl

/-- A derived phrase is read up to its end, where its last chain may still go on. -/
theorem read_eq_resume {phrase : Phrase} {kinds : List Token.Kind} {tree : Expr}
    (derived : Derives phrase kinds tree) {taken rest : List Token} {ending : Ending}
    {nesting : Nat} (same : taken.map Token.kind = kinds)
    (walked : walk? ⟨true, nesting⟩ kinds = some ⟨false, nesting⟩)
    (stops : Stops (part phrase) ⟨rest, ending, nesting⟩) :
    ∃ shorter, read phrase ⟨taken ++ rest, ending, nesting⟩ =
      resume phrase ⟨tree, ⟨rest, ending, nesting⟩, shorter⟩ := by
  induction derived generalizing taken rest nesting with
  | integer value =>
    obtain ⟨⟨kind, position⟩, rfl, rfl⟩ := List.map_eq_singleton_iff.1 same
    exact ⟨Nat.lt_succ_self _, rfl⟩
  | @parentheses inside tree inner ih =>
    obtain ⟨front, back, rfl, opening, closing⟩ := List.map_eq_append_iff.1 same
    obtain ⟨⟨_, position⟩, front, rfl, rfl, within⟩ := List.map_eq_cons_iff.1 opening
    obtain ⟨⟨_, position'⟩, rfl, rfl⟩ := List.map_eq_singleton_iff.1 closing
    obtain ⟨between, passed, -⟩ := walk?_append_eq_some walked
    obtain ⟨more, passed⟩ := walk?_leftParen.1 passed
    obtain rfl := inner.standing_eq passed
    have stops' := stops_rightParen rest ending (nesting + 1) position'
    obtain ⟨shorter, success⟩ := ih within passed stops'.part
    rw [resume_of_stops _ stops'] at success
    rw [List.append_assoc]
    exact read_leftParen more success rfl
  | @single tier kinds tree inner ih =>
    obtain ⟨shorter, success⟩ := ih same walked stops.part
    rw [resume_of_stops _ stops] at success
    refine ⟨shorter, ?_⟩
    rw [read_chain, chain, success]
    rfl
  | @joined left right leftTree rightTree operator leftPart rightPart leftIH rightIH =>
    obtain ⟨front, back, rfl, sameLeft, joining⟩ := List.map_eq_append_iff.1 same
    obtain ⟨⟨_, position⟩, back, rfl, rfl, sameRight⟩ := List.map_eq_cons_iff.1 joining
    obtain ⟨between, passed, walked⟩ := walk?_append_eq_some walked
    obtain rfl := leftPart.standing_eq passed
    -- The front is a chain that has not ended, since this operator goes on with it.
    obtain ⟨shorter, success⟩ := leftIH sameLeft passed
      (stops_operator (back ++ rest) ending nesting position operator)
    obtain ⟨shorter', success'⟩ := rightIH sameRight walked stops.part
    rw [resume_of_stops _ stops] at success'
    rw [List.append_assoc, List.cons_append, success, resume, chainRest, operator?_operator]
    simp only [success']
    exact ⟨Nat.lt_trans shorter' (Nat.lt_trans (Nat.lt_succ_self _) shorter), rfl⟩

theorem read_of_derives {phrase : Phrase} {taken rest : List Token} {tree : Expr}
    {ending : Ending} {nesting : Nat} (derived : Derives phrase (taken.map Token.kind) tree)
    (walked : walk? ⟨true, nesting⟩ (taken.map Token.kind) = some ⟨false, nesting⟩)
    (stops : Stops phrase ⟨rest, ending, nesting⟩) :
    ∃ shorter, read phrase ⟨taken ++ rest, ending, nesting⟩ =
      .ok ⟨tree, ⟨rest, ending, nesting⟩, shorter⟩ := by
  obtain ⟨shorter, success⟩ := read_eq_resume derived rfl walked stops.part
  exact ⟨shorter, success.trans (resume_of_stops _ stops)⟩

end Calculator.Parser
