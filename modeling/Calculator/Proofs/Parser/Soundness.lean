import Calculator.Proofs.Parser.Reading

/-! What reading a phrase comes to. Main statement: a phrase that is read derives its tree
from the tokens that were taken and stops where nothing more belongs to it, and a phrase that
is not read is refused at the first outcome that no formula has in its place. -/

namespace Calculator.Parser
open Grammar Standing

theorem operator?_eq_some {tier : Tier} {parser : Parser} {taken : Taken parser}
    (found : operator? tier parser = some taken) :
    taken.operator.tier = tier ∧ parser.ending = taken.after.ending ∧
      parser.nesting = taken.after.nesting ∧
        ∃ position, parser.tokens = ⟨.operator taken.operator, position⟩ :: taken.after.tokens := by
  unfold operator? at found
  split at found
  · rename_i operator position rest shape
    split at found
    · rename_i same
      cases found
      exact ⟨same, rfl, rfl, position, shape⟩
    · cases found
  · cases found

theorem Takes.operator {before middle : Parser} {front : List Token} {tier : Tier}
    (takes : Takes before front ⟨false, middle.nesting⟩ middle) {taken : Taken middle}
    (found : operator? tier middle = some taken) :
    taken.operator.tier = tier ∧ ∃ position,
      Takes before (front ++ [⟨.operator taken.operator, position⟩])
        ⟨true, taken.after.nesting⟩ taken.after := by
  obtain ⟨same, ending, nesting, position, tokens⟩ := operator?_eq_some found
  have step : step? ⟨false, middle.nesting⟩ (.operator taken.operator) =
      some ⟨true, taken.after.nesting⟩ := by
    rw [← nesting]
    rfl
  exact ⟨same, position, takes.concat tokens ending step⟩

theorem Reads.single {tier : Tier} {before after : Parser} {tree : Expr}
    (reads : Reads (operand tier) before tree after) : Reads (.chain tier) before tree after := by
  obtain ⟨nesting, taken, takes, derived⟩ := reads
  exact ⟨nesting, taken, takes, .single derived⟩

theorem Reads.joined {tier : Tier} {before middle after : Parser} {left right : Expr}
    (earlier : Reads (.chain tier) before left middle) {taken : Taken middle}
    (found : operator? tier middle = some taken)
    (later : Reads (operand tier) taken.after right after) :
    Reads (.chain tier) before (.binary taken.operator left right) after := by
  obtain ⟨nesting, front, takes, derived⟩ := earlier
  obtain ⟨nesting', back, takes', derived'⟩ := later
  rw [← nesting] at takes
  obtain ⟨rfl, position, passes⟩ := takes.operator found
  have same : taken.after.nesting = before.nesting :=
    (operator?_eq_some found).2.2.1.symm.trans nesting
  rw [same] at nesting' takes'
  refine ⟨nesting', _, passes.trans takes', ?_⟩
  simpa using Derives.joined taken.operator derived derived'

theorem expect_rightParen {parser after : Parser}
    (success : parser.expect .rightParen = .ok after) :
    parser.ending = after.ending ∧ parser.nesting = after.nesting ∧
      ∃ position, parser.tokens = ⟨.rightParen, position⟩ :: after.tokens := by
  obtain ⟨tokens, ending, nesting⟩ := parser
  cases tokens with
  | nil => cases ending <;> cases success
  | cons token rest =>
    obtain ⟨kind, position⟩ := token
    simp only [expect, lookahead] at success
    split at success
    · rename_i same
      cases success
      cases kind with
      | rightParen => exact ⟨rfl, rfl, position, rfl⟩
      | integer value => cases same
      | operator operator => cases same
      | leftParen => cases same
      | endOfInput => cases same
    · cases success

/-- Behind a whole formula only one kind of token can come. Whatever else comes is refused. -/
theorem expect_error {parser : Parser} {opened : Nat} {error : ParseError}
    (stops : Stops (.chain .sum) parser)
    (failure : parser.expect (if opened = 0 then .endOfInput else .rightParen) = .error error) :
    ¬Accepts ⟨false, opened⟩ parser.lookahead ∧ blame ⟨false, opened⟩ parser.lookahead = error := by
  generalize named : (if opened = 0 then Token.Kind.endOfInput else .rightParen) = wanted
    at failure
  unfold expect at failure
  cases next : parser.lookahead with
  | error lexical =>
    rw [next] at failure
    exact ⟨id, Except.error.inj failure⟩
  | ok token =>
    obtain ⟨kind, position⟩ := token
    rw [next] at failure
    simp only at failure
    split at failure
    · cases failure
    · rename_i different
      subst named
      refine ⟨?_, Except.error.inj failure⟩
      cases kind with
      | integer value => exact Bool.false_ne_true
      | leftParen => exact Bool.false_ne_true
      | operator operator =>
        obtain ⟨tokens, ending, nesting⟩ := parser
        cases tokens with
        | nil => cases ending <;> cases next
        | cons token rest =>
          cases next
          obtain ⟨product, sum⟩ := stops
          cases operator <;> simp [operator?, Operator.tier] at product sum
      | rightParen =>
        cases opened with
        | zero => exact Bool.false_ne_true
        | succ opened => exact absurd rfl different
      | endOfInput =>
        cases opened with
        | zero => exact absurd rfl different
        | succ opened =>
          intro accepted
          exact Nat.succ_ne_zero opened (congrArg Standing.opened accepted)

theorem chainRest_meets (tier : Tier) {before : Parser}
    (request : (parser : Parser) → parser.tokens.length ≤ before.tokens.length →
      Except ParseError (Parsed parser))
    (meets : ∀ parser within, Meets (operand tier) parser (request parser within))
    (left : Parsed before) (soFar : Reads (.chain tier) before left.tree left.after)
    (stops : Stops (operand tier) left.after) :
    Meets (.chain tier) before (chainRest tier request left) := by
  -- What is read so far grows with every round; the promise about it is the invariant.
  induction size : left.after.tokens.length using Nat.strongRecOn generalizing left with
  | ind size ih =>
    rw [chainRest]
    split
    · rename_i none
      exact ⟨soFar, (stops_chain_iff tier left.after).2 ⟨stops, none⟩⟩
    · rename_i taken found
      have within := Nat.le_of_lt (Nat.lt_trans taken.shorter left.shorter)
      have met := meets taken.after within
      split
      · rename_i error failure
        rw [failure] at met
        obtain ⟨nesting, front, takes, -⟩ := soFar
        rw [← nesting] at takes
        obtain ⟨-, position, passes⟩ := takes.operator found
        exact passes.refuses met
      · rename_i right success
        rw [success] at met
        have fewer := Nat.lt_trans right.shorter taken.shorter
        exact ih _ (size ▸ fewer) (left.join taken right) (soFar.joined found met.1) met.2 rfl

theorem chain_meets (tier : Tier) (parser : Parser)
    (request : (inner : Parser) → inner.tokens.length ≤ parser.tokens.length →
      Except ParseError (Parsed inner))
    (meets : ∀ inner within, Meets (operand tier) inner (request inner within)) :
    Meets (.chain tier) parser (chain tier parser request) := by
  have met := meets parser (Nat.le_refl _)
  unfold chain
  split
  · rename_i error failure
    rw [failure] at met
    exact met
  · rename_i first success
    rw [success] at met
    exact chainRest_meets tier request meets first met.1.single met.2

private theorem refuses_here {parser : Parser}
    (wrong : ¬Accepts ⟨true, parser.nesting⟩ parser.lookahead) :
    Refuses parser (blame ⟨true, parser.nesting⟩ parser.lookahead) :=
  Takes.refuses_next ⟨(List.nil_append _).symm, rfl, walk?_nil _⟩ wrong

section Parentheses

variable {tokens : List Token} {ending : Ending} {nesting position : Nat}

theorem Takes.leftParen (more : nesting ≠ maxNesting) :
    Takes ⟨⟨.leftParen, position⟩ :: tokens, ending, nesting⟩ [⟨.leftParen, position⟩]
      ⟨true, nesting + 1⟩ ⟨tokens, ending, nesting + 1⟩ :=
  ⟨rfl, rfl, by simp [walk?_cons, step?, more]⟩

theorem Reads.behind_leftParen (more : nesting ≠ maxNesting) {tree : Expr} {after : Parser}
    (reads : Reads (.chain .sum) ⟨tokens, ending, nesting + 1⟩ tree after) :
    after.nesting - 1 = nesting ∧ ∃ taken,
      Takes ⟨⟨.leftParen, position⟩ :: tokens, ending, nesting⟩ (⟨.leftParen, position⟩ :: taken)
        ⟨false, nesting + 1⟩ { after with nesting := after.nesting - 1 } ∧
      Derives (.chain .sum) (taken.map Token.kind) tree := by
  obtain ⟨same, taken, takes, derived⟩ := reads
  refine ⟨by rw [same, Nat.add_sub_cancel], taken, ?_, derived⟩
  obtain ⟨tokens, ending, walked⟩ := (Takes.leftParen more).trans takes
  exact ⟨tokens, ending, walked⟩

theorem Reads.parentheses (more : nesting ≠ maxNesting) {tree : Expr} {inside after : Parser}
    (reads : Reads (.chain .sum) ⟨tokens, ending, nesting + 1⟩ tree inside)
    (closed : expect .rightParen { inside with nesting := inside.nesting - 1 } = .ok after) :
    Reads .factor ⟨⟨.leftParen, position⟩ :: tokens, ending, nesting⟩ tree after := by
  obtain ⟨same, taken, passes, derived⟩ := reads.behind_leftParen more
  obtain ⟨ends, kept, position', closes⟩ := expect_rightParen closed
  exact ⟨kept.symm.trans same, ⟨.leftParen, position⟩ :: taken ++ [⟨.rightParen, position'⟩],
    passes.concat closes ends rfl, by simpa using Derives.parentheses derived⟩

theorem refuses_unclosed (more : nesting ≠ maxNesting) {tree : Expr} {inside : Parser}
    {error : ParseError} (reads : Reads (.chain .sum) ⟨tokens, ending, nesting + 1⟩ tree inside)
    (stops : Stops (.chain .sum) inside)
    (failure : expect .rightParen { inside with nesting := inside.nesting - 1 } = .error error) :
    Refuses ⟨⟨.leftParen, position⟩ :: tokens, ending, nesting⟩ error := by
  obtain ⟨same, taken, passes, -⟩ := reads.behind_leftParen more
  have stops' : Stops (.chain .sum) { inside with nesting := inside.nesting - 1 } :=
    stops.congr rfl
  obtain ⟨wrong, rfl⟩ := @expect_error _ (nesting + 1) _ stops' failure
  exact passes.refuses_next wrong

end Parentheses

theorem atom_meets (parser : Parser)
    (request : (inner : Parser) → inner.tokens.length < parser.tokens.length →
      Except ParseError (Parsed inner))
    (meets : ∀ inner within, Meets (.chain .sum) inner (request inner within)) :
    Meets .factor parser (atom parser request) := by
  obtain ⟨tokens, ending, nesting⟩ := parser
  cases tokens with
  | nil =>
    cases ending with
    | failed error => exact refuses_here id
    | endOfInput position =>
      exact refuses_here fun accepted => Bool.noConfusion (congrArg operandDue accepted)
  | cons token rest =>
    obtain ⟨kind, position⟩ := token
    cases kind with
    | integer value =>
      exact ⟨⟨rfl, [⟨.integer value, position⟩], ⟨rfl, rfl, rfl⟩, .integer value⟩, trivial⟩
    | operator operator => exact refuses_here Bool.false_ne_true
    | rightParen => exact refuses_here Bool.false_ne_true
    | endOfInput =>
      exact refuses_here fun accepted => Bool.noConfusion (congrArg operandDue accepted)
    | leftParen =>
      simp only [atom]
      split
      · rename_i full
        subst full
        exact refuses_here (by simp [Accepts, lookahead, step?])
      · rename_i more
        have met := meets ⟨rest, ending, nesting + 1⟩ (Nat.lt_succ_self _)
        split
        · rename_i error failure
          rw [failure] at met
          exact (Takes.leftParen more).refuses met
        · rename_i inner success
          rw [success] at met
          split
          · rename_i error failure
            exact refuses_unclosed more met.1 met.2 failure
          · rename_i after closed
            exact ⟨met.1.parentheses more closed, trivial⟩

theorem read_meets (phrase : Phrase) (parser : Parser) :
    Meets phrase parser (read phrase parser) :=
  read_induction chain_meets atom_meets phrase parser

end Calculator.Parser
