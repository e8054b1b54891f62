import Calculator.Proofs.Grammar.Standing

/-! Places in a formula as the parser passes them. Main statements: tokens that are taken one
after the other lead on from place to place, and what is refused behind tokens that were taken
is refused in front of them too. -/

namespace Calculator

def Outcome.behind (outcome : Outcome) (front : List Token) : List Outcome :=
  front.map .ok ++ [outcome]

theorem Outcome.length_behind (outcome : Outcome) (front : List Token) :
    (outcome.behind front).length = front.length + 1 := by
  simp [behind]

theorem Outcome.behind_injective {first second : Outcome} {front front' : List Token}
    (same : first.behind front = second.behind front') : front = front' ∧ first = second := by
  obtain ⟨fronts, outcomes⟩ := List.append_singleton_inj.1 same
  exact ⟨(List.map_inj_right fun _ _ => Except.ok.inj).1 fronts, outcomes⟩

theorem Outcome.exists_token {outcome : Outcome} {front tokens : List Token}
    (begins : outcome.behind front <+: tokens.map .ok) :
    ∃ token, outcome = .ok token ∧ front ++ [token] <+: tokens := by
  obtain ⟨begun, inside, split⟩ := List.prefix_map_iff.1 begins
  obtain ⟨front', back, rfl, same, next⟩ := List.map_eq_append_iff.1 split.symm
  obtain rfl : front' = front := (List.map_inj_right fun _ _ => Except.ok.inj).1 same
  obtain ⟨token, rfl, rfl⟩ := List.map_eq_singleton_iff.1 next
  exact ⟨token, rfl, inside⟩

theorem Outcome.last_or_token {outcome last : Outcome} {front tokens : List Token}
    (begins : outcome.behind front <+: last.behind tokens) :
    (front = tokens ∧ outcome = last) ∨
      ∃ token, outcome = .ok token ∧ front ++ [token] <+: tokens := by
  rcases List.prefix_concat_iff.1 begins with whole | within
  · exact Or.inl (Outcome.behind_injective whole)
  · exact Or.inr (Outcome.exists_token within)

namespace Grammar.Standing

def Accepts (standing : Standing) : Outcome → Prop
  | .error _ => False
  | .ok ⟨.endOfInput, _⟩ => standing = ⟨false, 0⟩
  | .ok ⟨kind, _⟩ => (standing.step? kind).isSome

theorem step?_eq_none_of_not_accepts {standing : Standing} {token : Token}
    (refused : ¬standing.Accepts (.ok token)) : standing.step? token.kind = none := by
  obtain ⟨kind, position⟩ := token
  cases kind with
  | endOfInput =>
    obtain ⟨due, opened⟩ := standing
    cases due <;> rfl
  | integer value => exact Option.not_isSome_iff_eq_none.1 refused
  | operator operator => exact Option.not_isSome_iff_eq_none.1 refused
  | leftParen => exact Option.not_isSome_iff_eq_none.1 refused
  | rightParen => exact Option.not_isSome_iff_eq_none.1 refused

def blame (standing : Standing) : Outcome → ParseError
  | .error error => .lexical error
  | .ok ⟨kind, position⟩ =>
      if standing.operandDue then
        if kind = .leftParen then .tooDeep maxNesting position else .unexpected kind position
      else .expected (if standing.opened = 0 then .endOfInput else .rightParen) kind position

end Grammar.Standing

namespace Parser
open Grammar Standing

def outcomes (parser : Parser) : List Outcome := parser.ending.outcome.behind parser.tokens

def read : Phrase → (parser : Parser) → Except ParseError (Parsed parser)
  | .chain .sum => sum
  | .chain .product => product
  | .factor => factor

theorem read_chain (tier : Tier) (parser : Parser) :
    read (.chain tier) parser = chain tier parser fun inner _ => read (operand tier) inner := by
  cases tier with
  | sum => exact sum_eq parser
  | product => rfl

theorem read_factor (parser : Parser) :
    read .factor parser = atom parser fun inside _ => read (.chain .sum) inside := rfl

/-- What chains take over from their operands and factors from the sums inside them holds of the
answer to every request. -/
theorem read_induction
    {motive : Phrase → (parser : Parser) → Except ParseError (Parsed parser) → Prop}
    (ofOperands : ∀ (tier : Tier) (parser : Parser)
      (request : (inner : Parser) → inner.tokens.length ≤ parser.tokens.length →
        Except ParseError (Parsed inner)),
      (∀ inner within, motive (operand tier) inner (request inner within)) →
        motive (.chain tier) parser (chain tier parser request))
    (ofInside : ∀ (parser : Parser)
      (request : (inner : Parser) → inner.tokens.length < parser.tokens.length →
        Except ParseError (Parsed inner)),
      (∀ inner within, motive (.chain .sum) inner (request inner within)) →
        motive .factor parser (atom parser request))
    (phrase : Phrase) (parser : Parser) : motive phrase parser (read phrase parser) := by
  induction count : parser.tokens.length using Nat.strongRecOn generalizing phrase parser with
  | ind size ih =>
    -- A phrase calls the tighter one on no more tokens, and only a factor on fewer.
    have factor (inner : Parser) (within : inner.tokens.length ≤ size) :
        motive .factor inner (read .factor inner) := by
      rw [read_factor]
      exact ofInside inner _ fun inside fewer =>
        ih _ (Nat.lt_of_lt_of_le fewer within) (.chain .sum) inside rfl
    have product (inner : Parser) (within : inner.tokens.length ≤ size) :
        motive (.chain .product) inner (read (.chain .product) inner) := by
      rw [read_chain]
      exact ofOperands .product inner _ fun next fewer => factor next (Nat.le_trans fewer within)
    have sum : motive (.chain .sum) parser (read (.chain .sum) parser) := by
      rw [read_chain]
      exact ofOperands .sum parser _ fun next fewer => product next (count ▸ fewer)
    match phrase with
    | .factor => exact factor parser (Nat.le_of_eq count)
    | .chain .product => exact product parser (Nat.le_of_eq count)
    | .chain .sum => exact sum

/-- No operator follows that would belong to a phrase that ends here. -/
def Stops : Phrase → Parser → Prop
  | .factor, _ => True
  | .chain .product, parser => operator? .product parser = none
  | .chain .sum, parser =>
      operator? .product parser = none ∧ operator? .sum parser = none

theorem stops_chain_iff (tier : Tier) (parser : Parser) :
    Stops (.chain tier) parser ↔
      Stops (operand tier) parser ∧ operator? tier parser = none := by
  cases tier with
  | sum => rfl
  | product => exact (iff_of_eq (true_and _)).symm

theorem operator?_eq_none_iff {tier : Tier} {parser : Parser} :
    operator? tier parser = none ↔ ∀ operator position rest,
      parser.tokens = ⟨.operator operator, position⟩ :: rest → operator.tier ≠ tier := by
  obtain ⟨tokens, ending, nesting⟩ := parser
  constructor
  · intro none operator position rest shape same
    subst shape
    simp [operator?, same] at none
  · intro other
    unfold operator?
    split
    · rename_i operator position rest shape
      exact if_neg (other operator position rest shape)
    · rfl

theorem Stops.congr {phrase : Phrase} {first second : Parser} (stops : Stops phrase first)
    (same : first.tokens = second.tokens) : Stops phrase second := by
  cases phrase with
  | factor => trivial
  | chain tier =>
    cases tier <;> simp only [Stops, operator?_eq_none_iff, same] at stops ⊢ <;> exact stops

/-- Some tokens lead from where an operand is due in one parser to a place in another. -/
structure Takes (before : Parser) (taken : List Token) (standing : Standing) (after : Parser) :
    Prop where
  tokens : before.tokens = taken ++ after.tokens
  ending : before.ending = after.ending
  walked : walk? ⟨true, before.nesting⟩ (taken.map Token.kind) = some standing

theorem Takes.trans {first second third : Parser} {front back : List Token}
    {standing : Standing} (earlier : Takes first front ⟨true, second.nesting⟩ second)
    (later : Takes second back standing third) :
    Takes first (front ++ back) standing third where
  tokens := by rw [earlier.tokens, later.tokens, List.append_assoc]
  ending := earlier.ending.trans later.ending
  walked := by rw [List.map_append, walk?_append, earlier.walked]; exact later.walked

def Reads (phrase : Phrase) (before : Parser) (tree : Expr) (after : Parser) : Prop :=
  after.nesting = before.nesting ∧ ∃ taken, Takes before taken ⟨false, before.nesting⟩ after ∧
    Derives phrase (taken.map Token.kind) tree

/-- An error reports the first of the outcomes ahead that no formula has in its place. -/
def Refuses (before : Parser) (error : ParseError) : Prop :=
  ∃ (front : List Token) (outcome : Outcome) (standing : Standing),
    outcome.behind front <+: before.outcomes ∧
    walk? ⟨true, before.nesting⟩ (front.map Token.kind) = some standing ∧
      ¬standing.Accepts outcome ∧ standing.blame outcome = error

theorem lookahead_begins (parser : Parser) : [parser.lookahead] <+: parser.outcomes := by
  obtain ⟨tokens, ending, nesting⟩ := parser
  cases tokens with
  | nil => exact List.prefix_refl _
  | cons token rest => exact List.prefix_append [Except.ok token] _

theorem Takes.concat {before middle after : Parser} {taken : List Token} {token : Token}
    {standing next : Standing} (takes : Takes before taken standing middle)
    (tokens : middle.tokens = token :: after.tokens) (ending : middle.ending = after.ending)
    (step : standing.step? token.kind = some next) :
    Takes before (taken ++ [token]) next after where
  tokens := by rw [takes.tokens, tokens, List.append_assoc, List.singleton_append]
  ending := takes.ending.trans ending
  walked := by
    rw [List.map_append, walk?_append, takes.walked, Option.bind_some, List.map_singleton,
      walk?_cons, step]
    rfl

theorem Takes.outcomes {before after : Parser} {taken : List Token} {standing : Standing}
    (takes : Takes before taken standing after) :
    before.outcomes = taken.map Except.ok ++ after.outcomes := by
  simp only [Parser.outcomes, Outcome.behind, takes.tokens, takes.ending, List.map_append,
    List.append_assoc]

theorem Takes.refuses_next {before after : Parser} {taken : List Token} {standing : Standing}
    (takes : Takes before taken standing after) (wrong : ¬standing.Accepts after.lookahead) :
    Refuses before (standing.blame after.lookahead) := by
  refine ⟨taken, after.lookahead, standing, ?_, takes.walked, wrong, rfl⟩
  rw [takes.outcomes]
  exact (List.prefix_append_right_inj _).2 (lookahead_begins after)

theorem Takes.refuses {before after : Parser} {taken : List Token} {error : ParseError}
    (takes : Takes before taken ⟨true, after.nesting⟩ after) (refused : Refuses after error) :
    Refuses before error := by
  obtain ⟨front, outcome, standing, begins, walked, wrong, blamed⟩ := refused
  refine ⟨taken ++ front, outcome, standing, ?_, ?_, wrong, blamed⟩
  · rw [takes.outcomes, Outcome.behind, List.map_append, List.append_assoc]
    exact (List.prefix_append_right_inj _).2 begins
  · rw [List.map_append, walk?_append, takes.walked]
    exact walked

def Meets (phrase : Phrase) (before : Parser) : Except ParseError (Parsed before) → Prop
  | .ok parsed => Reads phrase before parsed.tree parsed.after ∧ Stops phrase parsed.after
  | .error error => Refuses before error

end Parser
end Calculator
