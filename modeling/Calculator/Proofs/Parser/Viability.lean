import Calculator.Proofs.Parser.Acceptance

/-! Beginnings of sentences, and the first outcome of a text that is none any more. Main
statements: some sentence begins with the kinds of some tokens exactly if they can be walked
through, and an outcome is refused behind them exactly if it does not continue a sentence. -/

namespace Calculator.Grammar
open Standing

def Viable (front : List Token.Kind) : Prop := ∃ back tree, Sentence (front ++ back) tree

/-- The tokens in front form a sentence that ends here, or begin one that goes on with this
token. -/
def Continues (front : List Token.Kind) : Outcome → Prop
  | .error _ => False
  | .ok ⟨.endOfInput, _⟩ => ∃ tree, Sentence front tree
  | .ok ⟨kind, _⟩ => Viable (front ++ [kind])

structure FirstRefused (outcomes : List Outcome) (front : List Token) (outcome : Outcome) :
    Prop where
  begins : outcome.behind front <+: outcomes
  continued : ∀ earlier next, earlier ++ [next] <+: front →
    Continues (earlier.map Token.kind) (.ok next)
  refused : ¬Continues (front.map Token.kind) outcome

/-- An operand is due at the start, behind an operator and behind an opening parenthesis. -/
def operandDue (front : List Token.Kind) : Bool :=
  match front.getLast? with
  | none | some .leftParen | some (.operator _) => true
  | _ => false

/-- The report of an outcome that does not continue what stands in front of it. -/
inductive Blames (front : List Token.Kind) : Outcome → ParseError → Prop
  | lexical (error : LexicalError) : Blames front (.error error) (.lexical error)
  | tooDeep (position : Nat) : operandDue front → balance front = maxNesting →
      Blames front (.ok ⟨.leftParen, position⟩) (.tooDeep maxNesting position)
  | unexpected (kind : Token.Kind) (position : Nat) : operandDue front → kind ≠ .leftParen →
      Blames front (.ok ⟨kind, position⟩) (.unexpected kind position)
  | unclosed (kind : Token.Kind) (position : Nat) : ¬operandDue front → 0 < balance front →
      Blames front (.ok ⟨kind, position⟩) (.expected .rightParen kind position)
  | unended (kind : Token.Kind) (position : Nat) : ¬operandDue front → balance front = 0 →
      Blames front (.ok ⟨kind, position⟩) (.expected .endOfInput kind position)

namespace Standing

theorem ne_endOfInput_of_walk? {standing next : Standing} {kinds : List Token.Kind}
    (walked : standing.walk? kinds = some next) : ∀ kind ∈ kinds, kind ≠ .endOfInput := by
  induction kinds generalizing standing with
  | nil => simp
  | cons kind kinds ih =>
    rw [walk?_cons] at walked
    obtain ⟨between, step, later⟩ := Option.bind_eq_some_iff.1 walked
    intro other member
    rcases List.mem_cons.1 member with rfl | member
    · intro same
      rw [same] at step
      cases standing with
      | mk due opened => cases due <;> cases step
    · exact ih later other member

theorem accepts_of_walk? {standing next : Standing} {token : Token} {later : List Token.Kind}
    (walked : standing.walk? (token.kind :: later) = some next) : standing.Accepts (.ok token) := by
  refine Classical.byContradiction fun refused => ?_
  rw [walk?_cons, step?_eq_none_of_not_accepts refused] at walked
  cases walked

theorem accepts_of_prefix {front tokens : List Token} {token : Token} {standing next : Standing}
    (begins : front ++ [token] <+: tokens)
    (completed : start.walk? (tokens.map Token.kind) = some next)
    (walked : start.walk? (front.map Token.kind) = some standing) :
    standing.Accepts (.ok token) := by
  obtain ⟨later, rfl⟩ := begins
  rw [List.append_assoc, List.map_append] at completed
  obtain ⟨between, reached, completed⟩ := walk?_append_eq_some completed
  cases walked.symm.trans reached
  exact accepts_of_walk? completed

theorem length_le_of_refused {outcomes : List Outcome} {front longer : List Token}
    {outcome : Outcome} {standing next : Standing} (begins : outcome.behind front <+: outcomes)
    (walked : start.walk? (front.map Token.kind) = some standing)
    (refused : ¬standing.Accepts outcome) (begins' : longer.map .ok <+: outcomes)
    (walked' : start.walk? (longer.map Token.kind) = some next) :
    longer.length ≤ front.length := by
  refine Nat.le_of_not_lt fun more => refused ?_
  have inside : outcome.behind front <+: longer.map .ok :=
    List.prefix_of_prefix_length_le begins begins' (by
      rw [Outcome.length_behind, List.length_map]
      exact more)
  obtain ⟨token, rfl, within⟩ := Outcome.exists_token inside
  exact accepts_of_prefix within walked' walked

theorem refused_unique {outcomes : List Outcome} {front front' : List Token}
    {outcome outcome' : Outcome} {standing standing' : Standing}
    (begins : outcome.behind front <+: outcomes)
    (walked : start.walk? (front.map Token.kind) = some standing)
    (refused : ¬standing.Accepts outcome) (begins' : outcome'.behind front' <+: outcomes)
    (walked' : start.walk? (front'.map Token.kind) = some standing')
    (refused' : ¬standing'.Accepts outcome') : front = front' ∧ outcome = outcome' := by
  have shorter := length_le_of_refused begins walked refused
    ((List.prefix_append _ _).trans begins') walked'
  have longer := length_le_of_refused begins' walked' refused'
    ((List.prefix_append _ _).trans begins) walked
  have lengths : (outcome.behind front).length = (outcome'.behind front').length := by
    rw [Outcome.length_behind, Outcome.length_behind]
    omega
  exact Outcome.behind_injective <|
    (List.prefix_of_prefix_length_le begins begins' (Nat.le_of_eq lengths)).eq_of_length lengths

end Standing

theorem accepts_of_completed {tokens front : List Token} {outcome : Outcome}
    {standing : Standing} {position : Nat}
    (completed : start.walk? (tokens.map Token.kind) = some ⟨false, 0⟩)
    (begins : outcome.behind front <+: (Ending.endOfInput position).outcome.behind tokens)
    (walked : start.walk? (front.map Token.kind) = some standing) :
    standing.Accepts outcome := by
  rcases Outcome.last_or_token begins with ⟨rfl, rfl⟩ | ⟨token, rfl, within⟩
  · exact Option.some.inj (walked.symm.trans completed)
  · exact accepts_of_prefix within completed walked

/-- What is walked through to where nothing is due and nothing open is a sentence: the parser
would refuse it nowhere. -/
theorem exists_sentence {kinds : List Token.Kind} (walked : start.walk? kinds = some ⟨false, 0⟩) :
    ∃ tree, Sentence kinds tree := by
  obtain ⟨tokens, rfl⟩ := exists_tokens kinds
  have inner : ∀ token ∈ tokens, token.kind ≠ .endOfInput := fun token member =>
    ne_endOfInput_of_walk? walked token.kind (List.mem_map_of_mem member)
  have met := @Parser.formula_meets ⟨tokens, .endOfInput 0⟩ inner
  split at met
  · rename_i tree success
    exact ⟨tree, met.2⟩
  · rename_i error failure
    obtain ⟨front, outcome, standing, begins, walked', refused, -⟩ := met
    exact absurd (accepts_of_completed walked begins walked') refused

def Standing.closing (standing : Standing) : List Token.Kind :=
  (if standing.operandDue then [.integer ⟨0⟩] else []) ++ .replicate standing.opened .rightParen

theorem Standing.walk?_closing (standing : Standing) :
    standing.walk? standing.closing = some ⟨false, 0⟩ := by
  have closes (opened : Nat) :
      walk? ⟨false, opened⟩ (.replicate opened .rightParen) = some ⟨false, 0⟩ := by
    induction opened with
    | zero => rfl
    | succ opened ih => exact ih
  obtain ⟨due, opened⟩ := standing
  cases due with
  | false => exact closes opened
  | true => exact closes opened

theorem viable_iff {front : List Token.Kind} :
    Viable front ↔ ∃ standing, start.walk? front = some standing := by
  constructor
  · intro ⟨back, tree, sentence⟩
    obtain ⟨standing, reached, -⟩ := walk?_append_eq_some (sentence_iff.1 sentence).2
    exact ⟨standing, reached⟩
  · intro ⟨standing, reached⟩
    have walked : start.walk? (front ++ standing.closing) = some ⟨false, 0⟩ := by
      rw [walk?_append, reached]
      exact standing.walk?_closing
    exact ⟨standing.closing, exists_sentence walked⟩

/-- What has been walked through tells by its last token whether an operand is due, and by
its parentheses how many of them are open. -/
theorem standing_of_walk? {front : List Token.Kind} {standing : Standing}
    (walked : start.walk? front = some standing) :
    standing.operandDue = operandDue front ∧ (standing.opened : Int) = balance front := by
  have counted := (opened_of_walk? walked).1
  refine ⟨?_, by simpa [start] using counted⟩
  rcases List.eq_nil_or_concat front with rfl | ⟨earlier, last, rfl⟩
  · cases walked
    rfl
  · rw [List.concat_eq_append] at walked ⊢
    obtain ⟨between, -, walked⟩ := walk?_append_eq_some walked
    rw [walk?_cons] at walked
    obtain ⟨next, step, walked⟩ := Option.bind_eq_some_iff.1 walked
    cases walked
    rw [operandDue, List.getLast?_append]
    unfold step? at step
    split at step
    · cases step
      rfl
    · split at step
      · cases step
      · cases step
        rfl
    · cases step
      rfl
    · cases step
      rfl
    · cases step

theorem accepts_iff_continues {front : List Token.Kind} {standing : Standing}
    (walked : start.walk? front = some standing) (outcome : Outcome) :
    standing.Accepts outcome ↔ Continues front outcome := by
  have goesOn (kind : Token.Kind) : (standing.step? kind).isSome ↔ Viable (front ++ [kind]) := by
    rw [viable_iff, walk?_append, walked, Option.bind_some, walk?_cons]
    cases standing.step? kind with
    | none => simp
    | some next => simp
  cases outcome with
  | error error => exact Iff.rfl
  | ok token =>
    obtain ⟨kind, position⟩ := token
    cases kind with
    | integer value => exact goesOn _
    | operator operator => exact goesOn _
    | leftParen => exact goesOn _
    | rightParen => exact goesOn _
    | endOfInput =>
      constructor
      · intro completed
        exact exists_sentence (completed ▸ walked)
      · intro ⟨tree, sentence⟩
        exact Option.some.inj (walked.symm.trans (sentence_iff.1 sentence).2)

theorem blames_iff {front : List Token.Kind} {standing : Standing} {outcome : Outcome}
    (walked : start.walk? front = some standing) (refused : ¬standing.Accepts outcome)
    (error : ParseError) : Blames front outcome error ↔ standing.blame outcome = error := by
  obtain ⟨due, counted⟩ := standing_of_walk? walked
  constructor
  · intro blamed
    cases blamed with
    | lexical error => rfl
    | tooDeep position isDue full => simp [blame, due, isDue]
    | unexpected kind position isDue other => simp [blame, due, isDue, other]
    | unclosed kind position notDue positive =>
      have opened : standing.opened ≠ 0 := by omega
      simp [blame, due, notDue, opened]
    | unended kind position notDue none =>
      have opened : standing.opened = 0 := by omega
      simp [blame, due, notDue, opened]
  · intro same
    subst same
    cases outcome with
    | error error => exact .lexical error
    | ok token =>
      obtain ⟨kind, position⟩ := token
      obtain ⟨isDue, opened⟩ := standing
      have counted' : (opened : Int) = balance front := counted
      simp only [blame]
      split
      · rename_i isDue
        split
        · rename_i opening
          subst opening isDue
          have full : opened = maxNesting := by simpa [Accepts, step?] using refused
          exact .tooDeep position due.symm (by rw [← counted', full])
        · rename_i other
          exact .unexpected kind position (due ▸ isDue) other
      · rename_i notDue
        split
        · rename_i none
          exact .unended kind position (due ▸ notDue) (by omega)
        · rename_i positive
          exact .unclosed kind position (due ▸ notDue) (by omega)

end Calculator.Grammar
