import Calculator.Proofs.Parser.Acceptance
import Calculator.Proofs.Parser.Calls
import Calculator.Proofs.Token.Lexeme

/-! What the parser counts, and how long it takes. Main statement: at every call in a text the
number of open parentheses is right and within the limit, and is so again when the call is
answered with a tree, which has taken a token at least; and the call needs a number of steps that
is bounded by the characters that are left. -/

namespace Calculator

def Outcome.position : Outcome → Nat
  | .ok token => token.position
  | .error error => error.position

namespace Parser
open Grammar Standing Moment

/-- Some tokens have been taken since the start of a text, and the open parentheses have been
counted rightly. -/
structure Passed (text : String) (taken : List Token) (parser : Parser) : Prop where
  tokens : (Cursor.start text).stream.tokens = taken ++ parser.tokens
  ending : (Cursor.start text).stream.ending = parser.ending
  counted : (parser.nesting : Int) = balance (taken.map Token.kind)
  within : parser.nesting ≤ maxNesting

theorem Takes.passed {text : String} {taken : List Token} {due : Bool} {parser : Parser}
    (takes : Takes (ofText text) taken ⟨due, parser.nesting⟩ parser) :
    Passed text taken parser where
  tokens := takes.tokens
  ending := takes.ending
  counted := (opened_of_walk? takes.walked).1.trans (Int.zero_add _)
  within := (opened_of_walk? takes.walked).2 (Nat.zero_le _)

def charactersLeft (text : String) (parser : Parser) : Nat :=
  text.length - parser.lookahead.position

theorem Passed.length_le {text : String} {taken : List Token} {parser : Parser}
    (passed : Passed text taken parser) : parser.tokens.length ≤ charactersLeft text parser := by
  obtain ⟨tokens, ending, nesting⟩ := parser
  cases tokens with
  | nil => exact Nat.zero_le _
  | cons token rest =>
    have behind : token.position + (rest.length + 1) ≤ 0 + text.toList.length :=
      Cursor.position_add_le passed.tokens
    rw [String.length_toList] at behind
    change rest.length + 1 ≤ text.length - token.position
    omega

/-- At a place where an operand is due or has just been read, as many factors are waiting for the
sum inside their parentheses as parentheses are open. -/
structure Stands (text : String) (operandDue : Bool) (frames : List Frame) (parser : Parser) :
    Prop where
  opened : frames.count .parentheses = parser.nesting
  takes : ∃ taken, Takes (ofText text) taken ⟨operandDue, parser.nesting⟩ parser

namespace Moment

def parser? : Moment → Option Parser
  | call _ _ parser => some parser
  | answer _ _ parser => some parser
  | refusal _ _ => none

def depth : Moment → Nat
  | call _ frames _ => frames.count .parentheses
  | answer _ frames _ => frames.count .parentheses
  | refusal _ frames => frames.count .parentheses

/-- A call is made where an operand is due, and answered where one has been read. -/
def Sound (text : String) : Moment → Prop
  | call _ frames parser => Stands text true frames parser
  | answer _ frames parser => Stands text false frames parser
  | refusal _ frames => frames.count .parentheses ≤ maxNesting

end Moment

namespace Stands

variable {text : String} {due : Bool} {frames : List Frame} {parser : Parser}

theorem passed (stands : Stands text due frames parser) : ∃ taken, Passed text taken parser := by
  obtain ⟨taken, takes⟩ := stands.takes
  exact ⟨taken, takes.passed⟩

theorem within (stands : Stands text due frames parser) :
    frames.count .parentheses ≤ maxNesting := by
  obtain ⟨taken, passed⟩ := stands.passed
  exact stands.opened ▸ passed.within

theorem take {due' : Bool} {frames' : List Frame} {after : Parser} {token : Token}
    (stands : Stands text due frames parser) (tokens : parser.tokens = token :: after.tokens)
    (ending : parser.ending = after.ending)
    (step : Standing.step? ⟨due, parser.nesting⟩ token.kind = some ⟨due', after.nesting⟩)
    (opened : frames'.count .parentheses = after.nesting) : Stands text due' frames' after := by
  obtain ⟨taken, takes⟩ := stands.takes
  exact ⟨opened, _, takes.concat tokens ending step⟩

theorem ofChain {tier : Tier} {tree : Expr} (stands : Stands text false frames parser) :
    Sound text (ofChain tier tree frames parser) := by
  unfold Moment.ofChain
  cases found : operator? tier parser with
  | none => exact stands
  | some taken =>
    obtain ⟨-, ending, nesting, position, tokens⟩ := operator?_eq_some found
    refine stands.take tokens ending ?_ (stands.opened.trans nesting)
    rw [← nesting]
    rfl

theorem ofFactor (stands : Stands text true frames parser) :
    Sound text (ofFactor frames parser) := by
  obtain ⟨tokens, ending, nesting⟩ := parser
  cases tokens with
  | nil => cases ending <;> exact stands.within
  | cons token rest =>
    obtain ⟨kind, position⟩ := token
    cases kind with
    | integer value => exact stands.take rfl rfl rfl stands.opened
    | operator operator => exact stands.within
    | rightParen => exact stands.within
    | endOfInput => exact stands.within
    | leftParen =>
      simp only [Moment.ofFactor]
      split
      · exact stands.within
      · rename_i more
        refine stands.take rfl rfl (if_neg more) ?_
        rw [List.count_cons_self, stands.opened]

/-- A factor that gets its sum has opened a pair of parentheses, so that there is one to close. -/
theorem nesting_eq (stands : Stands text due (.parentheses :: frames) parser) :
    parser.nesting = frames.count .parentheses + 1 := by
  rw [← stands.opened, List.count_cons_self]

theorem ofClosed {tree : Expr} (stands : Stands text false (.parentheses :: frames) parser) :
    Sound text (Moment.resume tree frames parser .parentheses) := by
  have opened := stands.nesting_eq
  unfold Moment.resume
  cases closed : expect .rightParen { parser with nesting := parser.nesting - 1 } with
  | error error =>
    have fewer := stands.within
    rw [List.count_cons_self] at fewer
    rw [ofExpected_error closed]
    exact Nat.le_of_succ_le fewer
  | ok after =>
    obtain ⟨ending, nesting, position, tokens⟩ := expect_rightParen closed
    have left : frames.count .parentheses = after.nesting := by
      rw [← nesting, opened, Nat.add_sub_cancel]
    rw [ofExpected_ok closed]
    refine stands.take tokens ending ?_ left
    rw [opened, left]
    rfl

theorem ofWhole {tree : Expr} (stands : Stands text false frames parser) :
    Sound text (ofExpected .endOfInput tree frames parser) := by
  cases ended : parser.expect .endOfInput with
  | error error =>
    rw [ofExpected_error ended]
    exact stands.within
  | ok after =>
    obtain ⟨taken, takes⟩ := stands.takes
    have inner : ∀ token ∈ parser.tokens, token.kind ≠ .endOfInput := fun token member =>
      (Cursor.start text).kind_ne_endOfInput token
        (takes.passed.tokens ▸ List.mem_append_right taken member)
    obtain ⟨empty, position, last⟩ := expect_endOfInput inner ended
    have same : after = parser := by
      obtain ⟨tokens, ending, nesting⟩ := parser
      subst empty last
      cases ended
      rfl
    rw [ofExpected_ok ended, same]
    exact stands

end Stands

namespace Moment

theorem Sound.step {text : String} {moment next : Moment} (step : moment.step? = some next)
    (sound : Sound text moment) : Sound text next := by
  cases moment with
  | call phrase frames parser =>
    cases phrase with
    | factor =>
      cases step
      exact sound.ofFactor
    | chain tier =>
      cases step
      exact ⟨sound.opened, sound.takes⟩
  | answer tree frames parser =>
    cases frames with
    | nil => cases step
    | cons frame frames =>
      cases step
      cases frame with
      | first tier => exact Stands.ofChain ⟨sound.opened, sound.takes⟩
      | further operator left => exact Stands.ofChain ⟨sound.opened, sound.takes⟩
      | parentheses => exact Stands.ofClosed sound
      | whole => exact Stands.ofWhole ⟨sound.opened, sound.takes⟩
  | refusal error frames =>
    cases frames with
    | nil => cases step
    | cons frame frames =>
      cases step
      exact Nat.le_trans (List.count_le_count_cons) sound

theorem sound_start (text : String) : Sound text (start text) :=
  ⟨rfl, [], rfl, rfl, rfl⟩

theorem sound_of_leads {text : String} {moment : Moment} (leads : Leads (start text) moment) :
    Sound text moment :=
  leads.keeps (fun _ _ step sound => sound.step step) (sound_start text)

theorem Sound.depth_le {text : String} {moment : Moment} (sound : Sound text moment) :
    moment.depth ≤ maxNesting := by
  cases moment with
  | call phrase frames parser => exact Stands.within sound
  | answer tree frames parser => exact Stands.within sound
  | refusal error frames => exact sound

theorem Sound.passed {text : String} {moment : Moment} (sound : Sound text moment)
    {parser : Parser} (current : moment.parser? = some parser) :
    moment.depth = parser.nesting ∧ ∃ taken, Passed text taken parser := by
  cases moment with
  | call phrase frames parser =>
    cases current
    exact ⟨sound.opened, Stands.passed sound⟩
  | answer tree frames parser =>
    cases current
    exact ⟨sound.opened, Stands.passed sound⟩
  | refusal error frames => cases current

def effort : Phrase → Nat
  | .chain .sum => 5
  | .chain .product => 3
  | .factor => 1

/-- A bound for the number of steps to come. A token pays for the calls on the way to a sum inside
parentheses, and for what is left of them by their frames. -/
def weight : Moment → Nat
  | call phrase frames parser => 6 * parser.tokens.length + effort phrase + frames.length
  | answer _ frames parser => 6 * parser.tokens.length + frames.length
  | refusal _ frames => frames.length

section Weight

variable {tree : Expr} {frames : List Frame} {parser : Parser}

theorem weight_ofChain_le (tier : Tier) :
    (ofChain tier tree frames parser).weight ≤ 6 * parser.tokens.length + frames.length := by
  unfold ofChain
  cases operator? tier parser with
  | none => exact Nat.le_refl _
  | some taken =>
    have fewer := taken.shorter
    have tighter : effort (operand tier) ≤ 3 := by cases tier <;> decide
    simp only [weight, List.length_cons]
    omega

theorem weight_ofFactor_le :
    (ofFactor frames parser).weight ≤ 6 * parser.tokens.length + frames.length := by
  obtain ⟨tokens, ending, nesting⟩ := parser
  cases tokens with
  | nil => cases ending <;> exact Nat.le_add_left _ _
  | cons token rest =>
    obtain ⟨kind, position⟩ := token
    cases kind with
    | integer value =>
      simp only [ofFactor, weight, List.length_cons]
      omega
    | operator operator => exact Nat.le_add_left _ _
    | rightParen => exact Nat.le_add_left _ _
    | endOfInput => exact Nat.le_add_left _ _
    | leftParen =>
      simp only [ofFactor]
      split
      · exact Nat.le_add_left _ _
      · simp only [weight, effort, List.length_cons]
        omega

theorem weight_ofExpected_le (kind : Token.Kind) :
    (ofExpected kind tree frames parser).weight ≤ 6 * parser.tokens.length + frames.length := by
  cases result : parser.expect kind with
  | error error =>
    rw [ofExpected_error result]
    exact Nat.le_add_left _ _
  | ok after =>
    have fewer := expect_le result
    rw [ofExpected_ok result, weight]
    omega

theorem weight_lt_of_step? {moment next : Moment} (step : moment.step? = some next) :
    next.weight < moment.weight := by
  cases moment with
  | call phrase frames parser =>
    cases phrase with
    | factor =>
      cases step
      have paid : (ofFactor frames parser).weight ≤ _ := weight_ofFactor_le
      show (ofFactor frames parser).weight < 6 * parser.tokens.length + 1 + frames.length
      omega
    | chain tier =>
      cases step
      cases tier <;> simp only [weight, operand, effort, List.length_cons] <;> omega
  | answer tree frames parser =>
    cases frames with
    | nil => cases step
    | cons frame frames =>
      cases step
      have paid : (resume tree frames parser frame).weight ≤
          6 * parser.tokens.length + frames.length := by
        cases frame with
        | first tier => exact weight_ofChain_le tier
        | further operator left => exact weight_ofChain_le operator.tier
        | parentheses => exact weight_ofExpected_le .rightParen
        | whole => exact weight_ofExpected_le .endOfInput
      rw [weight, List.length_cons]
      omega
  | refusal error frames =>
    cases frames with
    | nil => cases step
    | cons frame frames =>
      cases step
      exact Nat.lt_succ_self _

theorem add_weight_le {steps : Nat} {first last : Moment}
    (reached : after? steps first = some last) : steps + last.weight ≤ first.weight := by
  induction steps generalizing first with
  | zero =>
    cases reached
    exact Nat.le_of_eq (Nat.zero_add _)
  | succ steps ih =>
    obtain ⟨next, step, reached⟩ := Option.bind_eq_some_iff.1 reached
    have paid := weight_lt_of_step? step
    have later := ih reached
    omega

end Weight
end Moment

theorem exists_steps (phrase : Phrase) (frames : List Frame) (parser : Parser) :
    ∃ steps ≤ 6 * parser.tokens.length + 5,
      after? steps (.call phrase frames parser) = some (.ofAnswer frames (read phrase parser)) := by
  obtain ⟨steps, reached⟩ := read_comes phrase parser frames
  have paid := add_weight_le reached
  have upper : effort phrase ≤ 5 := by
    match phrase with
    | .chain .sum => decide
    | .chain .product => decide
    | .factor => decide
  have frames_le : frames.length ≤ (ofAnswer frames (read phrase parser)).weight := by
    cases read phrase parser with
    | error error => exact Nat.le_refl _
    | ok parsed => exact Nat.le_add_left _ _
  rw [weight] at paid
  exact ⟨steps, by omega, reached⟩

theorem exists_taken {text : String} {phrase : Phrase} {parser : Parser} {taken : List Token}
    (takes : Takes (ofText text) taken ⟨true, parser.nesting⟩ parser)
    {parsed : Parsed parser} (success : read phrase parser = .ok parsed) :
    ∃ more, more ≠ [] ∧ parsed.after.nesting = parser.nesting ∧
      Passed text (taken ++ more) parsed.after := by
  have met := read_meets phrase parser
  rw [success] at met
  obtain ⟨⟨same, more, further, derived⟩, -⟩ := met
  refine ⟨more, fun none => derived.ne_nil (none ▸ rfl), same, ?_⟩
  exact (takes.trans (same ▸ further)).passed

/-- At every moment of parsing a text as many factors wait for the sum inside their parentheses as
parentheses are open by the tokens that have been taken; these are no more than the limit, and
there is one wherever one is closed. A call that is made at any moment has its answer after a
number of steps that the characters in front of it bound. If the answer is a tree, at least one
token has been taken, and the open parentheses are as many as before and still counted rightly.
All in all the characters of the text bound the number of steps to the outcome. -/
theorem calls_counted (text : String) :
    (∀ moment, Leads (.start text) moment → moment.depth ≤ maxNesting ∧
      ∀ parser, moment.parser? = some parser →
        moment.depth = parser.nesting ∧ ∃ taken, Passed text taken parser) ∧
    (∀ tree frames parser, Leads (.start text) (.answer tree (.parentheses :: frames) parser) →
      0 < parser.nesting) ∧
    (∀ phrase frames parser, Leads (.start text) (.call phrase frames parser) →
      (∃ steps ≤ 6 * charactersLeft text parser + 5,
        after? steps (.call phrase frames parser) =
          some (.ofAnswer frames (read phrase parser))) ∧
      ∀ parsed, read phrase parser = .ok parsed → parsed.after.nesting = parser.nesting ∧
        ∃ taken more, more ≠ [] ∧ Passed text taken parser ∧
          Passed text (taken ++ more) parsed.after) ∧
    (∃ steps ≤ 6 * text.length + 6, ∃ last,
      after? steps (.start text) = some last ∧ last.outcome? = some (parse text)) := by
  refine ⟨?moments, ?closed, ?calls, ?whole⟩
  case moments =>
    intro moment leads
    have sound := sound_of_leads leads
    exact ⟨sound.depth_le, fun parser current => sound.passed current⟩
  case closed =>
    intro tree frames parser leads
    have stands : Stands text false (.parentheses :: frames) parser := sound_of_leads leads
    rw [stands.nesting_eq]
    exact Nat.succ_pos _
  case calls =>
    intro phrase frames parser leads
    have stands : Stands text true frames parser := sound_of_leads leads
    obtain ⟨taken, takes⟩ := stands.takes
    obtain ⟨steps, bounded, reached⟩ := exists_steps phrase frames parser
    have enough := takes.passed.length_le
    refine ⟨⟨steps, by omega, reached⟩, fun parsed success => ?_⟩
    obtain ⟨more, something, same, passed⟩ := exists_taken takes success
    exact ⟨same, taken, more, something, takes.passed, passed⟩
  case whole =>
    obtain ⟨last, ⟨steps, reached⟩, outcome⟩ := start_leads text
    have paid := add_weight_le reached
    have enough : (ofText text).tokens.length ≤ text.toList.length :=
      Cursor.length_stream_le text.toList 0
    rw [String.length_toList] at enough
    have upper : (Moment.start text).weight = 6 * (ofText text).tokens.length + 5 + 1 := rfl
    exact ⟨steps, by omega, last, reached, outcome⟩

/-- The sum inside the parentheses is called after five steps and read up to their end. -/
theorem calls_counted_inside :
    let frames : List Frame := [.parentheses, .further .mul (.literal ⟨2⟩), .first .sum, .whole]
    let parser : Parser := ⟨[⟨.integer ⟨3⟩, 3⟩, ⟨.rightParen, 4⟩], .endOfInput 5, 1⟩
    let after : Parser := ⟨[⟨.rightParen, 4⟩], .endOfInput 5, 1⟩
    Leads (.start "2*(3)") (.call (.chain .sum) frames parser) ∧
      (∃ shorter, read (.chain .sum) parser = .ok ⟨.literal ⟨3⟩, after, shorter⟩) ∧
      ∃ taken more, more ≠ [] ∧ Passed "2*(3)" taken parser ∧
        Passed "2*(3)" (taken ++ more) after := by
  intro frames parser after
  have leads : Leads (.start "2*(3)") (.call (.chain .sum) frames parser) :=
    ⟨5, by decide +kernel⟩
  have derived : Derives (.chain .sum) ([⟨.integer ⟨3⟩, 3⟩].map Token.kind) (.literal ⟨3⟩) :=
    .single (.single (.integer ⟨3⟩))
  obtain ⟨shorter, success⟩ : ∃ shorter, read (.chain .sum) parser = .ok ⟨_, after, shorter⟩ :=
    read_of_derives derived rfl (stops_rightParen [] (.endOfInput 5) 1 4)
  have counted := (calls_counted "2*(3)").2.2.1 (.chain .sum) frames parser leads
  exact ⟨leads, ⟨shorter, success⟩, (counted.2 _ success).2⟩

end Parser
end Calculator
