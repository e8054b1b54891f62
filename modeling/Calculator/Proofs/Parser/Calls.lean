import Calculator.Proofs.Parser.Soundness

/-! The parser one step at a time, with the calls that are under way on a stack. Main statements:
a call comes to the answer that is given to its request, whatever other calls wait for it, and
from the call of a whole formula the steps lead to the outcome of parsing. -/

namespace Calculator.Parser
open Grammar

/-- A call that waits for the answer to another one: a chain for its first operand or for a
further one, a factor for the sum inside its parentheses, or the whole formula for its sum. -/
inductive Frame where
  | first (tier : Tier)
  | further (operator : Operator) (left : Expr)
  | parentheses
  | whole
deriving DecidableEq, Repr

inductive Moment where
  | call (phrase : Phrase) (frames : List Frame) (parser : Parser)
  | answer (tree : Expr) (frames : List Frame) (parser : Parser)
  | refusal (error : ParseError) (frames : List Frame)
deriving DecidableEq, Repr

namespace Moment

def ofAnswer {before : Parser} (frames : List Frame) : Except ParseError (Parsed before) → Moment
  | .ok parsed => answer parsed.tree frames parsed.after
  | .error error => refusal error frames

def ofChain (tier : Tier) (tree : Expr) (frames : List Frame) (parser : Parser) : Moment :=
  match operator? tier parser with
  | none => answer tree frames parser
  | some taken => call (operand tier) (.further taken.operator tree :: frames) taken.after

def ofFactor (frames : List Frame) (parser : Parser) : Moment :=
  match parser.tokens with
  | [] =>
      match parser.ending with
      | .failed error => refusal (.lexical error) frames
      | .endOfInput position => refusal (.unexpected .endOfInput position) frames
  | token :: rest =>
      match token.kind with
      | .integer value => answer (.literal value) frames { parser with tokens := rest }
      | .leftParen =>
          if parser.nesting = maxNesting then
            refusal (.tooDeep maxNesting token.position) frames
          else
            call (.chain .sum) (.parentheses :: frames)
              { parser with tokens := rest, nesting := parser.nesting + 1 }
      | kind => refusal (.unexpected kind token.position) frames

def ofExpected (kind : Token.Kind) (tree : Expr) (frames : List Frame) (parser : Parser) : Moment :=
  match parser.expect kind with
  | .error error => refusal error frames
  | .ok after => answer tree frames after

section Expected

variable {kind : Token.Kind} {tree : Expr} {frames : List Frame} {parser : Parser}

theorem ofExpected_error {error : ParseError} (failure : parser.expect kind = .error error) :
    ofExpected kind tree frames parser = refusal error frames := by
  rw [ofExpected, failure]

theorem ofExpected_ok {after : Parser} (success : parser.expect kind = .ok after) :
    ofExpected kind tree frames parser = answer tree frames after := by
  rw [ofExpected, success]

end Expected

def resume (tree : Expr) (frames : List Frame) (parser : Parser) : Frame → Moment
  | .first tier => ofChain tier tree frames parser
  | .further operator left => ofChain operator.tier (.binary operator left tree) frames parser
  | .parentheses =>
      ofExpected .rightParen tree frames { parser with nesting := parser.nesting - 1 }
  | .whole => ofExpected .endOfInput tree frames parser

/-- The next moment, unless no call is waiting for the answer any more. An error ends one call
after the other. -/
def step? : Moment → Option Moment
  | call (.chain tier) frames parser => some (call (operand tier) (.first tier :: frames) parser)
  | call .factor frames parser => some (ofFactor frames parser)
  | answer tree (frame :: frames) parser => some (resume tree frames parser frame)
  | refusal error (_ :: frames) => some (refusal error frames)
  | answer _ [] _ => none
  | refusal _ [] => none

def after? : Nat → Moment → Option Moment
  | 0, moment => some moment
  | steps + 1, moment => moment.step?.bind (after? steps)

theorem after?_add (first second : Nat) (moment : Moment) :
    after? (first + second) moment = (after? first moment).bind (after? second) := by
  induction first generalizing moment with
  | zero =>
    rw [Nat.zero_add]
    rfl
  | succ first ih =>
    rw [Nat.succ_add, after?, after?]
    cases moment.step? with
    | none => rfl
    | some next => exact ih next

def Leads (first last : Moment) : Prop := ∃ steps, after? steps first = some last

namespace Leads

variable {first middle last : Moment}

theorem of_eq (same : first = last) : Leads first last := ⟨0, congrArg some same⟩

theorem refl (moment : Moment) : Leads moment moment := of_eq rfl

theorem trans (earlier : Leads first middle) (later : Leads middle last) : Leads first last := by
  obtain ⟨front, reached⟩ := earlier
  obtain ⟨back, reached'⟩ := later
  refine ⟨front + back, ?_⟩
  rw [after?_add, reached]
  exact reached'

theorem step (next : first.step? = some middle) (later : Leads middle last) : Leads first last := by
  obtain ⟨steps, reached⟩ := later
  refine ⟨steps + 1, ?_⟩
  rw [after?, next]
  exact reached

theorem concat (earlier : Leads first middle) (next : middle.step? = some last) :
    Leads first last :=
  earlier.trans (.step next (.refl last))

theorem keeps {property : Moment → Prop}
    (kept : ∀ moment next, moment.step? = some next → property moment → property next)
    (leads : Leads first last) (holds : property first) : property last := by
  obtain ⟨steps, reached⟩ := leads
  induction steps generalizing first with
  | zero =>
    cases reached
    exact holds
  | succ steps ih =>
    obtain ⟨next, step, reached⟩ := Option.bind_eq_some_iff.1 reached
    exact ih (kept first next step holds) reached

end Leads
end Moment

open Moment

/-- A call comes to this answer, whatever calls are waiting for it. -/
def ComesTo (phrase : Phrase) (parser : Parser) (given : Except ParseError (Parsed parser)) :
    Prop :=
  ∀ frames, Leads (.call phrase frames parser) (.ofAnswer frames given)

theorem chainRest_leads (tier : Tier) {before : Parser}
    (request : (parser : Parser) → parser.tokens.length ≤ before.tokens.length →
      Except ParseError (Parsed parser))
    (comes : ∀ parser within, ComesTo (operand tier) parser (request parser within))
    (left : Parsed before) (frames : List Frame) :
    Leads (.ofChain tier left.tree frames left.after)
      (.ofAnswer frames (chainRest tier request left)) := by
  -- A round of the chain is the call of an operand and the step that joins it.
  induction size : left.after.tokens.length using Nat.strongRecOn generalizing left with
  | ind size ih =>
    rw [chainRest, ofChain]
    cases found : operator? tier left.after with
    | none => exact .refl _
    | some taken =>
      obtain rfl := (operator?_eq_some found).1
      have within := Nat.le_of_lt (Nat.lt_trans taken.shorter left.shorter)
      have called := comes taken.after within (.further taken.operator left.tree :: frames)
      simp only
      split
      · rename_i error failure
        rw [failure] at called
        exact called.concat rfl
      · rename_i right success
        rw [success] at called
        have fewer := Nat.lt_trans right.shorter taken.shorter
        exact called.trans (.step rfl (ih _ (size ▸ fewer) (left.join taken right) rfl))

theorem chain_comes (tier : Tier) (parser : Parser)
    (request : (inner : Parser) → inner.tokens.length ≤ parser.tokens.length →
      Except ParseError (Parsed inner))
    (comes : ∀ inner within, ComesTo (operand tier) inner (request inner within)) :
    ComesTo (.chain tier) parser (chain tier parser request) := by
  intro frames
  have called := comes parser (Nat.le_refl _) (.first tier :: frames)
  refine .step rfl ?_
  unfold chain
  split
  · rename_i error failure
    rw [failure] at called
    exact called.concat rfl
  · rename_i first success
    rw [success] at called
    exact called.trans (.step rfl (chainRest_leads tier request comes first frames))

theorem atom_comes (parser : Parser)
    (request : (inner : Parser) → inner.tokens.length < parser.tokens.length →
      Except ParseError (Parsed inner))
    (comes : ∀ inner within, ComesTo (.chain .sum) inner (request inner within)) :
    ComesTo .factor parser (atom parser request) := by
  intro frames
  refine .step rfl ?_
  obtain ⟨tokens, ending, nesting⟩ := parser
  cases tokens with
  | nil => cases ending <;> exact .refl _
  | cons token rest =>
    obtain ⟨kind, position⟩ := token
    cases kind with
    | integer value => exact .refl _
    | operator operator => exact .refl _
    | rightParen => exact .refl _
    | endOfInput => exact .refl _
    | leftParen =>
      simp only [atom, ofFactor]
      split
      · exact .refl _
      · have called := comes ⟨rest, ending, nesting + 1⟩ (Nat.lt_succ_self _)
          (.parentheses :: frames)
        split
        · rename_i error failure
          rw [failure] at called
          exact called.concat rfl
        · rename_i inner success
          rw [success] at called
          refine called.trans (.step rfl ?_)
          change Leads (ofExpected .rightParen inner.tree frames
            { inner.after with nesting := inner.after.nesting - 1 }) _
          split
          · rename_i error failure
            exact .of_eq (ofExpected_error failure)
          · rename_i after closed
            exact .of_eq (ofExpected_ok closed)

theorem read_comes (phrase : Phrase) (parser : Parser) :
    ComesTo phrase parser (read phrase parser) :=
  read_induction chain_comes atom_comes phrase parser

def ofText (text : String) : Parser := start (Cursor.start text).stream

namespace Moment

def start (text : String) : Moment := call (.chain .sum) [.whole] (ofText text)

def outcome? : Moment → Option (Except ParseError Expr)
  | answer tree [] _ => some (.ok tree)
  | refusal error [] => some (.error error)
  | _ => none

/-- Parsing ends, and with the outcome that is computed without a stack. -/
theorem start_leads (text : String) :
    ∃ last, Leads (start text) last ∧ last.outcome? = some (parse text) := by
  have called : Leads (start text) (ofAnswer [.whole] (ofText text).sum) :=
    read_comes (.chain .sum) _ [.whole]
  have whole : parse text = (ofText text).formula := rfl
  rw [whole, formula]
  cases result : (ofText text).sum with
  | error error =>
    rw [result] at called
    exact ⟨.refusal error [], called.concat rfl, rfl⟩
  | ok parsed =>
    rw [result] at called
    refine ⟨ofExpected .endOfInput parsed.tree [] parsed.after,
      called.concat rfl, ?_⟩
    cases ended : parsed.after.expect .endOfInput with
    | error error =>
      rw [ofExpected_error ended]
      simp only [ended]
      rfl
    | ok after =>
      rw [ofExpected_ok ended]
      simp only [ended]
      rfl

end Moment
end Calculator.Parser
