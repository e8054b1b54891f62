import Calculator.Proofs.Grammar.Repetition
import Calculator.Proofs.Parser.Completeness

/-! Which texts have a tree, and which tree that is. Main statement: the parser accepts a text
exactly if it consists of tokens that are a sentence of the grammar, and answers with the one
tree of that sentence. -/

namespace Calculator
open Grammar Standing

namespace Parser

theorem formula_of_sentence {tokens : List Token} {tree : Expr} (position : Nat)
    (sentence : Sentence (tokens.map Token.kind) tree) :
    (Parser.start ⟨tokens, .endOfInput position⟩).formula = .ok tree := by
  obtain ⟨derived, walked⟩ := sentence_iff.1 sentence
  have stops : Stops (.chain .sum) ⟨[], .endOfInput position, 0⟩ := ⟨rfl, rfl⟩
  have reads := read_of_derives derived walked stops
  rw [List.append_nil] at reads
  obtain ⟨shorter, success⟩ := reads
  have success' : (Parser.start ⟨tokens, .endOfInput position⟩).sum = .ok _ := success
  rw [formula, success']
  rfl

end Parser

theorem exists_tokens (kinds : List Token.Kind) :
    ∃ tokens : List Token, tokens.map Token.kind = kinds := by
  refine ⟨kinds.map fun kind => ⟨kind, 0⟩, ?_⟩
  rw [List.map_map]
  exact List.map_id kinds

theorem Grammar.Sentence.unique {kinds : List Token.Kind} {first second : Expr}
    (one : Sentence kinds first) (other : Sentence kinds second) : first = second := by
  obtain ⟨tokens, rfl⟩ := exists_tokens kinds
  have same : Except.ok first = Except.ok second := calc
    Except.ok first = (Parser.start ⟨tokens, .endOfInput 0⟩).formula :=
      (Parser.formula_of_sentence 0 one).symm
    _ = Except.ok second := Parser.formula_of_sentence 0 other
  exact Except.ok.inj same

namespace Parser

theorem expect_endOfInput {parser after : Parser}
    (inner : ∀ token ∈ parser.tokens, token.kind ≠ .endOfInput)
    (success : parser.expect .endOfInput = .ok after) :
    parser.tokens = [] ∧ ∃ position, parser.ending = .endOfInput position := by
  obtain ⟨tokens, ending, nesting⟩ := parser
  cases tokens with
  | nil =>
    cases ending with
    | endOfInput position => exact ⟨rfl, position, rfl⟩
    | failed error => cases success
  | cons token rest =>
    have other := inner token List.mem_cons_self
    have different : token.kind.same .endOfInput = false := by
      cases kind : token.kind <;> simp_all [Token.Kind.same]
    simp [expect, lookahead, different] at success

theorem formula_meets {stream : TokenStream}
    (inner : ∀ token ∈ stream.tokens, token.kind ≠ .endOfInput) :
    match (Parser.start stream).formula with
    | .ok tree => (∃ position, stream.ending = .endOfInput position) ∧
        Sentence (stream.tokens.map Token.kind) tree
    | .error error => Refuses (Parser.start stream) error := by
  have met : Meets (.chain .sum) _ (Parser.start stream).sum := read_meets _ _
  rw [formula]
  cases answer : (Parser.start stream).sum with
  | error error =>
    rw [answer] at met
    exact met
  | ok parsed =>
    rw [answer] at met
    obtain ⟨⟨-, taken, takes, derived⟩, stops⟩ := met
    cases ending : parsed.after.expect .endOfInput with
    | error error =>
      obtain ⟨wrong, rfl⟩ := @expect_error _ 0 _ stops ending
      simp only [ending]
      exact takes.refuses_next wrong
    | ok after =>
      have tokens : stream.tokens = taken ++ parsed.after.tokens := takes.tokens
      obtain ⟨empty, position, last⟩ := expect_endOfInput
        (fun token member => inner token (tokens ▸ List.mem_append_right taken member)) ending
      rw [empty, List.append_nil] at tokens
      simp only [ending, tokens]
      exact ⟨⟨position, takes.ending.trans last⟩, sentence_iff.2 ⟨derived, takes.walked⟩⟩

end Parser

theorem sentence_of_parse {text : String} {tree : Expr} (success : parse text = .ok tree) :
    (∃ position, (Cursor.start text).stream.ending = .endOfInput position) ∧
      Sentence ((Cursor.start text).stream.tokens.map Token.kind) tree := by
  have met := Parser.formula_meets (Cursor.start text).kind_ne_endOfInput
  have success' : (Parser.start (Cursor.start text).stream).formula = .ok tree := success
  rw [success'] at met
  exact met

theorem refuses_of_parse {text : String} {error : ParseError}
    (failure : parse text = .error error) :
    Parser.Refuses (Parser.start (Cursor.start text).stream) error := by
  have met := Parser.formula_meets (Cursor.start text).kind_ne_endOfInput
  have failure' : (Parser.start (Cursor.start text).stream).formula = .error error := failure
  rw [failure'] at met
  exact met

theorem parse_of_sentence {text : String} {tokens : List Token} {position : Nat} {tree : Expr}
    (stream : (Cursor.start text).stream = ⟨tokens, .endOfInput position⟩)
    (sentence : Sentence (tokens.map Token.kind) tree) : parse text = .ok tree := by
  change (Parser.start (Cursor.start text).stream).formula = .ok tree
  rw [stream]
  exact Parser.formula_of_sentence position sentence

/-- A text has a tree if and only if it is made of the tokens of a sentence, and then it has
the tree of that sentence. No sentence has two trees. The chains of the grammar are the
repetitions of their tiers, folded to the left. -/
theorem parse_eq_ok_iff (text : String) (tree : Expr) :
    (parse text = .ok tree ↔ ∃ tokens position,
      (Cursor.start text).stream = ⟨tokens, .endOfInput position⟩ ∧
        Sentence (tokens.map Token.kind) tree) ∧
    (∀ kinds first second, Sentence kinds first → Sentence kinds second → first = second) ∧
    ∀ tier kinds tree, Derives (.chain tier) kinds tree ↔ Repeats tier kinds tree := by
  refine ⟨⟨?sound, ?complete⟩, fun kinds first second => Sentence.unique,
    fun tier kinds tree => derives_chain_iff⟩
  case sound =>
    intro success
    obtain ⟨⟨position, last⟩, sentence⟩ := sentence_of_parse success
    exact ⟨_, position, congrArg (TokenStream.mk _) last, sentence⟩
  case complete =>
    intro ⟨tokens, position, stream, sentence⟩
    exact parse_of_sentence stream sentence

end Calculator
