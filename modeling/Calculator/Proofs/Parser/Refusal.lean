import Calculator.Proofs.Parser.Viability

/-! Where a text that has no tree goes wrong, and how that is reported. Main statement: the
parser reports the first outcome that does not continue a sentence, and nothing behind it
matters. -/

namespace Calculator
open Grammar Standing

theorem continues_ok_iff {front : List Token.Kind} {token : Token}
    (more : token.kind ≠ .endOfInput) :
    Continues front (.ok token) ↔ Viable (front ++ [token.kind]) := by
  obtain ⟨kind, position⟩ := token
  cases kind with
  | endOfInput => exact absurd rfl more
  | integer value => exact Iff.rfl
  | operator operator => exact Iff.rfl
  | leftParen => exact Iff.rfl
  | rightParen => exact Iff.rfl

theorem ne_endOfInput_of_begins {cursor : Cursor} {front : List Token} {outcome : Outcome}
    (begins : outcome.behind front <+: cursor.stream.outcomes) :
    ∀ token ∈ front, token.kind ≠ .endOfInput := by
  have inner := cursor.kind_ne_endOfInput
  rcases Outcome.last_or_token begins with ⟨rfl, -⟩ | ⟨next, -, within⟩
  · exact inner
  · exact fun token member => inner token (within.subset (List.mem_append_left _ member))

/-- The first outcome that does not continue a sentence is the one that is refused where
walking has led. -/
theorem firstRefused_iff {cursor : Cursor} {front : List Token} {outcome : Outcome} :
    FirstRefused cursor.stream.outcomes front outcome ↔
      outcome.behind front <+: cursor.stream.outcomes ∧
        ∃ standing, start.walk? (front.map Token.kind) = some standing ∧
          ¬standing.Accepts outcome := by
  constructor
  · intro ⟨begins, continued, refused⟩
    have reached : ∃ standing, start.walk? (front.map Token.kind) = some standing := by
      rcases List.eq_nil_or_concat front with rfl | ⟨earlier, last, rfl⟩
      · exact ⟨start, rfl⟩
      · rw [List.concat_eq_append] at begins continued ⊢
        have more := ne_endOfInput_of_begins begins last (by simp)
        have viable := (continues_ok_iff more).1 (continued earlier last (List.prefix_refl _))
        rw [List.map_append]
        exact viable_iff.1 viable
    obtain ⟨standing, walked⟩ := reached
    exact ⟨begins, standing, walked, mt (accepts_iff_continues walked outcome).1 refused⟩
  · intro ⟨begins, standing, walked, refused⟩
    refine ⟨begins, ?_, mt (accepts_iff_continues walked outcome).2 refused⟩
    intro earlier next inside
    obtain ⟨later, rfl⟩ := inside
    have more := ne_endOfInput_of_begins begins next (by simp)
    rw [List.map_append] at walked
    obtain ⟨between, reached, -⟩ := walk?_append_eq_some walked
    rw [List.map_append] at reached
    exact (continues_ok_iff more).2 (viable_iff.2 ⟨between, reached⟩)

theorem blames_of_parse {text : String} {error : ParseError} (failure : parse text = .error error) :
    ∃ front outcome, FirstRefused (Cursor.start text).stream.outcomes front outcome ∧
      Blames (front.map Token.kind) outcome error := by
  obtain ⟨front, outcome, standing, begins, walked, refused, blamed⟩ := refuses_of_parse failure
  exact ⟨front, outcome, firstRefused_iff.2 ⟨begins, standing, walked, refused⟩,
    (blames_iff walked refused error).2 blamed⟩

theorem Grammar.FirstRefused.unique {cursor : Cursor} {front front' : List Token}
    {outcome outcome' : Outcome} (one : FirstRefused cursor.stream.outcomes front outcome)
    (other : FirstRefused cursor.stream.outcomes front' outcome') :
    front = front' ∧ outcome = outcome' := by
  obtain ⟨begins, standing, walked, refused⟩ := firstRefused_iff.1 one
  obtain ⟨begins', standing', walked', refused'⟩ := firstRefused_iff.1 other
  exact refused_unique begins walked refused begins' walked' refused'

theorem Parser.formula_of_refuses {stream : TokenStream}
    (inner : ∀ token ∈ stream.tokens, token.kind ≠ .endOfInput) {error : ParseError}
    (refuses : Refuses (Parser.start stream) error) :
    (Parser.start stream).formula = .error error := by
  have met := formula_meets inner
  obtain ⟨front, outcome, standing, begins, walked, refused, blamed⟩ := refuses
  cases answer : (Parser.start stream).formula with
  | ok tree =>
    rw [answer] at met
    obtain ⟨⟨position, last⟩, sentence⟩ := met
    rw [outcomes, Parser.start, last] at begins
    exact absurd (accepts_of_completed (sentence_iff.1 sentence).2 begins walked) refused
  | error other =>
    rw [answer] at met
    obtain ⟨front', outcome', standing', begins', walked', refused', blamed'⟩ := met
    obtain ⟨rfl, rfl⟩ := refused_unique begins walked refused begins' walked' refused'
    cases walked.symm.trans walked'
    rw [← blamed', blamed]

theorem parse_of_blames {text : String} {front : List Token} {outcome : Outcome}
    {error : ParseError} (first : FirstRefused (Cursor.start text).stream.outcomes front outcome)
    (blamed : Blames (front.map Token.kind) outcome error) : parse text = .error error := by
  obtain ⟨begins, standing, walked, refused⟩ := firstRefused_iff.1 first
  exact Parser.formula_of_refuses (Cursor.start text).kind_ne_endOfInput
    ⟨front, outcome, standing, begins, walked, refused,
      (blames_iff walked refused error).1 blamed⟩

/-- A text without a tree is reported by the first of its outcomes that does not continue a
sentence, whatever comes behind it. -/
theorem parse_eq_error_iff (text : String) (error : ParseError) :
    (parse text = .error error ↔ ∃ front outcome,
      FirstRefused (Cursor.start text).stream.outcomes front outcome ∧
        Blames (front.map Token.kind) outcome error) ∧
    ∀ other front outcome, parse text = .error error →
      FirstRefused (Cursor.start text).stream.outcomes front outcome →
        outcome.behind front <+: (Cursor.start other).stream.outcomes →
          parse other = .error error := by
  refine ⟨⟨blames_of_parse, ?reported⟩, ?independent⟩
  case reported =>
    intro ⟨front, outcome, first, blamed⟩
    exact parse_of_blames first blamed
  case independent =>
    intro other front outcome failure first begins
    obtain ⟨front', outcome', first', blamed⟩ := blames_of_parse failure
    obtain ⟨rfl, rfl⟩ := first.unique first'
    exact parse_of_blames ⟨begins, first.continued, first.refused⟩ blamed

end Calculator
