import Calculator.Token.Stream

/-! A scanner hands out the tokens of a text one at a time, and remembers how far it has come and
whether it has handed out the last outcome. Asking for a token passes the memory by. Main
statements: reading at an index of the text is reading with a cursor there, and draining a scanner
is asking it again and again until it has nothing more to hand out. -/

namespace Calculator

structure Scanner where
  characters : List Char
  index : Nat := 0
  /-- The end of the input or an error has been handed out by `next`. -/
  finished : Bool := false
deriving DecidableEq, Repr

namespace Scanner

def start (text : String) : Scanner := { characters := text.toList }

def cursor (scanner : Scanner) : Cursor :=
  ⟨scanner.characters.drop scanner.index, scanner.index⟩

def nextToken (scanner : Scanner) : Outcome × Scanner :=
  (scanner.cursor.nextToken.1, { scanner with index := scanner.cursor.nextToken.2.position })

/-- Hands out outcomes up to and including the last one, and nothing from then on. -/
def next (scanner : Scanner) : Option Outcome × Scanner :=
  if scanner.finished then (none, scanner)
  else
    let (outcome, after) := scanner.nextToken
    (some outcome, { after with finished := outcome.isLast })

def drain (scanner : Scanner) : List Outcome × Scanner :=
  if scanner.finished then ([], scanner)
  else
    let (stream, after) := scanner.cursor.readAll
    (stream.outcomes, { scanner with index := after.position, finished := true })

theorem cursor_nextToken (scanner : Scanner) :
    scanner.nextToken.2.cursor = scanner.cursor.nextToken.2 := by
  obtain ⟨passed, split, place⟩ := scanner.cursor.nextToken_passes
  have rest : scanner.characters.drop scanner.cursor.nextToken.2.position =
      scanner.cursor.nextToken.2.rest := by
    rw [place, ← List.drop_drop]
    change scanner.cursor.rest.drop passed.length = _
    rw [split, List.drop_left]
  exact congrArg (Cursor.mk · scanner.cursor.nextToken.2.position) rest

theorem drain_eq (scanner : Scanner) :
    scanner.drain =
      match scanner.next with
      | (none, after) => ([], after)
      | (some outcome, after) => (outcome :: after.drain.1, after.drain.2) := by
  obtain ⟨characters, index, finished⟩ := scanner
  cases finished with
  | true => simp [drain, next]
  | false =>
    have moved := cursor_nextToken ⟨characters, index, false⟩
    simp only [drain, next, nextToken, Bool.false_eq_true, ↓reduceIte] at moved ⊢
    rw [Cursor.readAll_eq]
    rcases step : (cursor ⟨characters, index, false⟩).nextToken with
      ⟨error | ⟨kind, position⟩, after⟩
    · simp [TokenStream.outcomes, Ending.outcome, Outcome.isLast]
    · rw [step] at moved
      by_cases last : kind = .endOfInput
      · simp [last, TokenStream.outcomes, Ending.outcome, Outcome.isLast]
      · have goesOn : (⟨characters, after.position, false⟩ : Scanner).cursor = after := moved
        simp [last, goesOn, TokenStream.outcomes, TokenStream.cons, Outcome.isLast]

end Scanner
end Calculator
